import Starfall.Server.Receive
import Starfall.Unity.Send

/-! From the Unity client to the server.  The two codecs are written by hand in two languages, and
agree: a packet that `Enqueue` queues is a frame with the opcode of the handler of its message, and
the decoder of the handler takes the whole body and returns what was written. -/

namespace Starfall.Unity

open ProofKit.Reading ProofKit.Writing

/-- What the loop of `ConsoleData` returns for the strings of a packet, and the strings that it
takes for it: all of them, unless one of them throws. -/
def printed (print : Str → Receive.Printed) :
    List Str → (Receive.Outcome × List Receive.ConsoleEntry) × List Str
  | [] => ((.returned true, []), [])
  | data :: strings =>
    match print data with
    | .printed text =>
      let ((outcome, entries), taken) := printed print strings
      ((outcome, .message text :: entries), data :: taken)
    | .consoleException => ((.returned false, []), [data])
    | .threw => ((.threw, []), [data])

theorem printed_prefix (print : Str → Receive.Printed) (strings : List Str) :
    (printed print strings).2 <+: strings := by
  induction strings with
  | nil => exact List.nil_prefix
  | cons data strings ih =>
    rw [printed]
    split
    · exact List.cons_prefix_cons.mpr ⟨rfl, ih⟩
    · exact List.cons_prefix_cons.mpr ⟨rfl, List.nil_prefix⟩
    · exact List.cons_prefix_cons.mpr ⟨rfl, List.nil_prefix⟩

/-- When every string is printed, all of them are taken, and each leaves its text. -/
theorem printed_all {print : Str → Receive.Printed} {text : Str → Str} {strings : List Str}
    (h : ∀ data ∈ strings, print data = .printed (text data)) :
    printed print strings = ((.returned true, strings.map fun data => .message (text data)),
      strings) := by
  induction strings with
  | nil => rfl
  | cons data strings ih =>
    rw [printed, h data List.mem_cons_self, ih fun s hs => h s (List.mem_cons_of_mem _ hs)]
    rfl

theorem reads_consoleMessages (print : Str → Receive.Printed) {strings : List Str}
    (h : ∀ data ∈ strings, data.length < 2 ^ 31) :
    Reads (Receive.consoleMessages print strings.length)
      ((printed print strings).2.flatMap Starfall.Buffer.writeString)
      (printed print strings).1 := by
  induction strings with
  | nil => exact .pure _
  | cons data strings ih =>
    have tail := ih fun s hs => h s (List.mem_cons_of_mem _ hs)
    have head := Starfall.Buffer.reads_string (h data List.mem_cons_self)
    rw [printed, List.length_cons, Receive.consoleMessages]
    cases hprint : print data with
    | printed text =>
      refine head.bind ?_
      rw [hprint]
      exact tail.bind_pure
    | consoleException =>
      refine head.bind ?_
      rw [hprint]
      exact .pure _
    | threw =>
      refine head.bind ?_
      rw [hprint]
      exact .pure _

theorem reads_console (print : Str → Receive.Printed) {strings : List Str}
    (hsize : strings.length < 2 ^ 32) (h : ∀ data ∈ strings, data.length < 2 ^ 31) :
    Reads (Receive.readConsole print)
      (Starfall.Buffer.writeUInt32 (.ofNat strings.length) ++
        (printed print strings).2.flatMap Starfall.Buffer.writeString)
      (printed print strings).1 := by
  have hcount : (UInt32.ofNat strings.length).toNat = strings.length :=
    UInt32.toNat_ofNat_of_lt' hsize
  refine (Starfall.Buffer.reads_uint32 _).bind ?_
  rw [hcount]
  exact reads_consoleMessages print h

namespace GameClient

open Unity.Buffer

section Enqueue

variable {F : Type} [FloatBits F] (littleEndian : Bool)

/-- The body of a packet, as the writers of the server would write it. -/
def body : SendFunction → Player F → List UInt8
  | .LoginData, p => Starfall.Buffer.writeLoginStruct ⟨p.login.state.toUInt32, p.login.userid,
      p.login.usertype, p.login.username.getBytes, p.login.password.getBytes⟩
  | .ConsoleData, p => Starfall.Buffer.writeVector Starfall.Buffer.writeString
      (p.consoleQueue.map Text.getBytes)
  | .TransformData, p => Starfall.Buffer.writeTransformStructs p.transformPlayerStruct.path
  | .ObjectsData, p => Starfall.Buffer.writeObjectsStruct
      ⟨p.user.checkObjectsState, p.user.checkObjectsRadius, p.objectsQueue⟩

theorem writes_transformStruct (t : TransformStruct F) :
    Writes (writeTransformStruct littleEndian t) (Starfall.Buffer.writeTransformStruct t) :=
  (writes_uint32 _).seq ((writes_float _ _).seq ((writes_float _ _).seq ((writes_float _ _).seq
    ((writes_float _ _).seq ((writes_float _ _).seq ((writes_float _ _).seq
      (writes_float _ _)))))))

theorem callSend_writes (f : SendFunction) (p : Player F) :
    Writes (callSend littleEndian f p).1 (body f p) := by
  cases f with
  | LoginData =>
    exact (writes_uint32 _).seq ((writes_uint32 _).seq ((writes_uint32 _).seq
      ((writes_string _).seq (writes_string _))))
  | ConsoleData =>
    have strings := Writes.forEach fun s (_ : s ∈ p.consoleQueue) => writes_string s
    have h := (writes_uint32 (.ofNat p.consoleQueue.length)).seq strings
    rw [body, Starfall.Buffer.writeVector, List.length_map, List.flatMap_map]
    exact h
  | TransformData =>
    exact (writes_uint32 _).seq (.forEach fun t _ => writes_transformStruct littleEndian t)
  | ObjectsData =>
    exact (writes_uint32 _).seq ((writes_float _ _).seq ((writes_uint32 _).seq
      (.forEach fun id _ => writes_uint32 id)))

/-- The header of a packet with the given size. -/
def header (opcode bodysize : UInt32) : List UInt8 :=
  Starfall.Buffer.writeUInt32 0xFFFFFFFF ++ (Starfall.Buffer.writeUInt32 opcode ++
    (Starfall.Buffer.writeUInt32 bodysize ++ Starfall.Buffer.writeUInt32 0xFFFFFFFF))

theorem startPacket_eq (opcode : UInt32) :
    ∃ buffer, startPacket opcode = some (buffer, 8) ∧ buffer.toList = header opcode 0 := by
  obtain ⟨first, hfirst, hbytes⟩ : ∃ first, (Store.empty : Bytes).append
      (Starfall.Buffer.writeUInt32 0xFFFFFFFF ++ Starfall.Buffer.writeUInt32 opcode) = some first ∧
      first.toList = Starfall.Buffer.writeUInt32 0xFFFFFFFF ++ Starfall.Buffer.writeUInt32 opcode :=
    Store.append_defined (show 8 ≤ _ by decide)
  obtain ⟨second, hsecond, hall⟩ : ∃ second, first.append
      (Starfall.Buffer.writeUInt32 0 ++ Starfall.Buffer.writeUInt32 0xFFFFFFFF) = some second ∧
      second.toList = header opcode 0 := by
    rw [header, ← List.append_assoc, ← hbytes]
    refine Store.append_defined ?_
    rw [hbytes]
    exact show 16 ≤ _ by decide
  refine ⟨second, ?_, hall⟩
  rw [startPacket, (writes_uint32 _).seq (writes_uint32 _), hfirst]
  simp only [Option.bind_eq_bind, Option.bind_some]
  rw [(writes_uint32 _).seq (writes_uint32 _) first, hsecond, Option.bind_some, hall, hbytes]
  rfl

/-- The four bytes of the size move from the end to the index 8. -/
theorem patchSize_eq {opcode bodysize : UInt32} {body : List UInt8} {buffer : Bytes}
    (hbuffer : buffer.toList = header opcode 0 ++ body) (room : 20 + body.length < 2 ^ 31) :
    ∃ patched, patchSize bodysize 8 buffer = some patched ∧
      patched.toList = header opcode bodysize ++ body := by
  have hlen : (buffer.toList ++ Starfall.Buffer.writeUInt32 bodysize).length ≤ 2 ^ 31 - 1 := by
    rw [hbuffer]
    simp only [header, List.length_append, Starfall.Buffer.writeUInt32_length]
    omega
  obtain ⟨written, hwritten, -⟩ := Store.append_defined hlen
  obtain ⟨s3, pop3, hs3⟩ := Store.pop_append [(bodysize >>> 24).toUInt8, (bodysize >>> 16).toUInt8,
    (bodysize >>> 8).toUInt8] bodysize.toUInt8 hwritten
  obtain ⟨s2, pop2, hs2⟩ := Store.pop_append [(bodysize >>> 24).toUInt8,
    (bodysize >>> 16).toUInt8] (bodysize >>> 8).toUInt8 hs3
  obtain ⟨s1, pop1, hs1⟩ := Store.pop_append [(bodysize >>> 24).toUInt8]
    (bodysize >>> 16).toUInt8 hs2
  obtain ⟨s0, pop0, hs0⟩ := Store.pop_append [] (bodysize >>> 24).toUInt8 hs1
  rw [Store.append_nil] at hs0
  cases hs0
  refine ⟨(((buffer.set 8 (bodysize >>> 24).toUInt8).set 9 (bodysize >>> 16).toUInt8).set 10
    (bodysize >>> 8).toUInt8).set 11 bodysize.toUInt8, ?_, ?_⟩
  · simp only [patchSize, writes_uint32 bodysize buffer, hwritten, Option.bind_eq_bind,
      Option.bind_some, pop3, pop2, pop1, pop0]
  · show (((buffer.toList.set 8 _).set 9 _).set 10 _).set 11 _ = _
    rw [hbuffer]
    rfl

/-- `Enqueue` queues the frame with the opcode and the body of the function, when the packet fits
into an array. -/
theorem enqueue_defined {p : Player F} {f : SendFunction}
    (room : 20 + (body f p).length < 2 ^ 31) :
    enqueue littleEndian p f = some { (callSend littleEndian f p).2 with
      sendQueue := p.sendQueue ++
        [(⟨-1, sendMap f, -1, body f p, by omega⟩ : Frame).bytes] } := by
  obtain ⟨written, hwritten, hbody⟩ : ∃ written, (Store.empty : Bytes).append (body f p) =
      some written ∧ written.toList = body f p := Store.append_defined (by
        show (body f p).length ≤ _
        omega)
  obtain ⟨start, hstart, hhead⟩ := startPacket_eq (sendMap f)
  obtain ⟨buffer, hbuffer, hbytes⟩ : ∃ buffer, start.append (body f p) = some buffer ∧
      buffer.toList = header (sendMap f) 0 ++ body f p := by
    rw [← hhead]
    refine Store.append_defined ?_
    rw [hhead]
    simp only [header, List.length_append, Starfall.Buffer.writeUInt32_length]
    omega
  obtain ⟨patched, hpatched, hpacket⟩ :
      ∃ patched, patchSize (.ofNat (body f p).length) 8 buffer = some patched ∧
        patched.toList = header (sendMap f) (.ofNat (body f p).length) ++ body f p :=
    patchSize_eq hbytes room
  have size : buffer.toList.length - start.toList.length = (body f p).length := by
    rw [hbytes, hhead, List.length_append, Nat.add_sub_cancel_left]
  have queue : (callSend littleEndian f p).2.sendQueue = p.sendQueue := by
    cases f <;> rfl
  simp only [enqueue, callSend_writes littleEndian f p .empty, hwritten, hstart, hbody,
    Writes.pushAll (body f p) start, hbuffer, size, hpatched, Option.bind_eq_bind,
    Option.bind_some, hpacket, queue]
  rfl

theorem enqueue_room {p p' : Player F} {f : SendFunction}
    (h : enqueue littleEndian p f = some p') : 20 + (body f p).length < 2 ^ 31 := by
  simp only [enqueue, patchSize, Option.bind_eq_bind, Option.bind_eq_some_iff] at h
  obtain ⟨written, hwritten, ⟨start, index⟩, hstart, buffer, hbuffer, patched, ⟨sized, hsized, -⟩,
    -⟩ := h
  have hbody := (callSend_writes littleEndian f p).of_empty hwritten
  obtain ⟨start', hstart', hhead⟩ := startPacket_eq (sendMap f)
  rw [hstart] at hstart'
  cases hstart'
  rw [Writes.pushAll _ start, Store.append_eq_some, hbody, hhead] at hbuffer
  rw [writes_uint32 _ buffer, Store.append_eq_some, hbuffer] at hsized
  have := sized.fits
  rw [hsized] at this
  simp only [header, List.length_append, Starfall.Buffer.writeUInt32_length] at this
  omega

end Enqueue

/-- The strings that a packet takes from the player are ASCII. -/
def Ascii {F : Type} (p : Player F) : Prop :=
  p.login.username.Ascii ∧ p.login.password.Ascii ∧ ∀ s ∈ p.consoleQueue, s.Ascii

theorem ofBytes_getBytes {s : Text} (h : s.Ascii) : Text.ofBytes s.getBytes = s := by
  induction s with
  | nil => rfl
  | cons c s ih =>
    have hc := h c List.mem_cons_self
    have tail := ih fun d hd => h d (List.mem_cons_of_mem _ hd)
    simp only [Text.ofBytes, Text.getBytes, List.map_cons, if_pos hc] at tail ⊢
    rw [tail]
    congr 1
    have := UInt16.lt_iff_toNat_lt.mp hc
    rw [← UInt16.toNat_inj]
    simp only [UInt8.toNat_toUInt16, UInt16.toNat_toUInt8]
    exact Nat.mod_eq_of_lt (Nat.lt_trans this (by decide))

/-- The handler of the same message. -/
def handler : SendFunction → Receive.ReceiveFunction
  | .LoginData => .LoginData
  | .ConsoleData => .ConsoleData
  | .TransformData => .TransformData
  | .ObjectsData => .ObjectsData

/-- The decoder of the handler takes all of the body and returns what the player has.  That of
`ConsoleData` takes as much as its loop gets to. -/
def Understood (p : Player UInt32) (body : List UInt8) : SendFunction → Prop
  | .LoginData => ∃ login dump, Starfall.Buffer.readLoginStruct (.start body) =
        .ok (⟨login, dump⟩, (Cursor.start body).advance body.length) ∧
      login.state.toInt32 = p.login.state ∧ login.userid = p.login.userid ∧
      login.usertype = p.login.usertype ∧ Text.ofBytes login.username = p.login.username ∧
      Text.ofBytes login.password = p.login.password
  | .ConsoleData => ∃ strings, strings.map Text.ofBytes = p.consoleQueue ∧
      body.length = 4 + (strings.flatMap Starfall.Buffer.writeString).length ∧
      ∀ print, Receive.readConsole print (.start body) = .ok ((printed print strings).1,
        (Cursor.start body).advance
          (4 + ((printed print strings).2.flatMap Starfall.Buffer.writeString).length))
  | .TransformData => ∃ dump, Starfall.Buffer.readTransformsPacket (.start body) =
      .ok (⟨p.transformPlayerStruct.path, dump⟩, (Cursor.start body).advance body.length)
  | .ObjectsData => Starfall.Buffer.readObjectsStruct (.start body) =
      .ok (⟨p.user.checkObjectsState, p.user.checkObjectsRadius, p.objectsQueue⟩,
        (Cursor.start body).advance body.length)

/-- Reading a body that is shorter than `2^31` bytes with a reader that dumps it. -/
theorem readPacket_body {α : Type} {fields : Starfall.Read α} {bytes : List UInt8} {x : α}
    (h : Reads fields bytes x) (fits : bytes.length < 2 ^ 31) :
    ∃ dump, Starfall.Buffer.readPacket fields (.start bytes) =
      .ok (⟨x, dump⟩, (Cursor.start bytes).advance bytes.length) := by
  have hdecodes : Starfall.Buffer.Decodes (Starfall.Buffer.readPacket fields) Packet.value bytes []
      x := (Starfall.Buffer.decodes_packet_iff fun _ => h).mpr (by rwa [List.append_nil])
  obtain ⟨⟨value, dump⟩, hread, rfl⟩ := hdecodes
  rw [List.append_nil] at hread
  exact ⟨dump, hread⟩

theorem start_all {α : Type} {r : Starfall.Read α} {bytes : List UInt8} {x : α}
    (h : Reads r bytes x) :
    r (.start bytes) = .ok (x, (Cursor.start bytes).advance bytes.length) := by
  have hread := h.start []
  rwa [List.append_nil] at hread

/-- The loop of `ConsoleData` takes the strings of the body, up to the first that throws. -/
theorem console_understood {p : Player UInt32} (ascii : ∀ s ∈ p.consoleQueue, s.Ascii)
    (fits : (body .ConsoleData p).length < 2 ^ 31) :
    Understood p (body .ConsoleData p) .ConsoleData := by
  have pos : ∀ s : Str, 0 < (Starfall.Buffer.writeString s).length := fun s => by
    rw [Starfall.Buffer.writeString_length]
    omega
  have same : p.consoleQueue.map (Text.ofBytes ∘ Text.getBytes) = p.consoleQueue.map id :=
    List.map_congr_left fun s hs => ofBytes_getBytes (ascii s hs)
  rw [← List.map_map, List.map_id] at same
  rw [body] at fits ⊢
  generalize p.consoleQueue.map Text.getBytes = strings at same fits ⊢
  obtain ⟨hcount, hstrings⟩ := Starfall.Buffer.writeVector_bounds pos strings
  have small : ∀ data ∈ strings, data.length < 2 ^ 31 := fun data hdata => by
    have := hstrings data hdata
    rw [Starfall.Buffer.writeString_length] at this
    omega
  refine ⟨strings, same, ?_, fun print => ?_⟩
  · rw [Starfall.Buffer.writeVector, List.length_append, Starfall.Buffer.writeUInt32_length]
  · obtain ⟨left, hleft⟩ := printed_prefix print strings
    have hread := (reads_console print (by omega) small).start
      (left.flatMap Starfall.Buffer.writeString)
    rw [List.append_assoc, ← List.flatMap_append, hleft, List.length_append,
      Starfall.Buffer.writeUInt32_length] at hread
    exact hread

theorem body_understood {p : Player UInt32} (f : SendFunction) (ascii : Ascii p)
    (fits : (body f p).length < 2 ^ 31) : Understood p (body f p) f := by
  obtain ⟨hname, hpass, hconsole⟩ := ascii
  cases f with
  | LoginData =>
    have hlen := fits
    simp only [body, Starfall.Buffer.writeLoginStruct_length] at hlen
    have reads : Reads Starfall.Buffer.readLoginFields (body .LoginData p) _ :=
      Starfall.Buffer.reads_loginFields (by dsimp only; omega) (by dsimp only; omega)
    obtain ⟨dump, hread⟩ := readPacket_body reads fits
    exact ⟨_, dump, hread, rfl, rfl, rfl, ofBytes_getBytes hname, ofBytes_getBytes hpass⟩
  | ConsoleData => exact console_understood hconsole fits
  | TransformData =>
    have hlen := fits
    simp only [body, Starfall.Buffer.writeTransformStructs_length] at hlen
    exact readPacket_body (Starfall.Buffer.reads_transformStructs (by omega)) fits
  | ObjectsData =>
    have hlen := fits
    simp only [body, Starfall.Buffer.writeObjectsStruct, List.length_append,
      Starfall.Buffer.writeIds_length] at hlen
    exact start_all (Starfall.Buffer.reads_objectsStruct (by dsimp only; omega))

/-- `Enqueue` queues a packet whenever it fits into an array.  The packet that it queues for a
player with ASCII strings splits into a header of 16 bytes and a body.  The server reads the header
as that of the body, with the opcode of the handler of the same message, and the handler reads the
body as what the player has. -/
theorem enqueue_understood (littleEndian : Bool) (f : SendFunction) {p : Player UInt32}
    (ascii : Ascii p) :
    ((∃ p', enqueue littleEndian p f = some p') ↔ 20 + (body f p).length < 2 ^ 31) ∧
    ∀ p', enqueue littleEndian p f = some p' →
      ∃ head body : List UInt8, p'.sendQueue = p.sendQueue ++ [head ++ body] ∧
        head.length = Head.size ∧
        (∃ fields dump c, Starfall.Buffer.readHead (.start head) = .ok (⟨fields, dump⟩, c) ∧
          fields.begin.toUInt32 = 0xFFFFFFFF ∧ fields.end_.toUInt32 = 0xFFFFFFFF ∧
          fields.bodysize.toInt = body.length ∧
          Receive.map fields.opcode.toUInt32 = some (handler f)) ∧
        Understood p body f := by
  refine ⟨⟨fun ⟨p', h⟩ => enqueue_room littleEndian h,
    fun room => ⟨_, enqueue_defined littleEndian room⟩⟩, fun p' h => ?_⟩
  have room := enqueue_room littleEndian h
  rw [enqueue_defined littleEndian room] at h
  cases h
  have fits : (body f p).length < 2 ^ 31 := by omega
  obtain ⟨dump, c, hread⟩ := Frame.readHead_bytes ⟨-1, sendMap f, -1, body f p, fits⟩
  refine ⟨Starfall.Buffer.writeHead _, body f p, rfl, rfl,
    ⟨_, dump, c, hread, rfl, rfl, Frame.head_bodysize _, ?_⟩, body_understood f ascii fits⟩
  cases f <;> rfl

/-- A player who logs in as root. -/
def rootPlayer : Player UInt32 where
  user := ⟨1, 0, [], [], []⟩
  login := ⟨0, 0, 0, [114, 111, 111, 116], []⟩
  sendQueue := []
  consoleQueue := []
  objectsQueue := []
  transformPlayerStruct := ⟨0, []⟩

theorem rootPlayer_understood : ∃ p', enqueue true rootPlayer .LoginData = some p' ∧
    ∃ head body : List UInt8, p'.sendQueue = [head ++ body] ∧
      Understood rootPlayer body .LoginData := by
  obtain ⟨queued, understood⟩ := enqueue_understood true .LoginData
    (show Ascii rootPlayer from ⟨by decide, by decide, nofun⟩)
  obtain ⟨p', h⟩ := queued.mpr (by decide)
  obtain ⟨head, body, hqueue, -, -, hbody⟩ := understood p' h
  exact ⟨p', h, head, body, hqueue, hbody⟩

end GameClient

end Starfall.Unity
