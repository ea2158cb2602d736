import Starfall.ProofKit.Runs
import Starfall.Server.LoginServer

/-! Packet boundaries.  `onSocketReadable` takes a header and a body with one call of
`receiveBytes` each, and goes on when fewer bytes arrived than it asked for.  So the packets that it
dispatches are the frames of the client as long as every call returns all that it asked for. -/

namespace Starfall

open Buffer Receive ProofKit.Reading ProofKit.Runs

variable {S : Type} (handle : S → Buffer → Packet Head → Except Fault (Outcome × S))

/-- A connection to a client that sent the frames, over the calls of `onSocketReadable` while it is
open.  The labels are what the two calls of `receiveBytes` return. -/
def readable (frames : List Frame) : System (Connection S) (Nat × Nat) where
  init c := c.unread = frames.flatMap Frame.bytes ∧ c.dispatched = [] ∧ c.isOpen = true
  step c sizes c' := c.isOpen = true ∧ onSocketReadable handle c sizes.1 sizes.2 = .ok c'

/-- The calls of `receiveBytes` return a whole header, and as many bytes as the header says; or the
first returns nothing. -/
def InFull (c : Connection S) (sizes : Nat × Nat) : Prop :=
  sizes.1 = 0 ∨ sizes.1 = Head.size ∧ ∀ head c',
    readHead (.start (c.unread.take Head.size)) = .ok (head, c') →
      (sizes.2 : Int) = head.value.bodysize.toInt

variable {handle} {c : Connection S} {frame : Frame} {suffix : List UInt8}

theorem onSocketReadable_frame
    (handle : S → Buffer → Packet Head → Except Fault (Outcome × S))
    (hunread : c.unread = frame.bytes ++ suffix)
    (hbody : frame.body ≠ []) :
    ∃ dump, onSocketReadable handle c Head.size frame.body.length =
      (defined (handle c.session (.start frame.body) ⟨frame.head, dump⟩)).map fun result =>
        { unread := suffix, session := result.2
          dispatched := c.dispatched ++ [frame.packet], isOpen := result.1 ≠ .threw } := by
  obtain ⟨dump, d, hread⟩ := frame.readHead_bytes
  refine ⟨dump, ?_⟩
  rw [onSocketReadable, hunread, except_bind_of_ok (receiveBytes_head frame suffix)]
  dsimp only
  rw [if_neg (by simp), hread, defined_ok, except_bind_of_ok rfl]
  dsimp only
  rw [if_neg frame.head_bodysize_nonneg, if_neg (mt frame.head_bodysize_eq_zero.mp hbody),
    frame.head_bodysize_toNat, except_bind_of_ok (receiveBytes_all suffix hbody)]
  dsimp only
  rw [Nat.sub_self, List.replicate_zero, List.append_nil]
  cases handle c.session (.start frame.body) ⟨frame.head, dump⟩ <;> rfl

/-- A frame with an empty body makes the call take the address of a byte that is not there. -/
theorem onSocketReadable_empty (hunread : c.unread = frame.bytes ++ suffix)
    (hbody : frame.body = []) (n2 : Nat) :
    onSocketReadable handle c Head.size n2 = .error (.undefined (.outOfRange 0)) := by
  obtain ⟨dump, d, hread⟩ := frame.readHead_bytes
  rw [onSocketReadable, hunread, except_bind_of_ok (receiveBytes_head frame suffix)]
  dsimp only
  rw [if_neg (by simp), hread, defined_ok, except_bind_of_ok rfl]
  dsimp only
  rw [if_neg frame.head_bodysize_nonneg, if_pos (frame.head_bodysize_eq_zero.mpr hbody)]
  rfl

theorem inFull_frame (hunread : c.unread = frame.bytes ++ suffix) (n2 : Nat) :
    InFull c (Head.size, n2) ↔ n2 = frame.body.length := by
  obtain ⟨dump, d, hread⟩ := frame.readHead_bytes
  have hsize : (n2 : Int) = frame.head.bodysize.toInt ↔ n2 = frame.body.length := by
    rw [frame.head_bodysize, Int.natCast_inj]
  rw [InFull, hunread, frame.take_bytes, hread, ← hsize]
  constructor
  · rintro (h | ⟨-, h⟩)
    · cases h
    · exact h _ _ rfl
  · refine fun h => .inr ⟨rfl, fun head c' hhead => ?_⟩
    cases hhead
    exact h

/-- A call that receives in full dispatches the next frame, or finds the end of the stream. -/
theorem onSocketReadable_inOrder {frames : List Frame} {c' : Connection S} {sizes : Nat × Nat}
    (h : InOrder frames c.dispatched c.unread) (full : InFull c sizes)
    (hcall : onSocketReadable handle c sizes.1 sizes.2 = .ok c') :
    InOrder frames c'.dispatched c'.unread := by
  obtain ⟨n, n2⟩ := sizes
  obtain hn | hn : n = 0 ∨ n = Head.size := full.imp_right And.left
  · subst hn
    obtain ⟨⟨data, unread⟩, hreceive, hcall⟩ := except_bind_eq_ok hcall
    obtain ⟨-, -, rfl⟩ := receiveBytes_sizes hreceive
    cases hcall
    exact h
  · subst hn
    obtain ⟨done, rest, hframes, hdone, hunread⟩ := h
    obtain ⟨⟨data, unread⟩, hreceive, -⟩ := except_bind_eq_ok hcall
    obtain ⟨hlength, -⟩ := receiveBytes_sizes hreceive
    cases rest with
    | nil =>
      rw [hunread] at hlength
      cases hlength
    | cons frame rest =>
      rw [List.flatMap_cons] at hunread
      by_cases hbody : frame.body = []
      · rw [onSocketReadable_empty hunread hbody] at hcall
        cases hcall
      have hsize := (inFull_frame hunread n2).mp full
      subst hsize
      obtain ⟨dump', hframe⟩ := onSocketReadable_frame handle hunread hbody
      rw [hframe] at hcall
      cases hhandle : handle c.session (.start frame.body) ⟨frame.head, dump'⟩ with
      | error fault =>
        rw [hhandle] at hcall
        cases hcall
      | ok result =>
        rw [hhandle] at hcall
        cases hcall
        refine ⟨done ++ [frame], rest, by simp [hframes], by simp [hdone], rfl⟩

/-- As long as frames with bodies are left, a handler that returns lets an open connection receive
the next of them in full. -/
theorem readable_progress {frames : List Frame} (h : InOrder frames c.dispatched c.unread)
    (hopen : c.isOpen = true) (hleft : c.unread ≠ []) (hbody : ∀ frame ∈ frames, frame.body ≠ [])
    (hhandle : ∀ buffer head, ∃ result, handle c.session buffer head = .ok result) :
    ∃ sizes c', ((readable handle frames).restrict InFull).step c sizes c' ∧
      c'.dispatched.length = c.dispatched.length + 1 := by
  obtain ⟨done, rest, rfl, hdone, hunread⟩ := h
  cases rest with
  | nil => exact absurd hunread hleft
  | cons frame rest =>
    rw [List.flatMap_cons] at hunread
    obtain ⟨dump, hframe⟩ :=
      onSocketReadable_frame handle hunread (hbody frame (by simp))
    obtain ⟨result, hresult⟩ := hhandle (.start frame.body) ⟨frame.head, dump⟩
    rw [hresult] at hframe
    exact ⟨(Head.size, frame.body.length), _,
      ⟨(inFull_frame hunread _).mpr rfl, hopen, hframe⟩, by simp⟩

/-- In every run whose calls of `receiveBytes` all return what they were asked for, the packets that
were dispatched are the first frames of the client, with their bodies and in order, and all of them
when the stream is used up.  Such a run goes on as long as the bodies are not empty and the handlers
return. -/
theorem readable_inOrder (frames : List Frame) (sizes : List (Nat × Nat)) (c : Connection S)
    (run : ((readable handle frames).restrict InFull).Run sizes c) :
    c.dispatched <+: frames.map Frame.packet ∧
      (c.unread = [] → c.dispatched = frames.map Frame.packet) ∧
      (c.isOpen = true → c.unread ≠ [] → (∀ frame ∈ frames, frame.body ≠ []) →
        (∀ buffer head, ∃ result, handle c.session buffer head = .ok result) →
        ∃ sizes c', ((readable handle frames).restrict InFull).step c sizes c' ∧
          c'.dispatched.length = c.dispatched.length + 1) := by
  have inOrder : InOrder frames c.dispatched c.unread := by
    refine run.invariant (I := fun _ c => InOrder frames c.dispatched c.unread) ?_ ?_
    · rintro c ⟨hunread, hdispatched, -⟩
      rw [hunread, hdispatched]
      exact InOrder.start frames
    · intro _ c sizes c' _ h step
      obtain ⟨full, -, hcall⟩ := step
      exact onSocketReadable_inOrder h full hcall
  refine ⟨inOrder.isPrefix, fun hnil => ?_, readable_progress inOrder⟩
  rw [hnil] at inOrder
  exact inOrder.eq_of_nil

def consoleFrame : Frame := ⟨-1, 2, -1, [0, 0, 0, 0], by decide⟩

def consoleConnection : Connection (Session UInt32) :=
  ⟨consoleFrame.bytes, [], Session.open ⟨⟨0, 0, 0⟩, ⟨0, 0, 0, 0⟩⟩ 1, true⟩

def emptyServer : Session UInt32 → Buffer → Packet Head →
    Except Fault (Outcome × Session UInt32) :=
  dispatch ⟨[], ⟨[], List.nodup_nil⟩, .printed⟩

theorem consoleFrame_dispatched :
    ∃ c, (readable emptyServer [consoleFrame]).step consoleConnection (16, 4) c ∧
      c.dispatched = [consoleFrame.packet] := by
  have start : ((readable emptyServer [consoleFrame]).restrict InFull).Run [] consoleConnection :=
    .nil ⟨rfl, rfl, rfl⟩
  have hunread : consoleConnection.unread = consoleFrame.bytes ++ [] := rfl
  have full : InFull consoleConnection (16, 4) := (inFull_frame hunread 4).mpr rfl
  obtain ⟨c, step, hnil⟩ : ∃ c, (readable emptyServer [consoleFrame]).step consoleConnection
      (16, 4) c ∧ c.unread = [] := ⟨_, ⟨rfl, rfl⟩, rfl⟩
  exact ⟨c, step, (readable_inOrder _ _ _ (start.snoc ⟨full, step⟩)).2.1 hnil⟩

/-- Split within the header, the packet is used up by two calls and never dispatched. -/
theorem consoleFrame_lost :
    ∃ c, (readable emptyServer [consoleFrame]).Run [(8, 1), (12, 1)] c ∧ c.unread = [] ∧
      c.dispatched = [] := by
  have start : (readable emptyServer [consoleFrame]).Run [] consoleConnection :=
    .nil ⟨rfl, rfl, rfl⟩
  exact ⟨_, (start.snoc (l := (8, 1)) ⟨rfl, rfl⟩).snoc (l := (12, 1)) ⟨rfl, rfl⟩, rfl, rfl⟩

end Starfall
