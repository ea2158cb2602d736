import Starfall.Server.Send
import Starfall.Unity.Receive

/-! From the server to the Unity client.  The packets that the server queues one after another make
a stream of frames, and each call of `ReceivePacket` takes one of them, calls the receive function
of the same message and gets to the end of the body.  A login reply with the userid that the player
already has changes nothing. -/

namespace Starfall.Unity.GameClient

open ProofKit.Reading Unity.Buffer

variable {F : Type} [FloatBits F]

/-- A call of a function of `Send`, with the player as it is then. -/
abbrev Sent (F : Type) := Send.SendFunction × Starfall.Player F

/-- The queue after a call that finds the given queue. -/
def send (queue : List (List UInt8)) (call : Sent F) : List (List UInt8) :=
  (Send.call call.1 { call.2 with sendQueue := queue }).2.sendQueue

def sendAll (queue : List (List UInt8)) (calls : List (Sent F)) : List (List UInt8) :=
  calls.foldl send queue

def IsAscii (s : Str) : Prop := ∀ b ∈ s, b < 128

instance (s : Str) : Decidable (IsAscii s) := List.decidableBAll _ s

/-- The strings of the packet are ASCII, and an `int` can express its size. -/
def Sendable (call : Sent F) : Prop :=
  (Send.body call.1 call.2).length < 2 ^ 31 ∧ IsAscii call.2.username ∧
    IsAscii call.2.password ∧ ∀ c ∈ call.2.createEntityQueue, IsAscii c.displayName

/-- The receive function of the same message. -/
def receiver : Send.SendFunction → ReceiveFunction
  | .LoginReply => .LoginReply
  | .CreateEntityData => .CreateEntity
  | .TransformEntityData => .TransformEntity
  | .ObjectsReply => .ObjectsReply

theorem send_frame {call : Sent F} (fits : (Send.body call.1 call.2).length < 2 ^ 31) :
    ∃ frame : Frame, frame.body = Send.body call.1 call.2 ∧
      receiveMap frame.opcode = some (receiver call.1) ∧
      ∀ queue, send queue call = queue ++ [frame.bytes] := by
  obtain ⟨f, p⟩ := call
  obtain ⟨opcode, hmap, -⟩ := Send.enqueue_frame p f fits
  refine ⟨⟨-1, opcode, -1, Send.body f p, fits⟩, rfl, ?_, fun queue => ?_⟩
  · cases f <;> cases hmap <;> rfl
  · rw [send, Send.call_eq]
    obtain ⟨opcode', hmap', h⟩ := Send.enqueue_frame { p with sendQueue := queue } f fits
    have same : Send.body f { p with sendQueue := queue } = Send.body f p := by
      cases f <;> rfl
    rw [hmap] at hmap'
    cases hmap'
    show (Send.enqueue _ _ _).2.sendQueue = _
    rw [same, h]

section Records

variable (littleEndian : Bool)

omit [FloatBits F] in
theorem reads_login {login : Starfall.LoginStruct} (hname : IsAscii login.username)
    (hpass : IsAscii login.password)
    (fits : (Starfall.Buffer.writeLoginStruct login).length < 2 ^ 31) :
    Reads readLogin (Starfall.Buffer.writeLoginStruct login) ⟨login.state.toInt32, login.userid,
      login.usertype, Text.ofBytes login.username, Text.ofBytes login.password⟩ := by
  rw [Starfall.Buffer.writeLoginStruct_length] at fits
  exact (reads_uint32 _).bind ((reads_uint32 _).bind ((reads_uint32 _).bind
    ((reads_string hname (by omega)).bind (reads_string hpass (by omega)).bind_pure)))

variable [LawfulFloatBits F]

theorem reads_transform (t : Transform F) :
    Reads (readTransform littleEndian) (Starfall.Buffer.writeTransform t) t :=
  (reads_float _ _).bind ((reads_float _ _).bind ((reads_float _ _).bind ((reads_float _ _).bind
    ((reads_float _ _).bind ((reads_float _ _).bind (reads_float _ _).bind_pure)))))

theorem ofBytes_toUInt8 (s : Str) : (Text.ofBytes s).map UInt16.toUInt8 = s := by
  rw [Text.ofBytes, List.map_map]
  exact List.map_id'' (fun b => by simp) s

theorem reads_createEntity {c : CreateEntityStruct F} (ascii : IsAscii c.displayName)
    (hsize : c.displayName.length < 2 ^ 32) :
    Reads (readCreateEntity littleEndian) (Starfall.Buffer.writeCreateEntity c) c := by
  have h : Reads (readCreateEntity littleEndian) (Starfall.Buffer.writeCreateEntity c)
      { c with displayName := (Text.ofBytes c.displayName).map UInt16.toUInt8 } :=
    (reads_uint32 _).bind ((reads_uint32 _).bind ((reads_string ascii hsize).bind
      (reads_transform littleEndian c.toTransform).bind_pure))
  rw [ofBytes_toUInt8] at h
  exact h

theorem reads_transformStruct (t : TransformStruct F) :
    Reads (readTransformStruct littleEndian) (Starfall.Buffer.writeTransformStruct t) t :=
  (reads_uint32 _).bind (reads_transform littleEndian t.toTransform).bind_pure

theorem reads_transformEntity {t : TransformEntityStruct F} (hsize : t.path.length < 2 ^ 32) :
    Reads (readTransformEntity littleEndian) (Starfall.Buffer.writeTransformEntity t) t := by
  have hcount : (UInt32.ofNat t.path.length).toNat = t.path.length :=
    UInt32.toNat_ofNat_of_lt' hsize
  refine (reads_uint32 _).bind ((reads_uint32 _).bind ?_)
  rw [hcount]
  exact (Reads.repeatRead fun node _ => reads_transformStruct littleEndian node).bind_pure

end Records

/-- The creates of a packet. -/
def creates : Sent F → List (CreateEntityStruct F)
  | (.CreateEntityData, p) => p.createEntityQueue
  | (.ObjectsReply, p) => p.createEntityQueue
  | _ => []

def destroys : Sent F → List DestroyEntityStruct
  | (.ObjectsReply, p) => p.destroyEntityQueue
  | _ => []

def transforms : Sent F → List (TransformEntityStruct F)
  | (.TransformEntityData, p) => p.transformEntityQueue
  | _ => []

def states : Sent F → List UInt32
  | (.ObjectsReply, p) => [p.updateState]
  | _ => []

def logins : Sent F → List LoginStruct
  | (.LoginReply, p) => [⟨p.state.toInt32, p.userid, p.usertype, Text.ofBytes p.username,
      Text.ofBytes p.password⟩]
  | _ => []

/-- The login after a reply: the reply when its userid is another one. -/
def replace (login reply : LoginStruct) : LoginStruct :=
  if login.userid ≠ reply.userid then reply else login

/-- The player after the packets of the calls. -/
def received (q : Player F) (calls : List (Sent F)) : Player F :=
  { q with
    login := (calls.flatMap logins).foldl replace q.login
    user := { q.user with
      checkObjectsState := (calls.flatMap states).getLastD q.user.checkObjectsState
      createEntityQueue := q.user.createEntityQueue ++ calls.flatMap creates
      transformEntityQueue := q.user.transformEntityQueue ++ calls.flatMap transforms
      destroyEntityQueue := q.user.destroyEntityQueue ++ calls.flatMap destroys } }

omit [FloatBits F] in
theorem received_cons (q : Player F) (call : Sent F) (calls : List (Sent F)) :
    received (received q [call]) calls = received q (call :: calls) := by
  simp [received]

omit [FloatBits F] in
theorem foldl_perform {α : Type} (action : α → Action F) (elems : List α) (q : Player F) :
    elems.foldl (fun q a => q.perform (action a)) q =
      { q with user := (elems.map action).foldl User.perform q.user } := by
  induction elems generalizing q with
  | nil => rfl
  | cons a elems ih => rw [List.foldl_cons, ih, List.map_cons, List.foldl_cons, Player.perform]

omit [FloatBits F] in
theorem perform_transforms_foldl (transforms : List (TransformEntityStruct F)) (user : User F) :
    (transforms.map Action.transformEntity).foldl User.perform user =
      { user with transformEntityQueue := user.transformEntityQueue ++ transforms } := by
  induction transforms generalizing user with
  | nil => simp
  | cons t transforms ih =>
    rw [List.map_cons, List.foldl_cons, ih]
    simp [User.perform]

section Functions

variable (littleEndian : Bool)

omit [FloatBits F] in
/-- A count and its records, each of which is read and performed as one action. -/
theorem reads_actions {α : Type} {step : Player F → Read (Player F)} {enc : α → List UInt8}
    (action : α → Action F) {elems : List α} (hsize : elems.length < 2 ^ 32)
    (h : ∀ a ∈ elems, ∀ q, Reads (step q) (enc a) (q.perform (action a))) (q : Player F) :
    Reads (do let length ← readUInt32; repeatUpdate step length.toNat q)
      (Starfall.Buffer.writeVector enc elems)
      { q with user := (elems.map action).foldl User.perform q.user } := by
  have hcount : (UInt32.ofNat elems.length).toNat = elems.length :=
    UInt32.toNat_ofNat_of_lt' hsize
  rw [← foldl_perform]
  refine (reads_uint32 _).bind ?_
  rw [hcount]
  exact Reads.repeatUpdate h q

omit [FloatBits F] in
theorem reads_loginReply {login : Starfall.LoginStruct} (q : Player F)
    (hname : IsAscii login.username) (hpass : IsAscii login.password)
    (fits : (Starfall.Buffer.writeLoginStruct login).length < 2 ^ 31) :
    Reads (loginReply q) (Starfall.Buffer.writeLoginStruct login) { q with
      login := replace q.login ⟨login.state.toInt32, login.userid, login.usertype,
        Text.ofBytes login.username, Text.ofBytes login.password⟩ } := by
  rw [← List.append_nil (Starfall.Buffer.writeLoginStruct login)]
  refine (reads_login hname hpass fits).bind ?_
  rw [replace]
  split
  · exact .pure _
  · exact .pure _

omit [FloatBits F] in
theorem reads_destroyEntities {destroys : List DestroyEntityStruct} (q : Player F)
    (hsize : destroys.length < 2 ^ 32) :
    Reads (destroyEntity q) (Starfall.Buffer.writeDestroyEntities destroys)
      { q with user := { q.user with
        destroyEntityQueue := q.user.destroyEntityQueue ++ destroys } } := by
  rw [← perform_destroys_foldl]
  apply reads_actions Action.destroyEntity hsize
  intro d _ q
  exact (reads_uint32 d.sessionid).bind_pure

variable [LawfulFloatBits F]

theorem reads_createEntities {creates : List (CreateEntityStruct F)} (q : Player F)
    (ascii : ∀ c ∈ creates, IsAscii c.displayName)
    (fits : (Starfall.Buffer.writeCreateEntities creates).length < 2 ^ 31) :
    Reads (createEntity littleEndian q) (Starfall.Buffer.writeCreateEntities creates)
      { q with user := { q.user with
        createEntityQueue := q.user.createEntityQueue ++ creates } } := by
  have pos : ∀ c : CreateEntityStruct F, 0 < (Starfall.Buffer.writeCreateEntity c).length := by
    intro c
    rw [Starfall.Buffer.writeCreateEntity_length]
    omega
  obtain ⟨hcount, heach⟩ := Starfall.Buffer.writeVector_bounds pos creates
  rw [Starfall.Buffer.writeCreateEntities] at fits
  rw [← perform_creates_foldl]
  apply reads_actions Action.createEntity (by omega)
  intro c hc q
  have hc' := heach c hc
  rw [Starfall.Buffer.writeCreateEntity_length] at hc'
  exact (reads_createEntity littleEndian (ascii c hc) (by omega)).bind_pure

theorem reads_transformEntities {transforms : List (TransformEntityStruct F)} (q : Player F)
    (fits : (Starfall.Buffer.writeTransformEntities transforms).length < 2 ^ 31) :
    Reads (transformEntity littleEndian q) (Starfall.Buffer.writeTransformEntities transforms)
      { q with user := { q.user with
        transformEntityQueue := q.user.transformEntityQueue ++ transforms } } := by
  have pos : ∀ t : TransformEntityStruct F,
      0 < (Starfall.Buffer.writeTransformEntity t).length := by
    intro t
    rw [Starfall.Buffer.writeTransformEntity_length]
    omega
  obtain ⟨hcount, heach⟩ := Starfall.Buffer.writeVector_bounds pos transforms
  rw [Starfall.Buffer.writeTransformEntities] at fits
  rw [← perform_transforms_foldl]
  apply reads_actions Action.transformEntity (by omega)
  intro t ht q
  have ht' := heach t ht
  rw [Starfall.Buffer.writeTransformEntity_length] at ht'
  exact (reads_transformEntity littleEndian (by omega)).bind_pure

theorem reads_objectsReply (update : ObjectsUpdateStruct F) (q : Player F)
    (ascii : ∀ c ∈ update.createEntities, IsAscii c.displayName)
    (fits : (Starfall.Buffer.writeObjectsUpdate update).length < 2 ^ 31) :
    Reads (objectsReply littleEndian q) (Starfall.Buffer.writeObjectsUpdate update)
      { q with user := { q.user with
        checkObjectsState := update.state
        createEntityQueue := q.user.createEntityQueue ++ update.createEntities
        destroyEntityQueue := q.user.destroyEntityQueue ++ update.destroyEntities } } := by
  have pos : ∀ d : DestroyEntityStruct, 0 < (Starfall.Buffer.writeDestroyEntity d).length :=
    fun _ => Nat.zero_lt_succ 3
  have hcount := (Starfall.Buffer.writeVector_bounds pos update.destroyEntities).1
  simp only [Starfall.Buffer.writeObjectsUpdate, Starfall.Buffer.writeDestroyEntities,
    List.length_append] at fits
  exact (reads_uint32 _).bind ((reads_createEntities littleEndian _ ascii (by omega)).bind
    (reads_destroyEntities _ (by omega)))

/-- The receive function takes the whole body, and leaves what the packet of the call leaves. -/
theorem callReceive_reads {call : Sent F} (sendable : Sendable call) (q : Player F) :
    Reads (callReceive littleEndian (receiver call.1) q) (Send.body call.1 call.2)
      (received q [call]) := by
  obtain ⟨f, p⟩ := call
  obtain ⟨fits, hname, hpass, ascii⟩ := sendable
  cases f with
  | LoginReply =>
    have h := reads_loginReply q hname hpass fits
    have same : received q [(.LoginReply, p)] = { q with
        login := replace q.login ⟨p.state.toInt32, p.userid, p.usertype,
          Text.ofBytes p.username, Text.ofBytes p.password⟩ } := by
      simp [received, logins, states, creates, transforms, destroys]
    rw [same]
    exact h
  | CreateEntityData =>
    have h := reads_createEntities littleEndian q ascii fits
    have same : received q [(.CreateEntityData, p)] = { q with user := { q.user with
        createEntityQueue := q.user.createEntityQueue ++ p.createEntityQueue } } := by
      simp [received, logins, states, creates, transforms, destroys]
    rw [same]
    exact h
  | TransformEntityData =>
    have h := reads_transformEntities littleEndian q fits
    have same : received q [(.TransformEntityData, p)] = { q with user := { q.user with
        transformEntityQueue := q.user.transformEntityQueue ++ p.transformEntityQueue } } := by
      simp [received, logins, states, creates, transforms, destroys]
    rw [same]
    exact h
  | ObjectsReply =>
    have h := reads_objectsReply littleEndian (Send.objectsUpdate p) q ascii fits
    have same : received q [(.ObjectsReply, p)] = { q with user := { q.user with
        checkObjectsState := p.updateState
        createEntityQueue := q.user.createEntityQueue ++ p.createEntityQueue
        destroyEntityQueue := q.user.destroyEntityQueue ++ p.destroyEntityQueue } } := by
      simp [received, logins, states, creates, transforms, destroys]
    rw [same]
    exact h

/-- A socket that returns all the bytes that are asked for. -/
theorem receive_all (data suffix : List UInt8) :
    receive (data ++ suffix) data.length data.length = .ok (data, suffix) := by
  have room : 0 < data.length ∨ data.length = 0 ∨ data ++ suffix = [] := by omega
  rw [receive, if_pos ⟨Nat.le_refl _, by simp, room⟩, List.take_left, List.drop_left]

omit [FloatBits F] [LawfulFloatBits F] in
theorem reads_head (head : Head) :
    Reads readHead (Starfall.Buffer.writeHead head) (head.begin.toUInt32, head.opcode.toUInt32,
      head.bodysize.toUInt32, head.end_.toUInt32) :=
  (reads_uint32 _).bind ((reads_uint32 _).bind ((reads_uint32 _).bind (reads_uint32 _).bind_pure))

omit [LawfulFloatBits F] in
/-- A packet with the size of its body in its header is taken from the stream, and the receive
function of its opcode gets the body. -/
theorem receivePacket_head {head : Head} {body : List UInt8} {f : ReceiveFunction}
    (size : head.bodysize.toUInt32.toNat = body.length)
    (hmap : receiveMap head.opcode.toUInt32 = some f) (suffix : List UInt8)
    (called : List ReceiveFunction) (q : Player F) :
    receivePacket littleEndian ⟨Starfall.Buffer.writeHead head ++ body ++ suffix, called, q⟩ id id =
      if 2 ^ 31 ≤ body.length then .error .overflow
      else callReceive littleEndian f q (.start body) >>= fun result =>
        .ok ⟨suffix, called ++ [f], result.1⟩ := by
  have received : receive (Starfall.Buffer.writeHead head ++ body ++ suffix) Head.size Head.size =
      .ok (Starfall.Buffer.writeHead head, body ++ suffix) := by
    rw [List.append_assoc]
    exact receive_all (Starfall.Buffer.writeHead head) _
  have fields := (reads_head head).start []
  rw [List.append_nil] at fields
  rw [receivePacket, id, except_bind_of_ok received]
  dsimp only
  rw [if_neg (by decide), except_bind_of_ok fields]
  dsimp only
  rw [size]
  split
  · rfl
  · rw [id, except_bind_of_ok (receive_all body suffix), hmap]
    rfl

omit [LawfulFloatBits F] in
/-- A frame whose receive function reads its body is taken from the stream. -/
theorem receivePacket_frame {frame : Frame} {f : ReceiveFunction} {q q' : Player F}
    (hmap : receiveMap frame.opcode = some f)
    (h : Reads (callReceive littleEndian f q) frame.body q') (suffix : List UInt8)
    (called : List ReceiveFunction) :
    receivePacket littleEndian ⟨frame.bytes ++ suffix, called, q⟩ id id =
      .ok ⟨suffix, called ++ [f], q'⟩ := by
  have fits := frame.fits
  have size : frame.head.bodysize.toUInt32.toNat = frame.body.length :=
    UInt32.toNat_ofNat_of_lt' (by rw [UInt32.size]; omega)
  have body := h.start []
  rw [List.append_nil] at body
  rw [Frame.bytes, receivePacket_head littleEndian size hmap, if_neg (by omega),
    except_bind_of_ok body]

omit [LawfulFloatBits F] in
theorem sendAll_eq {calls : List (Sent F)} (h : ∀ call ∈ calls, Sendable call)
    (queue : List (List UInt8)) : sendAll queue calls = queue ++ sendAll [] calls := by
  induction calls generalizing queue with
  | nil => exact (List.append_nil queue).symm
  | cons call calls ih =>
    obtain ⟨frame, -, -, hqueue⟩ := send_frame (h call List.mem_cons_self).1
    have rest := ih fun c hc => h c (List.mem_cons_of_mem _ hc)
    rw [sendAll, List.foldl_cons, sendAll, List.foldl_cons, hqueue, hqueue]
    show sendAll (queue ++ [frame.bytes]) calls = queue ++ sendAll ([] ++ [frame.bytes]) calls
    rw [rest, rest ([] ++ [frame.bytes]), List.append_assoc, List.nil_append]

/-- The stream of the packets of any calls is received: for each call, the receive function of the
same message was called, and the player is as the packets leave it. -/
theorem receivePackets_stream {calls : List (Sent F)} (h : ∀ call ∈ calls, Sendable call)
    (called : List ReceiveFunction) (q : Player F) :
    receivePackets littleEndian calls.length ⟨(sendAll [] calls).flatten, called, q⟩ =
      .ok ⟨[], called ++ calls.map fun call => receiver call.1, received q calls⟩ := by
  induction calls generalizing called q with
  | nil => simp [receivePackets, sendAll, received, pure, Except.pure]
  | cons call calls ih =>
    have sendable := h call List.mem_cons_self
    obtain ⟨frame, hbody, hmap, hqueue⟩ := send_frame sendable.1
    have rest := sendAll_eq (fun c hc => h c (List.mem_cons_of_mem _ hc)) [frame.bytes]
    have stream : (sendAll [] (call :: calls)).flatten =
        frame.bytes ++ (sendAll [] calls).flatten := by
      rw [sendAll, List.foldl_cons, hqueue]
      show (sendAll [frame.bytes] calls).flatten = _
      rw [rest]
      rfl
    have first := callReceive_reads littleEndian sendable q
    rw [← hbody] at first
    rw [stream, List.length_cons, receivePackets,
      except_bind_of_ok (receivePacket_frame littleEndian hmap first _ called),
      ih fun c hc => h c (List.mem_cons_of_mem _ hc), received_cons, List.map_cons,
      List.append_assoc]
    rfl

end Functions

/-- Whatever the server sends with the functions of `Send`, the client calls for each packet the
receive function of the same message, in order.  The creates, the destroys and the transforms of the
packets stand behind those of the player's queues, in the order in which they were sent, and each
login reply replaced the login when its userid was another one. -/
theorem stream_understood (littleEndian : Bool) {calls : List (Sent UInt32)}
    (h : ∀ call ∈ calls, Sendable call) (q : Player UInt32) :
    ∃ c, receivePackets littleEndian calls.length ⟨(sendAll [] calls).flatten, [], q⟩ = .ok c ∧
      c.unread = [] ∧
      c.called = (calls.map fun call => receiver call.1) ∧
      c.player.login = (calls.flatMap logins).foldl replace q.login ∧
      c.player.user.createEntityQueue = q.user.createEntityQueue ++ calls.flatMap creates ∧
      c.player.user.destroyEntityQueue = q.user.destroyEntityQueue ++ calls.flatMap destroys ∧
      c.player.user.transformEntityQueue = q.user.transformEntityQueue ++ calls.flatMap transforms ∧
      c.player.user.checkObjectsState =
        (calls.flatMap states).getLastD q.user.checkObjectsState :=
  ⟨_, receivePackets_stream littleEndian h [] q, rfl, rfl, rfl, rfl, rfl, rfl, rfl⟩

/-- A server player that tried to log in as root and was refused, with one entity to create. -/
def refusedPlayer : Starfall.Player UInt32 where
  sendQueue := []
  destroyEntityQueue := []
  createEntityQueue := [⟨⟨⟨0, 0, 0⟩, ⟨0, 0, 0, 0⟩⟩, 7, 2, [65]⟩]
  transformEntityQueue := []
  state := LOGIN_STATE_LOGGING_IN
  userid := 0
  usertype := 0
  username := [114, 111, 111, 116]
  password := []
  updateState := 1
  farClipDistance := 0
  pEntity := ⟨⟨⟨0, 0, 0⟩, ⟨0, 0, 0, 0⟩⟩, [], 2, 1, []⟩

def loadingPlayer : Player UInt32 where
  user := ⟨0, 0, [], [], []⟩
  login := ⟨0, 0, 0, [], []⟩
  sendQueue := []
  consoleQueue := []
  objectsQueue := []
  transformPlayerStruct := ⟨0, []⟩

theorem refused_understood : ∃ c, receivePackets true 2
    ⟨(sendAll [] [(.LoginReply, refusedPlayer), (.ObjectsReply, refusedPlayer)]).flatten, [],
      loadingPlayer⟩ = .ok c ∧ c.called = [.LoginReply, .ObjectsReply] ∧
    c.player.user.createEntityQueue = refusedPlayer.createEntityQueue := by
  have sendable : ∀ call ∈ [(Send.SendFunction.LoginReply, refusedPlayer),
      (.ObjectsReply, refusedPlayer)], Sendable call := by
    intro call hcall
    rcases List.mem_cons.mp hcall with rfl | hcall
    · exact ⟨by decide, by decide, by decide, by decide⟩
    · rw [List.mem_singleton.mp hcall]
      exact ⟨by decide, by decide, by decide, by decide⟩
  obtain ⟨c, hc, -, hcalled, -, hcreates, -⟩ := stream_understood true sendable loadingPlayer
  exact ⟨c, hc, hcalled, hcreates.trans rfl⟩

/-- A reply to a player who has the userid of the reply leaves the fields of the login as they are,
though they are not those of the reply. -/
theorem sameUserid_ignored : ∃ (call : Sent UInt32) (q : Player UInt32) (c : GameClient UInt32),
    Sendable call ∧ call.1 = .LoginReply ∧
      receivePackets true 1 ⟨(sendAll [] [call]).flatten, [], q⟩ = .ok c ∧
      c.called = [.LoginReply] ∧ [c.player.login] ≠ logins call := by
  have sendable : Sendable (Send.SendFunction.LoginReply, refusedPlayer) :=
    ⟨by decide, by decide, by decide, by decide⟩
  refine ⟨(.LoginReply, refusedPlayer), loadingPlayer, _, sendable, rfl,
    receivePackets_stream true (List.forall_mem_singleton.mpr sendable) [] loadingPlayer, rfl, ?_⟩
  decide

end Starfall.Unity.GameClient
