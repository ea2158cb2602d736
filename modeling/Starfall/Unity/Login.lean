import Starfall.NativeClient.Login
import Starfall.Unity.FromServer
import Starfall.Unity.ToServer

/-! The login of the Unity client.  The server replies to a login that it refuses too, and with the
state that the client sent, but a reply with the userid that the client already has leaves its
state as it is.  A new client has the userid 0, as its player at the server has, and `TryLogin`
succeeds only with another one. -/

namespace Starfall.Unity

open ProofKit.Reading ProofKit.Runs GameClient Unity.Buffer

variable {F : Type}

/-- A name in the `loadLevelQueue`. -/
inductive Level
  | WorldScene
  | LoginScene
  deriving DecidableEq, Repr

namespace Player

/-- `OnState`, with the levels that it puts into the `loadLevelQueue`. -/
def onState (p : Player F) : Player F × List Level :=
  if p.login.state = 1 then ({ p with login := { p.login with state := 2 } }, [.WorldScene])
  else if p.login.state = 3 then
    ({ p with login := { p.login with state := 0 }, sendQueue := [] }, [.LoginScene])
  else (p, [])

def logout (p : Player F) : Player F × List Level :=
  onState { p with login := { p.login with state := 3 } }

theorem onState_of_zero {p : Player F} (h : p.login.state = 0) : p.onState = (p, []) := by
  rw [onState, h, if_neg (by decide), if_neg (by decide)]

theorem logout_eq (p : Player F) : p.logout =
    ({ p with login := { p.login with state := 0 }, sendQueue := [] }, [.LoginScene]) := rfl

end Player

/-- A `GameClient` with its connection.  What the server has sent is what its socket has not
delivered. -/
structure Entrance (F : Type) where
  client : GameClient F
  /-- The `tcpClient` was not closed. -/
  isOpen : Bool
  /-- `Init` is in its `ReceivePacket`. -/
  waiting : Bool
  /-- All the levels that were ever put into the `loadLevelQueue`. -/
  levels : List Level
  toServer : List (List UInt8)
  session : Receive.Session F
  /-- The logins for which `TryLogin` succeeded. -/
  accepted : List Starfall.LoginStruct

/-- How an `Init` gets on: `Connect` throws, the client is not connected, the packet is not sent, or
it is. -/
inductive Attempt
  | refused
  | notConnected
  | notSent
  | sent
  deriving DecidableEq, Repr

inductive EntranceEvent (F : Type)
  | init (user password : Text) (attempt : Attempt)
  /-- `LoginData` handles the oldest packet, with the table `LOGIN`, the entity map and the console
  as it finds them. -/
  | handle (rows : List LoginRow) (entities : EntityMap F) (print : Str → Receive.Printed)
  /-- The `ReceivePacket` of `Init` takes a packet, or the end of the stream, and `Init` goes on. -/
  | reply (ended : Bool)
  /-- The `ReceivePacket` of `Init` throws a `SocketException`. -/
  | noReply
  /-- The thread that the world starts receives a packet. -/
  | receive
  /-- A packet of the world cannot be sent. -/
  | logout

namespace Entrance

/-- The entrance after what its player does, with the levels that it put. -/
def after (s : Entrance F) (result : Player F × List Level) : Entrance F :=
  { s with
    client := { s.client with player := result.1 }
    levels := s.levels ++ result.2
    isOpen := s.isOpen && .LoginScene ∉ result.2 }

variable [FloatBits F] [Add F] [Sub F] [Mul F] [LE F] [DecidableLE F] (littleEndian : Bool)

/-- `Init`, up to its `ReceivePacket`. -/
def init (s : Entrance F) (user password : Text) (attempt : Attempt) : Option (Entrance F) :=
  let p := { s.client.player with
    login := { s.client.player.login with username := user, password } }
  if user = [] ∨ password = [] then
    some s
  else
    match attempt with
    | .refused => some s
    | .notConnected => some (s.after p.onState)
    | .notSent => some (s.after p.logout)
    | .sent => do
      let p ← enqueue littleEndian p .LoginData
      some { s with
        client := { s.client with player := { p with sendQueue := [] } }
        toServer := s.toServer ++ p.sendQueue
        waiting := true }

/-- The entrance after an event, if it can happen. -/
def next (s : Entrance F) : EntranceEvent F → Option (Entrance F)
  | .init user password attempt =>
    if s.isOpen ∧ ¬s.waiting then s.init littleEndian user password attempt else none
  | .handle rows entities print =>
    match s.toServer with
    | packet :: toServer =>
      match Receive.deliver ⟨rows, entities, print⟩ s.session packet with
      | .ok (_, session) => some { s with
          toServer, session := { session with sent := [] }
          client := { s.client with unread := s.client.unread ++ session.sent.flatten }
          accepted := s.accepted ++
            (NativeClient.loginOf packet).toList.filter
              (NativeClient.Accepts rows s.session.player) }
      | .error _ => none
    | [] => none
  | .reply ended =>
    if s.isOpen ∧ s.waiting then
      match receivePacket littleEndian s.client (if ended then fun _ => 0 else id) id with
      | .ok client => some ({ s with client, waiting := false }.after client.player.onState)
      | .error _ => none
    else none
  | .noReply => if s.waiting then some { s with waiting := false } else none
  | .receive =>
    if s.isOpen ∧ .WorldScene ∈ s.levels then
      match receivePacket littleEndian s.client id id with
      | .ok client => some { s with client }
      | .error _ => none
    else none
  | .logout =>
    if s.isOpen ∧ .WorldScene ∈ s.levels then some (s.after s.client.player.logout) else none

end Entrance

section Steps

variable [FloatBits F] [Add F] [Sub F] [Mul F] [LE F] [DecidableLE F] (littleEndian : Bool)

/-- A new client, and the connection of its socket. -/
def entrance : System (Entrance F) (EntranceEvent F) where
  init s := s.client.unread = [] ∧ s.client.player.login = ⟨0, 0, 0, [], []⟩ ∧
    s.client.player.sendQueue = [] ∧ s.levels = [] ∧ s.toServer = [] ∧ s.accepted = [] ∧
    ∃ transform sessionid, s.session = Receive.Session.open transform sessionid
  step s e s' := s.next littleEndian e = some s'

end Steps

/-- A login with credentials that the client sent. -/
def SentLogin (es : List (EntranceEvent F)) (l : Starfall.LoginStruct) : Prop :=
  ∃ user password, .init user password .sent ∈ es ∧ l.username = user.getBytes ∧
    l.password = password.getBytes

/-- The server has accepted credentials that the client sent. -/
def Admitted (es : List (EntranceEvent F)) (s : Entrance F) : Prop :=
  ∃ l ∈ s.accepted, SentLogin es l ∧
    ∃ rows entities print, .handle rows entities print ∈ es ∧ (tryLogin rows l).isSome

theorem SentLogin.mono {es : List (EntranceEvent F)} {l : Starfall.LoginStruct}
    (h : SentLogin es l) (e : EntranceEvent F) : SentLogin (es ++ [e]) l := by
  obtain ⟨user, password, hmem, hcredentials⟩ := h
  exact ⟨user, password, List.mem_append_left _ hmem, hcredentials⟩

theorem Admitted.mono {es : List (EntranceEvent F)} {s s' : Entrance F} (h : Admitted es s)
    (e : EntranceEvent F) (haccepted : s.accepted ⊆ s'.accepted) : Admitted (es ++ [e]) s' := by
  obtain ⟨l, hl, hsent, rows, entities, print, hmem, haccepts⟩ := h
  exact ⟨l, haccepted hl, hsent.mono e, rows, entities, print, List.mem_append_left _ hmem,
    haccepts⟩

section Reading

variable [FloatBits F] (littleEndian : Bool)

def SameLogin (p q : Player F) : Prop := q.login = p.login ∧ q.sendQueue = p.sendQueue

theorem readLogin_userid {l : Starfall.LoginStruct} {login : LoginStruct} {c : Cursor UInt8}
    (h : readLogin (.start (Starfall.Buffer.writeLoginStruct l)) = .ok (login, c)) :
    login.userid = l.userid := by
  obtain ⟨state, c1, hstate, h⟩ := bind_eq_ok h
  obtain ⟨userid, c2, huserid, h⟩ := bind_eq_ok h
  obtain ⟨usertype, c3, -, h⟩ := bind_eq_ok h
  obtain ⟨username, c4, -, h⟩ := bind_eq_ok h
  obtain ⟨password, c5, -, h⟩ := bind_eq_ok h
  cases h
  have first := reads_uint32 l.state (.start (Starfall.Buffer.writeLoginStruct l)) _ rfl
  rw [hstate] at first
  cases first
  have second := reads_uint32 l.userid
    ((Cursor.start (Starfall.Buffer.writeLoginStruct l)).advance 4) _ rfl
  cases huserid.symm.trans second
  rfl

omit [FloatBits F] in
theorem loginReply_login {l : Starfall.LoginStruct} {p q : Player F} {c : Cursor UInt8}
    (huser : l.userid = p.login.userid)
    (h : loginReply p (.start (Starfall.Buffer.writeLoginStruct l)) = .ok (q, c)) :
    SameLogin p q := by
  obtain ⟨login, mid, hread, h⟩ := bind_eq_ok h
  rw [readLogin_userid hread, huser] at h
  rw [if_neg (not_not.mpr rfl)] at h
  cases h
  exact ⟨rfl, rfl⟩

theorem createEntity_login {p q : Player F} {c c' : Cursor UInt8}
    (h : createEntity littleEndian p c = .ok (q, c')) : SameLogin p q := by
  obtain ⟨length, mid, -, h⟩ := bind_eq_ok h
  refine repeatUpdate_preserves (I := SameLogin p) ?_ ⟨rfl, rfl⟩ h
  rintro q c q' c' ⟨hlogin, hqueue⟩ hstep
  obtain ⟨record, mid, -, hstep⟩ := bind_eq_ok hstep
  cases hstep
  exact ⟨hlogin, hqueue⟩

/-- A packet that a client with the userid 0 receives without a change of its login. -/
def Harmless (packet : List UInt8) : Prop :=
  ∃ head body f, packet = Starfall.Buffer.writeHead head ++ body ∧
    head.bodysize.toUInt32.toNat = body.length ∧ receiveMap head.opcode.toUInt32 = some f ∧
    ∀ (p q : Player F) (c : Cursor UInt8), p.login.userid = 0 →
      callReceive littleEndian f p (.start body) = .ok (q, c) → SameLogin p q

theorem harmless_loginReply {l : Starfall.LoginStruct} (huser : l.userid = 0)
    (fits : (Starfall.Buffer.writeLoginStruct l).length < 2 ^ 32) :
    Harmless (F := F) littleEndian (Starfall.Buffer.writeHead ⟨-1, (0x10000001 : UInt32).toInt32,
      (UInt32.ofNat (Starfall.Buffer.writeLoginStruct l).length).toInt32, -1⟩ ++
      Starfall.Buffer.writeLoginStruct l) := by
  refine ⟨_, _, .LoginReply, rfl, UInt32.toNat_ofNat_of_lt' fits, rfl, ?_⟩
  intro p q c hp h
  exact loginReply_login (huser.trans hp.symm) h

theorem harmless_createEntities {creates : List (CreateEntityStruct F)}
    (fits : (Starfall.Buffer.writeCreateEntities creates).length < 2 ^ 32) :
    Harmless (F := F) littleEndian (Starfall.Buffer.writeHead ⟨-1, (0x10000003 : UInt32).toInt32,
      (UInt32.ofNat (Starfall.Buffer.writeCreateEntities creates).length).toInt32, -1⟩ ++
      Starfall.Buffer.writeCreateEntities creates) := by
  refine ⟨_, _, .CreateEntity, rfl, UInt32.toNat_ofNat_of_lt' fits, rfl, ?_⟩
  intro p q c _ h
  exact createEntity_login littleEndian h

theorem Harmless.received {packet suffix : List UInt8} {c c' : GameClient F}
    (h : Harmless (F := F) littleEndian packet) (hunread : c.unread = packet ++ suffix)
    (huser : c.player.login.userid = 0)
    (hreceive : receivePacket littleEndian c id id = .ok c') :
    c'.unread = suffix ∧ SameLogin c.player c'.player := by
  obtain ⟨head, body, f, rfl, size, hmap, hharmless⟩ := h
  obtain ⟨unread, called, p⟩ := c
  dsimp only at hunread
  subst hunread
  rw [receivePacket_head littleEndian size hmap] at hreceive
  split at hreceive
  · cases hreceive
  · obtain ⟨⟨q, mid⟩, hcall, hreceive⟩ := except_bind_eq_ok hreceive
    cases hreceive
    exact ⟨rfl, hharmless p q mid huser hcall⟩

end Reading

section Sending

variable [FloatBits F] (littleEndian : Bool)

/-- A new player at the server, between two packets. -/
structure Refused (s : Receive.Session F) : Prop where
  userid : s.player.userid = 0
  queue : s.player.createEntityQueue = []
  sendQueue : s.player.sendQueue = []
  sent : s.sent = []

theorem login_refused {rows : List LoginRow} {p : Starfall.Player F} {l : Starfall.LoginStruct}
    (hrefused : tryLogin rows l = none) (huser : p.userid = 0) (hqueue : p.createEntityQueue = [])
    (hfits : (Starfall.Buffer.writeLoginStruct l).length < 2 ^ 31) :
    ∃ reply create, (Receive.login rows p l).2.sendQueue = p.sendQueue ++ [reply, create] ∧
      (Receive.login rows p l).2.userid = 0 ∧ (Receive.login rows p l).2.createEntityQueue = [] ∧
      Harmless (F := F) littleEndian reply ∧ Harmless (F := F) littleEndian create := by
  rw [Starfall.Buffer.writeLoginStruct_length] at hfits
  have hreply :
      (Starfall.Buffer.writeLoginStruct { l with userid := p.userid }).length < 2 ^ 32 := by
    rw [Starfall.Buffer.writeLoginStruct_length]
    dsimp only
    omega
  have hreplied : ({ l with userid := p.userid } : Starfall.LoginStruct).userid = 0 := huser
  have hcreate : (Starfall.Buffer.writeCreateEntities [Entity.castCreateEntityStruct
      { p.pEntity with displayName := l.username }]).length < 2 ^ 32 := by
    simp only [Starfall.Buffer.writeCreateEntities, Starfall.Buffer.writeVector,
      List.length_append, Starfall.Buffer.writeUInt32_length, List.flatMap_singleton,
      Starfall.Buffer.writeCreateEntity_length, Entity.castCreateEntityStruct]
    omega
  unfold Receive.login
  rw [hrefused]
  refine ⟨_, _, ?_, huser, rfl, harmless_loginReply littleEndian hreplied hreply,
    harmless_createEntities littleEndian hcreate⟩
  simp only [Send.loginReply, Send.createEntityData, Send.enqueue, Send.map, hqueue,
    List.nil_append, List.append_assoc, List.singleton_append]
  rfl

variable [Add F] [Sub F] [Mul F] [LE F] [DecidableLE F]

/-- The packets of a refused login are harmless, and leave the player as new as it was. -/
theorem deliver_refused {server : Receive.Server F} {s s' : Receive.Session F}
    {l : Starfall.LoginStruct} {outcome : Receive.Outcome}
    (h : Receive.deliver server s (NativeClient.loginPacket l) = .ok (outcome, s'))
    (refused : Refused s) (hrefused : tryLogin server.login l = none) (huser : l.userid = 0)
    (hfits : (Starfall.Buffer.writeLoginStruct l).length < 2 ^ 31) :
    Refused { s' with sent := [] } ∧ ∀ packet ∈ s'.sent, Harmless (F := F) littleEndian packet := by
  obtain ⟨reply, create, hsent, huserid, hqueue, hreply, hcreate⟩ :=
    login_refused littleEndian hrefused refused.userid refused.queue hfits
  obtain ⟨dump, hdeliver⟩ :=
    Receive.deliver_frame server s ⟨-1, 1, -1, Starfall.Buffer.writeLoginStruct l, hfits⟩
  have hmap : Receive.map (1 : UInt32).toInt32.toUInt32 = some .LoginData := rfl
  replace h := hdeliver.symm.trans h
  rw [Receive.dispatch, Frame.head, hmap] at h
  obtain ⟨⟨o, mid⟩, hcall, h⟩ := except_bind_eq_ok h
  obtain ⟨⟨packet, d⟩, hread, hcall⟩ := except_bind_eq_ok hcall
  dsimp only at hcall
  rw [Starfall.Buffer.readLoginStruct_eq hread, if_neg (by rw [refused.userid, huser]; simp)]
    at hcall
  cases hcall
  cases h
  refine ⟨⟨huserid, hqueue, rfl, rfl⟩, fun packet hpacket => ?_⟩
  rw [Receive.Session.flush, refused.sent, hsent, refused.sendQueue] at hpacket
  rcases List.mem_cons.mp hpacket with rfl | hpacket
  · exact hreply
  · rw [List.mem_singleton.mp hpacket]
    exact hcreate

end Sending

section Runs

variable [FloatBits F] (littleEndian : Bool)

/-- A client that the server does not know: both have the userid 0, and all that is under way to the
client is harmless. -/
structure Outside (es : List (EntranceEvent F)) (s : Entrance F) : Prop where
  state : s.client.player.login.state = 0
  userid : s.client.player.login.userid = 0
  sendQueue : s.client.player.sendQueue = []
  levels : .WorldScene ∉ s.levels
  unread : ∃ packets : List (List UInt8), s.client.unread = packets.flatten ∧
    ∀ packet ∈ packets, Harmless (F := F) littleEndian packet
  toServer : ∀ packet ∈ s.toServer, ∃ l, packet = NativeClient.loginPacket l ∧ SentLogin es l ∧
    l.userid = 0 ∧ (Starfall.Buffer.writeLoginStruct l).length < 2 ^ 31
  refused : Refused s.session

variable {littleEndian} {es : List (EntranceEvent F)} {s : Entrance F}

theorem Outside.mono (h : Outside littleEndian es s) (e : EntranceEvent F) :
    Outside littleEndian (es ++ [e]) s where
  state := h.state
  userid := h.userid
  sendQueue := h.sendQueue
  levels := h.levels
  unread := h.unread
  toServer packet hpacket := by
    obtain ⟨l, rfl, hsent, hl⟩ := h.toServer packet hpacket
    exact ⟨l, rfl, hsent.mono e, hl⟩
  refused := h.refused

theorem Outside.received (h : Outside littleEndian es s) {client : GameClient F}
    (hreceive : receivePacket littleEndian s.client id id = .ok client) :
    Outside littleEndian es { s with client } := by
  obtain ⟨packets, hunread, hharmless⟩ := h.unread
  cases packets with
  | nil =>
    rw [receivePacket, hunread] at hreceive
    cases hreceive
  | cons packet packets =>
    obtain ⟨hrest, hlogin, hqueue⟩ := (hharmless packet List.mem_cons_self).received littleEndian
      hunread h.userid hreceive
    refine { h with
      state := ?_, userid := ?_, sendQueue := ?_
      unread := ⟨packets, hrest, fun p hp => hharmless p (List.mem_cons_of_mem _ hp)⟩ }
    · exact (congrArg LoginStruct.state hlogin).trans h.state
    · exact (congrArg LoginStruct.userid hlogin).trans h.userid
    · exact hqueue.trans h.sendQueue

theorem receivePacket_end {c client : GameClient F}
    (h : receivePacket littleEndian c (fun _ => 0) id = .ok client) : client = c := by
  obtain ⟨⟨received, unread⟩, hreceive, h⟩ := except_bind_eq_ok h
  dsimp only at h
  rw [if_pos rfl] at h
  cases h
  unfold receive at hreceive
  split at hreceive
  · cases hreceive
    rfl
  · cases hreceive

/-- `OnState` has nothing to do. -/
theorem Outside.onState (h : Outside littleEndian es s) :
    Outside littleEndian es (s.after s.client.player.onState) := by
  rw [Player.onState_of_zero h.state]
  refine { h with levels := ?_ }
  rw [Entrance.after, List.append_nil]
  exact h.levels

/-- An `Init` sends a login with the userid 0. -/
theorem Outside.init (h : Outside littleEndian es s) {user password : Text} {attempt : Attempt}
    {s' : Entrance F} (step : s.init littleEndian user password attempt = some s') :
    Outside littleEndian (es ++ [.init user password attempt]) s' := by
  have old := h.mono (.init user password attempt)
  simp only [Entrance.init] at step
  split at step
  · cases step
    exact old
  cases attempt with
  | refused =>
    cases step
    exact old
  | notConnected =>
    cases step
    rw [Player.onState_of_zero (by exact h.state)]
    refine { old with state := h.state, userid := h.userid, levels := ?_ }
    rw [Entrance.after, List.append_nil]
    exact h.levels
  | notSent =>
    cases step
    rw [Player.logout_eq]
    refine { old with state := rfl, userid := h.userid, sendQueue := rfl, levels := ?_ }
    simpa [Entrance.after] using h.levels
  | sent =>
    obtain ⟨p, hqueued, step⟩ := Option.bind_eq_some_iff.mp step
    cases step
    have room := enqueue_room littleEndian hqueued
    rw [enqueue_defined littleEndian room] at hqueued
    cases hqueued
    refine { old with
      state := h.state, userid := h.userid, sendQueue := rfl
      toServer := fun packet hpacket => ?_ }
    rw [List.mem_append] at hpacket
    rcases hpacket with hpacket | hpacket
    · exact old.toServer packet hpacket
    · rw [h.sendQueue, List.nil_append] at hpacket
      refine ⟨_, List.mem_singleton.mp hpacket, ⟨user, password, by simp, rfl, rfl⟩, h.userid, ?_⟩
      exact Nat.lt_of_le_of_lt (Nat.le_add_left _ 20) room

variable [Add F] [Sub F] [Mul F] [LE F] [DecidableLE F]

/-- A login that is refused leaves the client outside, and one that is accepted admits it. -/
theorem Outside.handle (h : Outside littleEndian es s) {rows : List LoginRow}
    {entities : EntityMap F} {print : Str → Receive.Printed} {s' : Entrance F}
    (step : s.next littleEndian (.handle rows entities print) = some s') :
    Outside littleEndian (es ++ [.handle rows entities print]) s' ∨
      Admitted (es ++ [.handle rows entities print]) s' := by
  have old := h.mono (.handle rows entities print)
  simp only [Entrance.next] at step
  split at step
  · rename_i packet toServer hserver
    split at step
    · rename_i outcome session hdeliver
      cases step
      obtain ⟨l, rfl, hsent, huserid, hfits⟩ := old.toServer packet (by rw [hserver]; simp)
      have hlogin := (NativeClient.deliver_loginPacket hdeliver h.refused.sendQueue).1
      cases haccepts : tryLogin rows l with
      | none =>
        obtain ⟨hrefused, hharmless⟩ :=
          deliver_refused littleEndian hdeliver h.refused haccepts huserid hfits
        obtain ⟨packets, hunread, hpackets⟩ := h.unread
        refine .inl { old with
          unread := ⟨packets ++ session.sent, by rw [hunread, List.flatten_append], ?_⟩
          toServer := fun packet hpacket => old.toServer packet ?_
          refused := hrefused }
        · exact fun packet hpacket =>
            (List.mem_append.mp hpacket).elim (hpackets packet) (hharmless packet)
        · rw [hserver]
          exact List.mem_cons_of_mem _ hpacket
      | some login =>
        have hsome : (tryLogin rows l).isSome := by rw [haccepts]; rfl
        have haccepted : NativeClient.Accepts rows s.session.player l :=
          ⟨h.refused.userid.trans huserid.symm, hsome⟩
        refine .inr ⟨l, ?_, hsent, rows, entities, print, by simp, hsome⟩
        rw [hlogin]
        exact List.mem_append_right _
          (List.mem_filter.mpr ⟨List.mem_singleton_self l, decide_eq_true haccepted⟩)
    · cases step
  · cases step

theorem Outside.step (h : Outside littleEndian es s) {e : EntranceEvent F} {s' : Entrance F}
    (step : s.next littleEndian e = some s') :
    Outside littleEndian (es ++ [e]) s' ∨ Admitted (es ++ [e]) s' := by
  have old := h.mono e
  cases e with
  | init user password attempt =>
    simp only [Entrance.next] at step
    split at step
    · exact .inl (h.init step)
    · cases step
  | handle rows entities print => exact h.handle step
  | reply ended =>
    simp only [Entrance.next] at step
    split at step
    · split at step
      · rename_i client hreceive
        cases step
        cases ended with
        | true =>
          have hend : client = s.client := receivePacket_end hreceive
          rw [hend]
          exact .inl (Outside.onState { old with })
        | false =>
          exact .inl (Outside.onState { old.received hreceive with })
      · cases step
    · cases step
  | noReply =>
    simp only [Entrance.next] at step
    split at step
    · cases step
      exact .inl { old with }
    · cases step
  | receive =>
    simp only [Entrance.next] at step
    split at step
    · rename_i hworld
      exact absurd hworld.2 h.levels
    · cases step
  | logout =>
    simp only [Entrance.next] at step
    split at step
    · rename_i hworld
      exact absurd hworld.2 h.levels
    · cases step

omit [Add F] [Sub F] [Mul F] [LE F] [DecidableLE F] in
theorem init_accepted {user password : Text} {attempt : Attempt} {s' : Entrance F}
    (step : s.init littleEndian user password attempt = some s') : s'.accepted = s.accepted := by
  simp only [Entrance.init] at step
  split at step
  · cases step
    rfl
  cases attempt with
  | refused =>
    cases step
    rfl
  | notConnected =>
    cases step
    rfl
  | notSent =>
    cases step
    rfl
  | sent =>
    obtain ⟨p, -, step⟩ := Option.bind_eq_some_iff.mp step
    cases step
    rfl

/-- What was accepted stays accepted. -/
theorem next_accepted {e : EntranceEvent F} {s' : Entrance F}
    (step : s.next littleEndian e = some s') : s.accepted ⊆ s'.accepted := by
  cases e with
  | init user password attempt =>
    simp only [Entrance.next] at step
    split at step
    · rw [init_accepted step]
      exact List.Subset.refl _
    · cases step
  | handle rows entities print =>
    simp only [Entrance.next] at step
    split at step
    · split at step
      · cases step
        exact List.subset_append_left _ _
      · cases step
    · cases step
  | reply ended =>
    simp only [Entrance.next] at step
    split at step
    · split at step
      · cases step
        exact List.Subset.refl _
      · cases step
    · cases step
  | noReply =>
    simp only [Entrance.next] at step
    split at step
    · cases step
      exact List.Subset.refl _
    · cases step
  | receive =>
    simp only [Entrance.next] at step
    split at step
    · split at step
      · cases step
        exact List.Subset.refl _
      · cases step
    · cases step
  | logout =>
    simp only [Entrance.next] at step
    split at step
    · cases step
      exact List.Subset.refl _
    · cases step

/-- In every run, a client whose login is in one of the states 1 and 2, or that has ever put
`WorldScene` into its queue, has sent credentials that the server accepted. -/
theorem entered_accepted (littleEndian : Bool) (es : List (EntranceEvent F)) (s : Entrance F)
    (run : (entrance littleEndian).Run es s)
    (entered : s.client.player.login.state = 1 ∨ s.client.player.login.state = 2 ∨
      .WorldScene ∈ s.levels) : Admitted es s := by
  have h : Outside littleEndian es s ∨ Admitted es s := by
    refine run.invariant (I := fun es s => Outside littleEndian es s ∨ Admitted es s) ?_ ?_
    · rintro s ⟨hunread, hlogin, hqueue, hlevels, hserver, -, transform, sessionid, hsession⟩
      refine .inl ⟨by rw [hlogin], by rw [hlogin], hqueue, by simp [hlevels], ⟨[], hunread, nofun⟩,
        by simp [hserver], ?_⟩
      rw [hsession]
      exact ⟨rfl, rfl, rfl, rfl⟩
    · intro es s e s' _ h step
      rcases h with h | h
      · exact h.step step
      · exact .inr (h.mono e (next_accepted step))
  rcases h with h | h
  · rcases entered with hstate | hstate | hworld
    · exact absurd (h.state.symm.trans hstate) (by decide)
    · exact absurd (h.state.symm.trans hstate) (by decide)
    · exact absurd hworld h.levels
  · exact h

end Runs

/-- The events of a login as root, with the password `p`. -/
def rootEntry : List (EntranceEvent UInt32) :=
  [.init [114, 111, 111, 116] [112] .sent,
    .handle [⟨7, 0, Str.ofString "root", Str.ofString "p"⟩] ⟨[], List.nodup_nil⟩ .printed,
    .reply false]

def newEntrance : Entrance UInt32 where
  client := ⟨[], [], loadingPlayer⟩
  isOpen := true
  waiting := false
  levels := []
  toServer := []
  session := .open ⟨⟨0, 0, 0⟩, ⟨0, 0, 0, 0⟩⟩ 1
  accepted := []

theorem rootEntry_admitted : ∃ s, (entrance true).Run rootEntry s ∧
    s.client.player.login.state = 2 ∧ Admitted rootEntry s := by
  have start : (entrance true).Run [] newEntrance :=
    .nil ⟨rfl, rfl, rfl, rfl, rfl, rfl, _, _, rfl⟩
  have ended : (System.exec (Entrance.next true) newEntrance rootEntry).any
      (fun s => s.client.player.login.state = 2) = true := by decide +kernel
  obtain ⟨s, hexec, hs⟩ := (Option.any_eq_true _ _).mp ended
  have hstate := of_decide_eq_true hs
  have run := start.of_exec (fun _ _ _ h => h) hexec
  exact ⟨s, run, hstate, entered_accepted true _ _ run (.inr (.inl hstate))⟩

end Starfall.Unity
