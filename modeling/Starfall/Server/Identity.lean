import Starfall.Server.Connection

/-! Session identity.  `LoginData` takes the state, the usertype and the credentials of the packet
before it asks the database, and the display name after it, whether or not the login succeeded.  So
the identity of a player is granted by the database only as long as no such packet gets past the
check of its userid. -/

namespace Starfall.Receive

open Buffer ProofKit.Reading ProofKit.Runs

variable {F : Type}

/-- `a` is a packet for `LoginData` that decodes to `packet`. -/
def Arrival.IsLogin (a : Arrival F) (packet : LoginStruct) : Prop :=
  map a.head.value.opcode.toUInt32 = some .LoginData ∧
    ∃ dump c, readLoginStruct (.start a.body) = .ok (⟨packet, dump⟩, c)

/-- The player is not logged in, and has the display name of a new player. -/
def NotLoggedIn (p : Player F) : Prop :=
  p.userid = 0 ∧ p.usertype = 0 ∧ p.state = LOGIN_STATE_NOT_LOGGED_IN ∧
    p.pEntity.displayName = Player.initialName

/-- The userid, usertype and credentials of the player as a row of the table `LOGIN`. -/
def identity (p : Player F) : LoginRow := ⟨p.userid, p.usertype, p.username, p.password⟩

/-- The identity of the player is a row of the table that matches the credentials of one of the
packets. -/
def LoggedIn (rows : List LoginRow) (as : List (Arrival F)) (p : Player F) : Prop :=
  identity p ∈ rows ∧ ∃ a ∈ as, ∃ packet, a.IsLogin packet ∧ packet.username = p.username ∧
    packet.password = p.password

/-- The identity of the player after the packets `as` is granted by the database. -/
def Granted (rows : List LoginRow) (as : List (Arrival F)) (s : Session F) : Prop :=
  NotLoggedIn s.player ∨ LoggedIn rows as s.player

/-- A login packet that gets past the check of its userid succeeds, or gives the player only what is
in the table, or gives it only what a new player has. -/
def Permitted (rows : List LoginRow) (s : Session F) (a : Arrival F) : Prop :=
  ∀ packet, a.IsLogin packet → packet.userid = s.player.userid →
    (tryLogin rows packet).isSome ∨
    ⟨packet.userid, packet.usertype, packet.username, packet.password⟩ ∈ rows ∨
    packet.userid = 0 ∧ packet.usertype = 0 ∧ packet.state = LOGIN_STATE_NOT_LOGGED_IN ∧
      packet.username = Player.initialName

/-- The login that a packet leaves when it gets past the check of its userid. -/
def loginResult (rows : List LoginRow) (packet : LoginStruct) : LoginStruct :=
  match tryLogin rows packet with
  | some loginStruct => { loginStruct with state := LOGIN_STATE_LOGGING_IN }
  | none => packet

theorem loginResult_username (rows : List LoginRow) (packet : LoginStruct) :
    (loginResult rows packet).username = packet.username := by
  unfold loginResult
  split
  · rename_i h
    exact (tryLogin_row h).1
  · rfl

theorem loginResult_password (rows : List LoginRow) (packet : LoginStruct) :
    (loginResult rows packet).password = packet.password := by
  unfold loginResult
  split
  · rename_i h
    exact (tryLogin_row h).2.1
  · rfl

def SameIdentity (p q : Player F) : Prop :=
  q.toLoginStruct = p.toLoginStruct ∧ q.pEntity.displayName = p.pEntity.displayName

theorem Arrival.IsLogin.unique {a : Arrival F} {packet packet' : LoginStruct}
    (h : a.IsLogin packet) (h' : a.IsLogin packet') : packet = packet' := by
  obtain ⟨-, dump, c, hread⟩ := h
  obtain ⟨-, dump', c', hread'⟩ := h'
  rw [hread] at hread'
  cases hread'
  rfl

theorem Granted.of_same {rows : List LoginRow} {as : List (Arrival F)} {s s' : Session F}
    (h : Granted rows as s) (hsame : SameIdentity s.player s'.player) (a : Arrival F) :
    Granted rows (as ++ [a]) s' := by
  obtain ⟨hlogin, hname⟩ := hsame
  unfold Granted NotLoggedIn LoggedIn identity at *
  rw [hlogin, hname]
  rcases h with h | ⟨hrow, b, hb, packet, hpacket⟩
  · exact .inl h
  · exact .inr ⟨hrow, b, List.mem_append_left _ hb, packet, hpacket⟩

theorem transform_displayName (e : Entity F) (transforms : List (TransformStruct F)) :
    (transform e transforms).displayName = e.displayName := by
  rw [transform_eq]

section Packets

variable [FloatBits F]

theorem login_eq (rows : List LoginRow) {p : Player F} {packet : LoginStruct}
    (huser : packet.userid = p.userid) :
    (login rows p packet).1 = true ∧
      (login rows p packet).2.toLoginStruct = loginResult rows packet ∧
      (login rows p packet).2.pEntity.displayName = packet.username := by
  have hname := loginResult_username rows packet
  unfold loginResult at hname ⊢
  unfold login Send.loginReply Send.createEntityData
  cases htry : tryLogin rows packet with
  | none => simp only [Send.enqueue, Send.map, ← huser, and_self]
  | some loginStruct =>
    rw [htry] at hname
    simp only [Send.enqueue, Send.map, true_and]
    exact hname

variable [Add F] [Sub F] [Mul F] [LE F] [DecidableLE F]

/-- A packet leaves the identity alone, or is a login packet that gets past the check of its
userid. -/
theorem call_identity {server : Server F} {f : ReceiveFunction} {s s' : Session F} {buffer : Buffer}
    {head : Packet Head} {outcome : Outcome}
    (h : call server f s buffer head = .ok (outcome, s')) :
    (∃ packet dump c, f = .LoginData ∧ readLoginStruct buffer = .ok (⟨packet, dump⟩, c) ∧
      packet.userid = s.player.userid ∧
      s'.player.toLoginStruct = loginResult server.login packet ∧
      s'.player.pEntity.displayName = packet.username) ∨
    ((∀ packet dump c, f = .LoginData → readLoginStruct buffer = .ok (⟨packet, dump⟩, c) →
      packet.userid ≠ s.player.userid) ∧ SameIdentity s.player s'.player) := by
  cases f with
  | LoginData =>
    obtain ⟨⟨⟨packet, dump⟩, c⟩, hread, h⟩ := except_bind_eq_ok h
    dsimp only at h
    split at h
    · rename_i hne
      cases h
      refine .inr ⟨fun packet' dump' c' _ hread' => ?_, rfl, rfl⟩
      rw [hread] at hread'
      cases hread'
      exact fun heq => hne heq.symm
    · rename_i heq
      have huser : packet.userid = s.player.userid := by simpa using Eq.symm (not_not.mp heq)
      obtain ⟨-, hlogin, hname⟩ := login_eq server.login huser
      cases h
      exact .inl ⟨packet, dump, c, rfl, hread, huser, hlogin, hname⟩
  | ConsoleData =>
    obtain ⟨⟨⟨o, entries⟩, c⟩, -, h⟩ := except_bind_eq_ok h
    cases h
    exact .inr ⟨fun _ _ _ hf => absurd hf (by decide), rfl, rfl⟩
  | TransformData =>
    obtain ⟨⟨packet, c⟩, -, h⟩ := except_bind_eq_ok h
    cases h
    exact .inr ⟨fun _ _ _ hf => absurd hf (by decide), rfl, transform_displayName _ _⟩
  | ObjectsData =>
    obtain ⟨⟨packet, c⟩, hread, -⟩ := except_bind_eq_ok h
    obtain ⟨reply, moves, hsent⟩ := objectsData_eq server s head hread
    rw [call, hsent] at h
    cases h
    exact .inr ⟨fun _ _ _ hf => absurd hf (by decide), rfl, rfl⟩

theorem dispatch_identity {rows : List LoginRow} {s s' : Session F} {a : Arrival F}
    (h : (connection rows).step s a s') :
    (∃ packet, a.IsLogin packet ∧ packet.userid = s.player.userid ∧
      s'.player.toLoginStruct = loginResult rows packet ∧
      s'.player.pEntity.displayName = packet.username) ∨
    ((∀ packet, a.IsLogin packet → packet.userid ≠ s.player.userid) ∧
      SameIdentity s.player s'.player) := by
  rcases connection_step_cases h with ⟨hmap, rfl⟩ | ⟨f, outcome, mid, hmap, hcall, rfl⟩
  · refine .inr ⟨fun packet hlogin => ?_, rfl, rfl⟩
    rw [hlogin.1] at hmap
    cases hmap
  · rcases call_identity hcall with ⟨packet, dump, c, rfl, hread, hrest⟩ | ⟨hno, hsame⟩
    · exact .inl ⟨packet, ⟨hmap, dump, c, hread⟩, hrest⟩
    · refine .inr ⟨fun packet ⟨hlogin, dump, c, hread⟩ => ?_, hsame⟩
      rw [hmap] at hlogin
      exact hno packet dump c (Option.some.inj hlogin) hread

theorem granted_step_iff {rows : List LoginRow} {as : List (Arrival F)} {s s' : Session F}
    {a : Arrival F} (h : Granted rows as s) (step : (connection rows).step s a s') :
    Granted rows (as ++ [a]) s' ↔ Permitted rows s a := by
  rcases dispatch_identity step with ⟨packet, hlogin, huser, hresult, hname⟩ | ⟨hno, hsame⟩
  · have hcred : ∃ b ∈ as ++ [a], ∃ p, b.IsLogin p ∧ p.username = s'.player.username ∧
        p.password = s'.player.password := by
      refine ⟨a, by simp, packet, hlogin, ?_, ?_⟩
      · rw [hresult, loginResult_username]
      · rw [hresult, loginResult_password]
    have hpermitted : Permitted rows s a ↔ _ :=
      ⟨fun h => h packet hlogin huser, fun h p hp _ => hlogin.unique hp ▸ h⟩
    rw [hpermitted]
    unfold Granted NotLoggedIn LoggedIn identity
    rw [and_iff_left hcred, hname, hresult]
    cases htry : tryLogin rows packet with
    | none => simp [loginResult, htry, or_comm]
    | some loginStruct => simpa [loginResult, htry] using .inr (tryLogin_row htry).2.2
  · exact iff_of_true (h.of_same hsame a) fun packet hlogin huser =>
      absurd huser (hno packet hlogin)

/-- In every run whose packets are all permitted, the identity of the player is granted by the
database in every state, and the first packet that is not permitted ends that. -/
theorem identity_granted (rows : List LoginRow) (as : List (Arrival F)) (s : Session F)
    (run : ((connection rows).restrict (Permitted rows)).Run as s) :
    Granted rows as s ∧ ∀ a s', (connection rows).step s a s' →
      (Granted rows (as ++ [a]) s' ↔ Permitted rows s a) := by
  have granted : Granted rows as s := by
    refine run.invariant (I := Granted rows) ?_ ?_
    · rintro s ⟨transform, sessionid, rfl⟩
      exact .inl ⟨rfl, rfl, rfl, rfl⟩
    · intro as s a s' _ h step
      obtain ⟨hpermitted, step⟩ := step
      exact (granted_step_iff h step).mpr hpermitted
  exact ⟨granted, fun a s' step => granted_step_iff granted step⟩

end Packets

/-- A login as an administrator, in the state of one who is logged in. -/
def adminLogin : LoginStruct := ⟨2, 0, 1, Str.ofString "root", []⟩

def adminArrival : Arrival UInt32 where
  head := ⟨⟨-1, 1, 24, -1⟩, []⟩
  body := writeLoginStruct adminLogin
  entities := ⟨[], List.nodup_nil⟩
  print := .printed

def firstSession : Session UInt32 := Session.open ⟨⟨0, 0, 0⟩, ⟨0, 0, 0, 0⟩⟩ 1

def rootTable : List LoginRow := [⟨7, 0, Str.ofString "root", []⟩]

theorem adminLogin_granted :
    ∃ s, Granted rootTable [adminArrival] s ∧ s.player.userid = 7 ∧ s.player.usertype = 0 := by
  obtain ⟨s, step, huser, htype⟩ : ∃ s, (connection rootTable).step firstSession adminArrival s ∧
      s.player.userid = 7 ∧ s.player.usertype = 0 := ⟨_, ⟨_, rfl, nofun⟩, rfl, rfl⟩
  have permitted : Permitted rootTable firstSession adminArrival := by
    intro packet hlogin _
    have hadmin : adminArrival.IsLogin adminLogin := ⟨rfl, _, _, rfl⟩
    rw [← hadmin.unique hlogin]
    exact .inl rfl
  have start : ((connection rootTable).restrict (Permitted rootTable)).Run [] firstSession :=
    .nil ⟨_, _, rfl⟩
  exact ⟨s, (identity_granted _ _ _ (start.snoc ⟨permitted, step⟩)).1, huser, htype⟩

/-- With an empty table, the login still makes a new player an administrator that is logged in. -/
theorem adminLogin_not_granted :
    ∃ s, (connection []).Run [adminArrival] s ∧ s.player.usertype = 1 ∧ s.player.state = 2 ∧
      ¬Granted [] [adminArrival] s := by
  obtain ⟨s, step, htype, hstate⟩ : ∃ s, (connection []).step firstSession adminArrival s ∧
      s.player.usertype = 1 ∧ s.player.state = 2 := ⟨_, ⟨_, rfl, nofun⟩, rfl, rfl⟩
  have start : (connection []).Run [] firstSession := .nil ⟨_, _, rfl⟩
  refine ⟨s, start.snoc step, htype, hstate, ?_⟩
  rintro (⟨-, h, -⟩ | ⟨h, -⟩)
  · rw [htype] at h
    cases h
  · exact List.not_mem_nil h

end Starfall.Receive
