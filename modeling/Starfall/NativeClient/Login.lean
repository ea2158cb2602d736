import Starfall.NativeClient.Client
import Starfall.ProofKit.Runs
import Starfall.Server.LoginServer

/-! The login of the native client.  The server replies to a login that it refuses as it does to one
that it accepts, and the client takes every reply for a success.  So the client is right that it is
logged in as long as the server accepts a login before it replies to another one. -/

namespace Starfall.NativeClient

open ProofKit.Reading ProofKit.Runs Buffer

variable {F : Type}

/-- A client, its connection, and the packets that are under way between them, oldest first. -/
structure Link (F : Type) where
  client : Player F
  session : Receive.Session F
  toServer : List (List UInt8)
  toClient : List (List UInt8)
  /-- The logins for which `TryLogin` succeeded. -/
  accepted : List LoginStruct
  deriving DecidableEq, Repr

inductive Event (F : Type)
  | tryLogin (loginStruct : LoginStruct)
  /-- `Client::run` sends the oldest packet of the queue. -/
  | send
  /-- The server handles the oldest packet, with the entity map and the console as it finds them. -/
  | handle (entities : EntityMap F) (print : Str → Receive.Printed)
  /-- `Client::run` dispatches the oldest packet. -/
  | receive

/-- The login of a packet for `LoginData`. -/
def loginOf (packet : List UInt8) : Option LoginStruct :=
  match readHead (.start (packet.take Head.size)) with
  | .ok (head, _) =>
    if Receive.map head.value.opcode.toUInt32 = some .LoginData then
      match readLoginStruct (.start (packet.drop Head.size)) with
      | .ok (loginStruct, _) => some loginStruct.value
      | .error _ => none
    else none
  | .error _ => none

/-- `LoginData` asks the database for the login of the packet, and `TryLogin` succeeds. -/
def Accepts (rows : List LoginRow) (p : Player F) (loginStruct : LoginStruct) : Prop :=
  p.userid = loginStruct.userid ∧ (Starfall.tryLogin rows loginStruct).isSome

instance (rows : List LoginRow) (p : Player F) (loginStruct : LoginStruct) :
    Decidable (Accepts rows p loginStruct) :=
  inferInstanceAs (Decidable (_ ∧ _))

section Steps

variable [FloatBits F] [Add F] [Sub F] [Mul F] [LE F] [DecidableLE F]

/-- The link after an event, if it can happen. -/
def next (rows : List LoginRow) (s : Link F) : Event F → Option (Link F)
  | .tryLogin loginStruct => do
    let (_, client) ← tryLogin s.client loginStruct
    pure { s with client }
  | .send =>
    match s.client.sendQueue with
    | packet :: sendQueue =>
      some { s with client := { s.client with sendQueue }, toServer := s.toServer ++ [packet] }
    | [] => none
  | .handle entities print =>
    match s.toServer with
    | packet :: toServer =>
      match Receive.deliver ⟨rows, entities, print⟩ s.session packet with
      | .ok (_, session) => some { s with
          toServer, session := { session with sent := [] }
          toClient := s.toClient ++ session.sent
          accepted := s.accepted ++ (loginOf packet).toList.filter (Accepts rows s.session.player) }
      | .error _ => none
    | [] => none
  | .receive =>
    match s.toClient with
    | packet :: toClient =>
      match deliver s.client packet with
      | .ok client => some { s with client, toClient }
      | .error _ => none
    | [] => none

/-- A client that is started, and the connection of its socket. -/
def link (rows : List LoginRow) : System (Link F) (Event F) where
  init s := ∃ transform sessionid transform' sessionid', s =
    ⟨Player.create transform sessionid, Receive.Session.open transform' sessionid', [], [], []⟩
  step s e s' := next rows s e = some s'

end Steps

/-- The server has accepted credentials that the client sent. -/
def Accepted (rows : List LoginRow) (es : List (Event F)) (s : Link F) : Prop :=
  ∃ l ∈ s.accepted, .tryLogin l ∈ es ∧ (Starfall.tryLogin rows l).isSome

/-- Until the server has accepted a login, `tryLogin` is not called with the state of one who is
logged in, and the server accepts each login that it asks the database for. -/
def Justified (rows : List LoginRow) (s : Link F) : Event F → Prop
  | .tryLogin l => s.client.state = LOGIN_STATE_NOT_LOGGED_IN → l.state = LOGIN_STATE_LOGGED_IN →
      s.accepted ≠ []
  | .handle _ _ => ∀ packet toServer l, s.toServer = packet :: toServer →
      loginOf packet = some l → s.session.player.userid = l.userid →
        (Starfall.tryLogin rows l).isSome ∨ s.accepted ≠ []
  | _ => True

/-- What holds of a link after the events `es`. -/
structure Consistent (rows : List LoginRow) (es : List (Event F)) (s : Link F) : Prop where
  sent : ∀ packet ∈ s.client.sendQueue ++ s.toServer,
    ∃ l, .tryLogin l ∈ es ∧ packet = loginPacket l
  accepted : ∀ l ∈ s.accepted, .tryLogin l ∈ es ∧ (Starfall.tryLogin rows l).isSome
  settled : s.session.sent = [] ∧ s.session.player.sendQueue = []
  replied : s.toClient ≠ [] → s.accepted ≠ []
  loggedIn : s.client.state = LOGIN_STATE_LOGGED_IN → s.accepted ≠ []

theorem Consistent.mono {rows : List LoginRow} {es : List (Event F)} {s : Link F}
    (h : Consistent rows es s) (e : Event F) : Consistent rows (es ++ [e]) s where
  sent packet hpacket := by
    obtain ⟨l, hl, rfl⟩ := h.sent packet hpacket
    exact ⟨l, List.mem_append_left _ hl, rfl⟩
  accepted l hl := (h.accepted l hl).imp_left (List.mem_append_left _)
  settled := h.settled
  replied := h.replied
  loggedIn := h.loggedIn

section Steps

variable [FloatBits F] [Add F] [Sub F] [Mul F] [LE F] [DecidableLE F]

/-- The server handles a login of the client, and sends nothing when the userid is another one. -/
theorem deliver_loginPacket {server : Receive.Server F} {s s' : Receive.Session F} {l : LoginStruct}
    {outcome : Receive.Outcome}
    (h : Receive.deliver server s (loginPacket l) = .ok (outcome, s'))
    (hqueue : s.player.sendQueue = []) :
    loginOf (loginPacket l) = some l ∧ s'.player.sendQueue = [] ∧
      (s.player.userid ≠ l.userid → s'.sent = s.sent) := by
  obtain ⟨dump, c, hhead⟩ := readHead_writeHead
    ⟨-1, 1, (UInt32.ofNat (writeLoginStruct l).length).toInt32, -1⟩
  have hmap : Receive.map (1 : Int32).toUInt32 = some .LoginData := rfl
  have htake : (loginPacket l).take Head.size = writeHead
      ⟨-1, 1, (UInt32.ofNat (writeLoginStruct l).length).toInt32, -1⟩ := rfl
  have hdrop : (loginPacket l).drop Head.size = writeLoginStruct l := rfl
  rw [Receive.deliver, htake, hdrop, except_bind_of_ok hhead] at h
  dsimp only at h
  rw [Receive.dispatch, hmap] at h
  obtain ⟨⟨o, mid⟩, hcall, h⟩ := except_bind_eq_ok h
  obtain ⟨⟨packet, d⟩, hread, hcall⟩ := except_bind_eq_ok hcall
  have hvalue := readLoginStruct_eq hread
  dsimp only at hcall
  rw [hvalue] at hcall
  have hlogin : loginOf (loginPacket l) = some l := by
    rw [loginOf, htake, hdrop, hhead]
    dsimp only
    rw [if_pos hmap, hread]
    exact congrArg some hvalue
  split at hcall
  · cases hcall
    cases h
    refine ⟨hlogin, rfl, fun _ => ?_⟩
    show s.sent ++ s.player.sendQueue = s.sent
    rw [hqueue, List.append_nil]
  · rename_i hsame
    cases hcall
    cases h
    exact ⟨hlogin, rfl, fun hne => absurd hne hsame⟩

theorem consistent_tryLogin {rows : List LoginRow} {es : List (Event F)} {s s' : Link F}
    {l : LoginStruct} (h : Consistent rows es s) (justified : Justified rows s (.tryLogin l))
    (step : next rows s (.tryLogin l) = some s') :
    Consistent rows (es ++ [.tryLogin l]) s' := by
  have old := h.mono (.tryLogin l)
  rw [next, tryLogin_eq] at step
  split at step
  · rename_i hstate
    cases step
    refine { old with sent := ?_, loggedIn := justified hstate }
    intro packet hpacket
    rw [List.append_assoc, List.mem_append, List.mem_append, List.mem_singleton] at hpacket
    rcases hpacket with hpacket | rfl | hpacket
    · exact old.sent packet (List.mem_append_left _ hpacket)
    · exact ⟨l, by simp, rfl⟩
    · exact old.sent packet (List.mem_append_right _ hpacket)
  · cases step
    exact old

theorem consistent_handle {rows : List LoginRow} {es : List (Event F)} {s s' : Link F}
    {entities : EntityMap F} {print : Str → Receive.Printed} (h : Consistent rows es s)
    (justified : Justified rows s (.handle entities print))
    (step : next rows s (.handle entities print) = some s') :
    Consistent rows (es ++ [.handle entities print]) s' := by
  have old := h.mono (.handle entities print)
  simp only [next] at step
  split at step
  · rename_i packet toServer hserver
    split at step
    · rename_i outcome session hdeliver
      cases step
      obtain ⟨l, hl, rfl⟩ := old.sent packet (by rw [hserver]; simp)
      obtain ⟨hlogin, hempty, hsilent⟩ := deliver_loginPacket hdeliver h.settled.2
      have grown : s.accepted ≠ [] → s.accepted ++
          (loginOf (loginPacket l)).toList.filter (Accepts rows s.session.player) ≠ [] :=
        fun hne => List.append_ne_nil_of_left_ne_nil hne _
      refine ⟨fun packet hpacket => ?_, fun a ha => ?_, ⟨rfl, hempty⟩, fun hreplied => ?_,
        fun hlogged => grown (h.loggedIn hlogged)⟩
      · refine old.sent packet ?_
        rw [hserver]
        rcases List.mem_append.mp hpacket with hpacket | hpacket
        · exact List.mem_append_left _ hpacket
        · exact List.mem_append_right _ (List.mem_cons_of_mem _ hpacket)
      · rcases List.mem_append.mp ha with ha | ha
        · exact old.accepted a ha
        · rw [hlogin, Option.toList_some, List.mem_filter, List.mem_singleton] at ha
          obtain ⟨rfl, haccepts⟩ := ha
          exact ⟨hl, (of_decide_eq_true haccepts).2⟩
      · by_cases huser : s.session.player.userid = l.userid
        · rcases justified _ toServer l hserver hlogin huser with haccepted | hne
          · have haccepts : Accepts rows s.session.player l := ⟨huser, haccepted⟩
            have hmem : l ∈ (loginOf (loginPacket l)).toList.filter
                (Accepts rows s.session.player) := by
              rw [hlogin]
              exact List.mem_filter.mpr ⟨List.mem_singleton_self l, decide_eq_true haccepts⟩
            exact List.append_ne_nil_of_right_ne_nil _ (List.ne_nil_of_mem hmem)
          · exact grown hne
        · rw [hsilent huser, h.settled.1, List.append_nil] at hreplied
          exact grown (h.replied hreplied)
    · cases step
  · cases step

theorem consistent_step {rows : List LoginRow} {es : List (Event F)} {s s' : Link F} {e : Event F}
    (h : Consistent rows es s) (justified : Justified rows s e) (step : next rows s e = some s') :
    Consistent rows (es ++ [e]) s' := by
  cases e with
  | tryLogin l => exact consistent_tryLogin h justified step
  | send =>
    have old := h.mono .send
    simp only [next] at step
    split at step
    · rename_i packet sendQueue hqueue
      cases step
      refine { old with sent := fun other hother => old.sent other ?_ }
      rw [hqueue]
      simp only [List.mem_append, List.mem_cons, List.not_mem_nil, or_false] at hother ⊢
      tauto
    · cases step
  | handle entities print => exact consistent_handle h justified step
  | receive =>
    have old := h.mono .receive
    simp only [next] at step
    split at step
    · rename_i packet toClient hclient
      have accepted : s.accepted ≠ [] := h.replied (by rw [hclient]; exact List.cons_ne_nil _ _)
      split at step
      · rename_i client hdeliver
        cases step
        refine { old with
          sent := ?_, replied := fun _ => accepted, loggedIn := fun _ => accepted }
        rw [deliver_sendQueue hdeliver]
        exact old.sent
      · cases step
    · cases step

theorem link_consistent {rows : List LoginRow} {es : List (Event F)} {s : Link F}
    (run : ((link rows).restrict (Justified rows)).Run es s) : Consistent rows es s := by
  refine run.invariant (I := Consistent rows) ?_ ?_
  · rintro s ⟨transform, sessionid, transform', sessionid', rfl⟩
    exact ⟨by simp [Player.create], nofun, ⟨rfl, rfl⟩, fun h => absurd rfl h,
      fun h => absurd h (by simp [Player.create, LOGIN_STATE_NOT_LOGGED_IN, LOGIN_STATE_LOGGED_IN])⟩
  · intro es s e s' _ h step
    obtain ⟨justified, step⟩ := step
    exact consistent_step h justified step

/-- In every run whose events are all justified, a client that is logged in sent credentials that
the server has accepted. -/
theorem loggedIn_accepted (rows : List LoginRow) (es : List (Event F)) (s : Link F)
    (run : ((link rows).restrict (Justified rows)).Run es s)
    (logged : isLoggedIn s.client = true) : Accepted rows es s := by
  have h := link_consistent run
  have accepted : s.accepted ≠ [] := h.loggedIn (of_decide_eq_true logged)
  obtain ⟨l, hl⟩ := List.exists_mem_of_ne_nil _ accepted
  exact ⟨l, hl, h.accepted l hl⟩

end Steps

def rootLogin : LoginStruct := ⟨0, 0, 0, Str.ofString "root", []⟩

def loginTable : List LoginRow := [⟨7, 0, Str.ofString "root", []⟩]

/-- The events of a login, up to the reply. -/
def loginEvents : List (Event UInt32) :=
  [.tryLogin rootLogin, .send, .handle ⟨[], List.nodup_nil⟩ .printed, .receive]

def freshLink : Link UInt32 where
  client := Player.create ⟨⟨0, 0, 0⟩, ⟨0, 0, 0, 0⟩⟩ 1
  session := Receive.Session.open ⟨⟨0, 0, 0⟩, ⟨0, 0, 0, 0⟩⟩ 1
  toServer := []
  toClient := []
  accepted := []

theorem rootLogin_accepted : ∃ s, isLoggedIn s.client = true ∧
    Accepted loginTable loginEvents s := by
  have start : ((link loginTable).restrict (Justified loginTable)).Run [] freshLink :=
    .nil ⟨_, _, _, _, rfl⟩
  have justified : Justified loginTable freshLink (.tryLogin rootLogin) :=
    fun _ h => absurd h (by decide)
  have first := start.snoc ⟨justified, rfl⟩
  have second := first.snoc (l := Event.send) ⟨trivial, rfl⟩
  obtain ⟨replied, third, received⟩ : ∃ replied,
      ((link loginTable).restrict (Justified loginTable)).Run (loginEvents.take 3) replied ∧
        (next loginTable replied .receive).any (fun s => isLoggedIn s.client) = true := by
    refine ⟨_, second.snoc (l := Event.handle ⟨[], List.nodup_nil⟩ .printed) ⟨?_, rfl⟩,
      by decide +kernel⟩
    intro packet toServer l hserver hlogin _
    cases hserver
    cases hlogin
    exact .inl rfl
  obtain ⟨s, hreceive, hlogged⟩ := (Option.any_eq_true _ _).mp received
  have fourth := third.snoc (l := Event.receive) ⟨trivial, hreceive⟩
  exact ⟨s, hlogged, loggedIn_accepted _ _ _ fourth hlogged⟩

/-- With an empty table, the client is logged in after the reply to its refused login. -/
theorem refusedLogin_loggedIn : ∃ s, (link []).Run loginEvents s ∧
    isLoggedIn s.client = true ∧ s.accepted = [] ∧ ¬Accepted [] loginEvents s := by
  have start : (link []).Run [] freshLink := .nil ⟨_, _, _, _, rfl⟩
  have ended : (System.exec (next []) freshLink loginEvents).any
      (fun s => isLoggedIn s.client && s.accepted.isEmpty) = true := by decide +kernel
  obtain ⟨s, hexec, hs⟩ := (Option.any_eq_true _ _).mp ended
  obtain ⟨hlogged, hempty⟩ := Bool.and_eq_true_iff.mp hs
  have haccepted := List.isEmpty_iff.mp hempty
  refine ⟨s, start.of_exec (fun _ _ _ h => h) hexec, hlogged, haccepted, ?_⟩
  rintro ⟨l, hl, -⟩
  rw [haccepted] at hl
  exact List.not_mem_nil hl

end Starfall.NativeClient
