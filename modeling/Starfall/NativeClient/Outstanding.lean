import Mathlib.Data.List.TakeWhile
import Starfall.NativeClient.Client
import Starfall.ProofKit.Runs

/-! How many logins of the native client are outstanding.  `tryLogin` lets one through while the
state is `LOGIN_STATE_NOT_LOGGED_IN`, and `setLoginStruct` then writes the state of its argument,
which is the same.  So until a reply has set the state, every attempt is let through. -/

namespace Starfall.NativeClient

open ProofKit.Reading ProofKit.Runs Buffer

variable {F : Type}

/-- What the history of a client records. -/
inductive Entry
  /-- `tryLogin` returned `ok`, and put the packets into the queue. -/
  | tried (ok : Bool) (packets : List (List UInt8))
  /-- `LoginReply` has processed a packet. -/
  | replied
  deriving DecidableEq, Repr

def Entry.packets : Entry → List (List UInt8)
  | .tried _ packets => packets
  | .replied => []

/-- A player, and the history of its client, oldest first. -/
structure Attempts (F : Type) where
  player : Player F
  history : List Entry

inductive Attempt
  | tryLogin (loginStruct : LoginStruct)
  /-- `Client::run` sends the oldest packet of the queue. -/
  | send
  /-- `Client::run` dispatches a packet. -/
  | receive (packet : List UInt8)
  deriving DecidableEq, Repr

/-- The packet is one for `LoginReply`. -/
def isLoginReply (packet : List UInt8) : Bool :=
  match readHead (.start (packet.take Head.size)) with
  | .ok (head, _) => map head.value.opcode.toUInt32 = some .LoginReply
  | .error _ => false

/-- A call of `tryLogin` is `true` and a processed reply is `false`. -/
def Attempt.called : Attempt → Option Bool
  | .tryLogin _ => some true
  | .send => none
  | .receive packet => if isLoginReply packet then some false else none

/-- The calls of `tryLogin` before the first processed reply. -/
def callsBeforeReply (es : List Attempt) : List Bool :=
  (es.filterMap Attempt.called).takeWhile id

section Steps

variable [FloatBits F]

/-- The client after an event, if it can happen.  The logins are those that `LoginControls` builds,
with the state of the default constructor. -/
def Attempts.next (s : Attempts F) : Attempt → Option (Attempts F)
  | .tryLogin loginStruct =>
    if loginStruct.state = LOGIN_STATE_NOT_LOGGED_IN then do
      let (ok, player) ← tryLogin s.player loginStruct
      let packets := player.sendQueue.drop s.player.sendQueue.length
      pure ⟨player, s.history ++ [.tried ok packets]⟩
    else none
  | .send =>
    match s.player.sendQueue with
    | _ :: sendQueue => some { s with player := { s.player with sendQueue } }
    | [] => none
  | .receive packet =>
    match deliver s.player packet with
    | .ok player =>
      some ⟨player, if isLoginReply packet then s.history ++ [.replied] else s.history⟩
    | .error _ => none

/-- A client that is started. -/
def attempts : System (Attempts F) Attempt where
  init s := ∃ transform sessionid, s = ⟨Player.create transform sessionid, []⟩
  step s e s' := s.next e = some s'

end Steps

/-- In each part of the history without a reply at most one login is put into the queue, and every
attempt behind it returns false. -/
def OneOutstanding (history : List Entry) : Prop :=
  ∀ before part after, history = before ++ (part ++ after) → .replied ∉ part →
    (part.flatMap Entry.packets).length ≤ 1 ∧
    ∀ earlier ok packets later, part = earlier ++ .tried ok packets :: later →
      earlier.flatMap Entry.packets ≠ [] → ok = false

/-- The attempts before the first reply. -/
def unanswered (history : List Entry) : List Entry := history.takeWhile (· ≠ .replied)

/-- An attempt that is let through. -/
def Entry.passed : Entry → Prop
  | .tried ok packets => ok = true ∧ packets.length = 1
  | .replied => False

/-- An attempt that is not let through, or a reply. -/
def Entry.idle : Entry → Prop
  | .tried ok packets => ok = false ∧ packets = []
  | .replied => True

/-- Until the first reply every attempt is let through, and none after it. -/
def Answers (s : Attempts F) : Prop :=
  (s.player.state = LOGIN_STATE_NOT_LOGGED_IN ∧ ∀ entry ∈ s.history, entry.passed) ∨
  (s.player.state = LOGIN_STATE_LOGGED_IN ∧ ∃ passed idle,
    s.history = passed ++ .replied :: idle ∧ (∀ entry ∈ passed, entry.passed) ∧
      ∀ entry ∈ idle, entry.idle)

theorem Entry.passed_length {entries : List Entry} (h : ∀ entry ∈ entries, entry.passed) :
    (entries.flatMap Entry.packets).length = entries.length := by
  induction entries with
  | nil => rfl
  | cons entry entries ih =>
    rw [List.forall_mem_cons] at h
    cases entry with
    | tried ok packets =>
      have hpackets : (Entry.packets (.tried ok packets)).length = 1 := h.1.2
      rw [List.flatMap_cons, List.length_append, ih h.2, hpackets, List.length_cons, Nat.add_comm]
    | replied => exact h.1.elim

theorem Entry.idle_packets {entries : List Entry} (h : ∀ entry ∈ entries, entry.idle) :
    entries.flatMap Entry.packets = [] := by
  refine List.flatMap_eq_nil_iff.mpr fun entry hentry => ?_
  cases entry with
  | tried ok packets => exact (h _ hentry).2
  | replied => rfl

theorem Entry.passed_ne {entries : List Entry} (h : ∀ entry ∈ entries, entry.passed) :
    ∀ entry ∈ entries, decide (entry ≠ .replied) = true := by
  rintro entry hentry
  refine decide_eq_true ?_
  rintro rfl
  exact h _ hentry

/-- The attempts before the first reply are let through, and those behind it are not. -/
theorem Answers.split {s : Attempts F} (h : Answers s) :
    ∃ idle, s.history = unanswered s.history ++ idle ∧
      (∀ entry ∈ unanswered s.history, entry.passed) ∧ ∀ entry ∈ idle, entry.idle := by
  rcases h with ⟨-, hpassed⟩ | ⟨-, passed, idle, hhistory, hpassed, hidle⟩
  · have hunanswered : unanswered s.history = s.history :=
      List.takeWhile_eq_self_iff.mpr (Entry.passed_ne hpassed)
    rw [hunanswered]
    exact ⟨[], (List.append_nil _).symm, hpassed, by simp⟩
  · have hunanswered : unanswered s.history = passed := by
      rw [unanswered, hhistory, List.takeWhile_append_of_pos (Entry.passed_ne hpassed),
        List.takeWhile_cons_of_neg (by simp), List.append_nil]
    rw [hunanswered]
    refine ⟨.replied :: idle, hhistory, hpassed, ?_⟩
    rw [List.forall_mem_cons]
    exact ⟨trivial, hidle⟩

/-- What is put into the queue are the logins of the attempts before the first reply. -/
theorem Answers.packets_length {s : Attempts F} (h : Answers s) :
    (s.history.flatMap Entry.packets).length = (unanswered s.history).length := by
  obtain ⟨idle, hhistory, hpassed, hidle⟩ := h.split
  rw [← Entry.passed_length hpassed]
  conv_lhs => rw [hhistory, List.flatMap_append, Entry.idle_packets hidle, List.append_nil]

theorem Answers.let_through {s : Attempts F} (h : Answers s) {packets : List (List UInt8)}
    (hentry : .tried true packets ∈ s.history) : packets.length = 1 := by
  obtain ⟨idle, hhistory, hpassed, hidle⟩ := h.split
  rw [hhistory, List.mem_append] at hentry
  rcases hentry with hentry | hentry
  · exact (hpassed _ hentry).2
  · exact Bool.noConfusion (hidle _ hentry).1

theorem Answers.unanswered_iff {s : Attempts F} (h : Answers s) :
    OneOutstanding s.history ↔ (unanswered s.history).length ≤ 1 := by
  constructor
  · intro hone
    obtain ⟨idle, hhistory, hpassed, -⟩ := h.split
    have hreplied : Entry.replied ∉ unanswered s.history := fun hmem => hpassed _ hmem
    have hpackets := (hone [] _ idle hhistory hreplied).1
    rwa [Entry.passed_length hpassed] at hpackets
  · intro hone before part after hhistory _
    rw [← h.packets_length, hhistory] at hone
    simp only [List.flatMap_append, List.length_append] at hone
    refine ⟨by omega, fun earlier ok packets later hpart hearlier => ?_⟩
    cases ok with
    | false => rfl
    | true =>
      have hentry : .tried true packets ∈ s.history := by
        rw [hhistory, hpart]
        simp
      have hpackets : (Entry.packets (.tried true packets)).length = 1 := h.let_through hentry
      have hpositive := List.length_pos_iff.mpr hearlier
      rw [hpart, List.flatMap_append, List.flatMap_cons, List.length_append, List.length_append,
        hpackets] at hone
      omega

/-- Behind the first reply nothing is put into the queue. -/
theorem Answers.packets_replied {s : Attempts F} (h : Answers s) {before after : List Entry}
    (hhistory : s.history = before ++ .replied :: after) : after.flatMap Entry.packets = [] := by
  obtain ⟨idle, hsplit, hpassed, hidle⟩ := h.split
  have hparts := hhistory.symm.trans hsplit
  rw [List.append_eq_append_iff] at hparts
  rcases hparts with ⟨rest, hunanswered, hafter⟩ | ⟨rest, -, rfl⟩
  · cases rest with
    | nil =>
      rw [List.nil_append] at hafter
      rw [← hafter, List.forall_mem_cons] at hidle
      exact Entry.idle_packets hidle.2
    | cons entry rest =>
      injection hafter with hentry
      have hmem : Entry.replied ∈ unanswered s.history := by
        rw [hunanswered, hentry]
        simp
      exact (hpassed _ hmem).elim
  · rw [List.forall_mem_append, List.forall_mem_cons] at hidle
    exact Entry.idle_packets hidle.2.2

section Steps

variable [FloatBits F]

theorem deliver_state {p p' : Player F} {packet : List UInt8} (h : deliver p packet = .ok p') :
    p'.state = if isLoginReply packet then LOGIN_STATE_LOGGED_IN else p.state := by
  obtain ⟨⟨head, c⟩, hhead, h⟩ := except_bind_eq_ok h
  have hreply : isLoginReply packet =
      decide (map head.value.opcode.toUInt32 = some .LoginReply) := by
    rw [isLoginReply, hhead]
  dsimp only at h
  unfold dispatch at h
  cases hmap : map head.value.opcode.toUInt32 with
  | none =>
    rw [hmap] at h
    cases h
    simp [hreply, hmap]
  | some f =>
    rw [hmap] at h
    cases f with
    | LoginReply =>
      obtain ⟨⟨loginStruct, c⟩, -, h⟩ := except_bind_eq_ok h
      cases h
      simp [hreply, hmap]
    | ObjectsReply =>
      obtain ⟨⟨updateStruct, c⟩, -, h⟩ := except_bind_eq_ok h
      cases h
      simp [hreply, hmap]
    | TransformEntityData =>
      cases h
      simp [hreply, hmap]

theorem answers_tryLogin {s s' : Attempts F} {l : LoginStruct} (h : Answers s)
    (step : s.next (.tryLogin l) = some s') : Answers s' := by
  rw [Attempts.next, tryLogin_eq] at step
  split at step
  · rename_i hl
    rcases h with ⟨hstate, hpassed⟩ | ⟨hstate, passed, idle, hhistory, hpassed, hidle⟩
    · rw [if_pos hstate] at step
      cases step
      refine .inl ⟨hl, ?_⟩
      rw [List.forall_mem_append, List.forall_mem_singleton]
      exact ⟨hpassed, rfl, by simp⟩
    · have hne : s.player.state ≠ LOGIN_STATE_NOT_LOGGED_IN := by
        rw [hstate]
        decide
      rw [if_neg hne] at step
      cases step
      rw [List.drop_length]
      refine .inr ⟨hstate, passed, idle ++ [.tried false []], ?_, hpassed, ?_⟩
      · dsimp only
        rw [hhistory, List.append_assoc, List.cons_append]
      · rw [List.forall_mem_append, List.forall_mem_singleton]
        exact ⟨hidle, rfl, rfl⟩
  · cases step

theorem answers_receive {s s' : Attempts F} {packet : List UInt8} (h : Answers s)
    (step : s.next (.receive packet) = some s') : Answers s' := by
  rw [Attempts.next] at step
  split at step
  · rename_i player hdeliver
    have hstate := deliver_state hdeliver
    cases step
    by_cases hreply : isLoginReply packet = true
    · rw [if_pos hreply] at hstate
      refine .inr ⟨hstate, ?_⟩
      dsimp only
      rw [if_pos hreply]
      rcases h with ⟨-, hpassed⟩ | ⟨-, passed, idle, hhistory, hpassed, hidle⟩
      · exact ⟨s.history, [], rfl, hpassed, by simp⟩
      · refine ⟨passed, idle ++ [.replied], ?_, hpassed, ?_⟩
        · rw [hhistory, List.append_assoc, List.cons_append]
        · rw [List.forall_mem_append, List.forall_mem_singleton]
          exact ⟨hidle, trivial⟩
    · rw [if_neg hreply] at hstate
      unfold Answers
      dsimp only
      rw [if_neg hreply, hstate]
      exact h
  · cases step

theorem answers_run {es : List Attempt} {s : Attempts F} (run : attempts.Run es s) :
    Answers s := by
  refine run.invariant (I := fun _ s => Answers s) ?_ ?_
  · rintro s ⟨transform, sessionid, rfl⟩
    exact .inl ⟨rfl, by simp⟩
  · intro es s e s' _ h step
    cases e with
    | tryLogin l => exact answers_tryLogin h step
    | send =>
      rw [show attempts.step s .send s' = (s.next .send = some s') from rfl, Attempts.next] at step
      split at step
      · cases step
        exact h
      · cases step
    | receive packet => exact answers_receive h step

def Entry.isTried : Entry → Bool
  | .tried _ _ => true
  | .replied => false

/-- The history has the calls and the replies of the run. -/
theorem history_run {es : List Attempt} {s : Attempts F} (run : attempts.Run es s) :
    s.history.map Entry.isTried = es.filterMap Attempt.called := by
  refine run.invariant (I := fun es s => s.history.map Entry.isTried = es.filterMap Attempt.called)
    ?_ ?_
  · rintro s ⟨transform, sessionid, rfl⟩
    rfl
  · intro es s e s' _ h step
    change s.next e = some s' at step
    rw [List.filterMap_append, ← h]
    cases e with
    | tryLogin l =>
      rw [Attempts.next, tryLogin_eq] at step
      split at step
      · cases step
        exact List.map_append
      · cases step
    | send =>
      rw [Attempts.next] at step
      split at step
      · cases step
        exact (List.append_nil _).symm
      · cases step
    | receive packet =>
      rw [Attempts.next] at step
      split at step
      · cases step
        by_cases hreply : isLoginReply packet = true
        · simp [hreply, Attempt.called, Entry.isTried]
        · simp [hreply, Attempt.called]
      · cases step

theorem unanswered_run {es : List Attempt} {s : Attempts F} (run : attempts.Run es s) :
    (unanswered s.history).length = (callsBeforeReply es).length := by
  rw [callsBeforeReply, ← history_run run, List.takeWhile_map, List.length_map, unanswered]
  congr 2
  funext entry
  cases entry with
  | tried ok packets => rfl
  | replied => rfl

/-- In every run, at most one login is outstanding at a time if and only if `tryLogin` is called at
most once before the first reply. -/
theorem oneOutstanding_iff {es : List Attempt} {s : Attempts F} (run : attempts.Run es s) :
    OneOutstanding s.history ↔ (callsBeforeReply es).length ≤ 1 := by
  rw [← unanswered_run run]
  exact (answers_run run).unanswered_iff

end Steps

def attempt : LoginStruct := ⟨LOGIN_STATE_NOT_LOGGED_IN, 0, 0, [97], [98]⟩

def freshAttempts : Attempts UInt32 := ⟨Player.create ⟨⟨0, 0, 0⟩, ⟨0, 0, 0, 0⟩⟩ 1, []⟩

theorem attempt_oneOutstanding : ∃ s : Attempts UInt32, attempts.Run [.tryLogin attempt] s ∧
    s.history = [.tried true [loginPacket attempt]] ∧ OneOutstanding s.history := by
  have start : attempts.Run [] freshAttempts := .nil ⟨_, _, rfl⟩
  have first := start.snoc (l := Attempt.tryLogin attempt) rfl
  exact ⟨_, first, rfl, (oneOutstanding_iff first).mpr (by decide)⟩

/-- Before a reply has come, a second attempt puts a second login into the queue. -/
theorem attempts_notOneOutstanding : ∃ s : Attempts UInt32,
    attempts.Run [.tryLogin attempt, .tryLogin attempt] s ∧
      s.player.sendQueue = [loginPacket attempt, loginPacket attempt] ∧
      ¬OneOutstanding s.history := by
  have start : attempts.Run [] freshAttempts := .nil ⟨_, _, rfl⟩
  have first := start.snoc (l := Attempt.tryLogin attempt) rfl
  have second := first.snoc (l := Attempt.tryLogin attempt) rfl
  have hnot : ¬OneOutstanding
      [.tried true [loginPacket attempt], .tried true [loginPacket attempt]] := by
    intro hone
    have hpackets := (hone [] (List.replicate 2 (.tried true [loginPacket attempt])) [] rfl
      (by decide)).1
    exact absurd hpackets (by decide)
  exact ⟨_, second, rfl, hnot⟩

end Starfall.NativeClient
