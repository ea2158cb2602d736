import Starfall.Unity.Duplicates

/-! Object requests in flight.  The state 1 permits a request.  The request carries the state to the
server, whose player keeps it for the reply, and the client clears its own copy under the mutex that
it encoded the request under.  So the state is in one place at a time: with the client, in a packet
on its way to the server, or in a reply whose state has not been read. -/

namespace Starfall.Unity

open ProofKit.Runs

variable {F : Type}

/-- A client with the `ObjectsData` packets of its `sendQueue`, oldest first, and how many of them
were enqueued and how many states of `ObjectsReply` packets were read. -/
structure Traffic (F : Type) extends State F where
  sendQueue : List (ObjectsStruct F)
  enqueued : Nat
  read : Nat
  deriving DecidableEq, Repr

inductive TrafficEvent (F : Type)
  /-- `UpdateSession` up to the release of its mutex, in any tick. -/
  | updateSession (farClipPlane : F)
  /-- A round of the loop of `SendPackets`. -/
  | sendPacket
  /-- The server sends a packet on its own. -/
  | sent (message : {message : Message F // ∀ action ∈ message.actions, action.setsState = false})
  /-- What else the threads and the server do. -/
  | other (e : Event F)

/-- How many states of replies the receive thread reads in an event. -/
def reads (s : State F) : Event F → Nat
  | .perform => (s.todo.take 1).countP Action.setsState
  | _ => 0

/-- The timers call `UpdateSession`. -/
def callsSession : Event F → Bool
  | .updateTimers timer => timer.isSome
  | _ => false

section Steps

variable [Add F] [Sub F] [Mul F] [LE F] [DecidableLE F]

/-- The state after an event, if it can happen.  The timers do not call `UpdateSession` here, as it
has an event of its own. -/
def Traffic.next (s : Traffic F) : TrafficEvent F → Option (Traffic F)
  | .updateSession farClipPlane =>
    let (world, request) := s.world.updateSession farClipPlane
    some { s with
      world
      sendQueue := s.sendQueue ++ request.toList
      enqueued := s.enqueued + request.toList.length }
  | .sendPacket =>
    match s.sendQueue with
    | objects :: sendQueue => some { s with sendQueue, requests := s.requests ++ [objects] }
    | [] => none
  | .sent message => some { s with incoming := s.incoming ++ [message.val] }
  | .other e =>
    if callsSession e then none
    else (Unity.next s.toState e).map fun after => { s with
      toState := after, read := s.read + reads s.toState e }

/-- A client from the construction of its `User` on, when nothing was requested yet. -/
def traffic : System (Traffic F) (TrafficEvent F) where
  init s := s.world.user.checkObjectsState = 1 ∧ s.sendQueue = [] ∧ s.requests = [] ∧
    (∀ action ∈ s.ahead, action.setsState = false) ∧ s.enqueued = 0 ∧ s.read = 0
  step s e s' := s.next e = some s'

end Steps

/-- The requests that are queued or on their way to the server, oldest first. -/
def Traffic.asked (s : Traffic F) : List (ObjectsStruct F) := s.requests ++ s.sendQueue

/-- Each request that was enqueued is on its way, or is answered by a state that is on its way or
was read.  There is one state 1, and no other is on its way. -/
structure InFlight (s : Traffic F) : Prop where
  counted : s.enqueued = s.read + s.asked.length + s.ahead.countP Action.setsState
  permit : (if s.world.user.checkObjectsState = 1 then 1 else 0) + s.asked.length +
    s.ahead.countP Action.setsState = 1
  asked : ∀ objects ∈ s.asked, objects.state = 1
  ahead : ∀ state, .setState state ∈ s.ahead → state = 1

theorem InFlight.of_same {s s' : Traffic F} (h : InFlight s)
    (state : s'.world.user.checkObjectsState = s.world.user.checkObjectsState)
    (asked : s'.asked = s.asked) (ahead : s'.ahead = s.ahead)
    (counts : s'.enqueued = s.enqueued ∧ s'.read = s.read) : InFlight s' := by
  obtain ⟨hcounted, hpermit, hasked, hahead⟩ := h
  refine ⟨?_, ?_, ?_, ?_⟩
  · rw [counts.1, counts.2, asked, ahead, hcounted]
  · rw [state, asked, ahead, hpermit]
  · rw [asked]
    exact hasked
  · rw [ahead]
    exact hahead

theorem ahead_append (s : State F) (messages : List (Message F)) :
    State.ahead { s with incoming := s.incoming ++ messages } =
      s.ahead ++ messages.flatMap Message.actions := by
  simp [State.ahead]

theorem not_setState {actions : List (Action F)}
    (h : ∀ action ∈ actions, action.setsState = false) :
    actions.countP Action.setsState = 0 ∧ ∀ state, .setState state ∉ actions := by
  refine ⟨List.countP_eq_zero.mpr fun action hmem => ?_, fun state hmem => ?_⟩
  · rw [h action hmem]
    exact Bool.false_ne_true
  · exact Bool.noConfusion (h _ hmem)

theorem InFlight.updateSession {s : Traffic F} (h : InFlight s) (clip : F) :
    InFlight { s with
      world := (s.world.updateSession clip).1
      sendQueue := s.sendQueue ++ (s.world.updateSession clip).2.toList
      enqueued := s.enqueued + (s.world.updateSession clip).2.toList.length } := by
  obtain ⟨hcounted, hpermit, hasked, hahead⟩ := h
  by_cases hstate : s.world.user.checkObjectsState = 1
  · simp only [World.updateSession, hstate, if_true, Option.toList_some, List.length_singleton]
    rw [if_pos hstate] at hpermit
    have hsame : s.requests ++ (s.sendQueue ++ [⟨1, clip, s.world.ids⟩]) =
        s.asked ++ [⟨1, clip, s.world.ids⟩] := (List.append_assoc _ _ _).symm
    have hlength := congrArg List.length hsame
    rw [@List.length_append _ _ [_], List.length_singleton] at hlength
    refine ⟨?_, ?_, ?_, hahead⟩
    · show s.enqueued + 1 = s.read + (s.requests ++ (s.sendQueue ++ [_])).length +
        s.ahead.countP Action.setsState
      omega
    · show 0 + (s.requests ++ (s.sendQueue ++ [_])).length + s.ahead.countP Action.setsState = 1
      omega
    · intro objects hmem
      replace hmem : objects ∈ s.asked ++ [⟨1, clip, s.world.ids⟩] := hsame ▸ hmem
      rcases List.mem_append.mp hmem with hmem | hmem
      · exact hasked objects hmem
      · rw [List.mem_singleton.mp hmem]
  · simp only [World.updateSession, if_neg hstate, Option.toList_none, List.append_nil]
    exact ⟨hcounted, hpermit, hasked, hahead⟩

theorem InFlight.sent {s : Traffic F} (h : InFlight s) {message : Message F}
    (silent : ∀ action ∈ message.actions, action.setsState = false) :
    InFlight { s with incoming := s.incoming ++ [message] } := by
  obtain ⟨hcounted, hpermit, hasked, hahead⟩ := h
  obtain ⟨hcount, hnone⟩ := not_setState silent
  have hsame := ahead_append s.toState [message]
  rw [List.flatMap_singleton] at hsame
  refine ⟨?_, ?_, hasked, fun state hmem => ?_⟩
  · rw [hsame, List.countP_append, hcount]
    exact hcounted
  · rw [hsame, List.countP_append, hcount]
    exact hpermit
  · rw [hsame, List.mem_append] at hmem
    exact hmem.elim (hahead state) fun hmem => absurd hmem (hnone state)

theorem perform_state {user : User F} {action : Action F}
    (h : ∀ state, action = .setState state → state = 1) :
    (if (user.perform action).checkObjectsState = 1 then 1 else 0) =
      if action.setsState then 1 else if user.checkObjectsState = 1 then 1 else 0 := by
  cases action with
  | setState state => exact if_pos (h state rfl)
  | createEntity c => rfl
  | transformEntity t => rfl
  | destroyEntity d => rfl

theorem InFlight.perform {s : Traffic F} (h : InFlight s) {action : Action F}
    {todo : List (Action F)} (htodo : s.todo = action :: todo) :
    InFlight { s with
      world := { s.world with user := s.world.user.perform action }, todo
      read := s.read + reads s.toState .perform } := by
  obtain ⟨hcounted, hpermit, hasked, hahead⟩ := h
  have hfirst : s.ahead = [action] ++ (todo ++ s.incoming.flatMap Message.actions) := by
    rw [State.ahead, htodo]
    rfl
  have hreads : reads s.toState .perform = [action].countP Action.setsState := by
    rw [reads, htodo]
    rfl
  rw [hfirst, List.countP_append] at hcounted hpermit
  rw [hreads]
  refine ⟨?_, ?_, hasked, fun state hmem => hahead state ?_⟩
  · show s.enqueued = s.read + [action].countP Action.setsState + s.asked.length +
      (todo ++ s.incoming.flatMap Message.actions).countP Action.setsState
    omega
  · show (if (s.world.user.perform action).checkObjectsState = 1 then 1 else 0) +
      s.asked.length + (todo ++ s.incoming.flatMap Message.actions).countP Action.setsState = 1
    rw [perform_state fun state haction => hahead state (hfirst ▸ haction ▸ List.mem_cons_self)]
    rw [List.countP_singleton] at hpermit
    split
    · rename_i hsets
      rw [if_pos hsets] at hpermit
      omega
    · rename_i hsets
      rw [if_neg hsets] at hpermit
      omega
  · rw [hfirst]
    exact List.mem_append_right _ hmem

section Steps

variable [Add F] [Sub F] [Mul F] [LE F] [DecidableLE F]

/-- The reply to a request has the state of the request. -/
theorem answer_state (map : EntityMap F) (p : Player F) (objects : ObjectsStruct F) {state : UInt32}
    (h : .setState state ∈ (answer map p objects).flatMap Message.actions) :
    state = objects.state := by
  obtain ⟨creates, destroys, transforms, hround⟩ := Receive.objectsRound_push map p objects
  simp only [answer, Message.actions, List.flatMap_cons, List.flatMap_nil, List.append_nil,
    List.mem_append, List.mem_cons, List.mem_map, Action.setState.injEq, reduceCtorEq, and_false,
    exists_false, or_false] at h
  rw [h, hround]
  rfl

theorem InFlight.answered {s : Traffic F} (h : InFlight s) {objects : ObjectsStruct F}
    {requests : List (ObjectsStruct F)} (hrequests : s.requests = objects :: requests)
    (map : EntityMap F) (p : Player F) :
    InFlight { s with requests, incoming := s.incoming ++ answer map p objects } := by
  obtain ⟨hcounted, hpermit, hasked, hahead⟩ := h
  have hfirst : s.asked = objects :: Traffic.asked { s with requests } := by
    rw [Traffic.asked, hrequests]
    rfl
  have hsame := ahead_append { s.toState with requests } (answer map p objects)
  have hcount := answer_sets map p objects
  rw [hfirst, List.length_cons] at hcounted hpermit
  refine ⟨?_, ?_, fun o hmem => hasked o (hfirst ▸ List.mem_cons_of_mem _ hmem),
    fun state hmem => ?_⟩
  · rw [hsame, List.countP_append, hcount]
    show s.enqueued = s.read + (Traffic.asked { s with requests }).length +
      (s.ahead.countP Action.setsState + 1)
    omega
  · rw [hsame, List.countP_append, hcount]
    show (if s.world.user.checkObjectsState = 1 then 1 else 0) +
      (Traffic.asked { s with requests }).length + (s.ahead.countP Action.setsState + 1) = 1
    omega
  · rw [hsame, List.mem_append] at hmem
    refine hmem.elim (hahead state) fun hmem => ?_
    rw [answer_state map p objects hmem]
    exact hasked objects (hfirst ▸ List.mem_cons_self)

theorem InFlight.other {s : Traffic F} (h : InFlight s) {e : Event F} {after : State F}
    (hnone : ¬callsSession e) (effect : Effect s.toState e after) :
    InFlight { s with toState := after, read := s.read + reads s.toState e } := by
  cases effect with
  | receivePacket htodo hincoming =>
    refine h.of_same rfl rfl ?_ ⟨rfl, rfl⟩
    simp only [State.ahead, htodo, hincoming, List.flatMap_cons, List.nil_append]
  | perform htodo => exact h.perform htodo
  | destroyed hsublist => exact h.of_same rfl rfl rfl ⟨rfl, rfl⟩
  | created =>
    refine h.of_same ?_ rfl rfl ⟨rfl, rfl⟩
    rfl
  | moved move => exact h.of_same rfl rfl rfl ⟨rfl, rfl⟩
  | waited timer => exact h.of_same rfl rfl rfl ⟨rfl, rfl⟩
  | requested clip => exact absurd rfl hnone
  | answered map p hasked => exact h.answered hasked map p.val

theorem InFlight.step {s s' : Traffic F} {e : TrafficEvent F} (h : InFlight s)
    (step : s.next e = some s') : InFlight s' := by
  cases e with
  | updateSession clip =>
    cases step
    exact h.updateSession clip
  | sendPacket =>
    simp only [Traffic.next] at step
    split at step
    · rename_i objects sendQueue hqueue
      cases step
      refine h.of_same rfl ?_ rfl ⟨rfl, rfl⟩
      simp only [Traffic.asked, hqueue, List.append_assoc, List.singleton_append]
    · cases step
  | sent message =>
    cases step
    exact h.sent message.property
  | other e =>
    simp only [Traffic.next] at step
    split at step
    · cases step
    · rename_i hnone
      obtain ⟨after, hafter, rfl⟩ := Option.map_eq_some_iff.mp step
      exact h.other hnone (next_effect hafter)

/-- In every reachable state at most one request that was enqueued has no reply whose state was
read, and there is none exactly when the next request is permitted.  No reply sets another state
than 1. -/
theorem request_in_flight (es : List (TrafficEvent F)) (s : Traffic F) (run : traffic.Run es s) :
    (s.enqueued = s.read ∨ s.enqueued = s.read + 1) ∧
      (s.enqueued = s.read ↔ s.world.user.checkObjectsState = 1) ∧
      ∀ state, .setState state ∈ s.todo → state = 1 := by
  have inFlight : InFlight s := by
    refine run.invariant (I := fun _ s => InFlight s) ?_ ?_
    · rintro s ⟨hstate, hqueue, hrequests, hahead, henqueued, hread⟩
      obtain ⟨hcount, hnone⟩ := not_setState hahead
      have hasked : s.asked = [] := by rw [Traffic.asked, hqueue, hrequests, List.append_nil]
      refine ⟨?_, ?_, ?_, fun state hmem => absurd hmem (hnone state)⟩
      · rw [henqueued, hread, hasked, hcount, List.length_nil]
      · rw [hasked, hcount, List.length_nil, if_pos hstate]
      · rw [hasked]
        exact nofun
    · intro es s e s' _ h step
      exact h.step step
  obtain ⟨hcounted, hpermit, -, hahead⟩ := inFlight
  refine ⟨?_, ?_, fun state hmem => hahead state (List.mem_append_left _ hmem)⟩
  · split at hpermit <;> omega
  · split at hpermit
    · rename_i hstate
      exact iff_of_true (by omega) hstate
    · rename_i hstate
      exact iff_of_false (by omega) hstate

end Steps

/-- A request with its reply, behind the record of the player's entity. -/
def roundTrip : List (TrafficEvent Int) :=
  [.updateSession 10, .sendPacket, .other answered, .other .receivePacket, .other .perform,
    .other .receivePacket, .other .perform]

def firstTraffic : Traffic Int := ⟨firstState, [], 0, 0⟩

theorem roundTrip_in_flight : ∃ s, traffic.Run roundTrip s ∧ s.enqueued = 1 ∧ s.read = 1 ∧
    s.world.user.checkObjectsState = 1 := by
  have start : traffic.Run [] firstTraffic :=
    .nil ⟨rfl, rfl, rfl, List.forall_mem_singleton.mpr rfl, rfl, rfl⟩
  obtain ⟨s, hexec, henqueued, hread⟩ : ∃ s,
      System.exec Traffic.next firstTraffic roundTrip = some s ∧ s.enqueued = 1 ∧ s.read = 1 :=
    ⟨_, rfl, rfl, rfl⟩
  have run := start.of_exec (fun _ _ _ h => h) hexec
  have hpermit := (request_in_flight _ _ run).2.1
  exact ⟨s, run, henqueued, hread, hpermit.mp (henqueued.trans hread.symm)⟩

end Starfall.Unity
