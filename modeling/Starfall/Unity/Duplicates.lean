import Starfall.Unity.Network

/-! Duplicates in the world.  `ObjectsReply` allows the next request before it queues the create
records of the reply, and the world applies them later still.  A request that is sent in between
does not name the new entities, and the server sends them again.  While requests wait for the
records that are under way, no entity is shown twice. -/

namespace Starfall.Unity

open ProofKit.Runs

variable {F : Type}

/-- The session id that an action is going to add to the world. -/
def Action.creates : Action F → List UInt32
  | .createEntity c => [c.sessionid]
  | _ => []

def Action.setsState : Action F → Bool
  | .setState _ => true
  | _ => false

@[simp] theorem creates_createEntities (creates : List (CreateEntityStruct F)) :
    (creates.map Action.createEntity).flatMap Action.creates = creates.map (·.sessionid) := by
  induction creates with
  | nil => rfl
  | cons c creates ih => simp only [List.map_cons, List.flatMap_cons, ih]; rfl

@[simp] theorem creates_transformEntities (transforms : List (TransformEntityStruct F)) :
    (transforms.map Action.transformEntity).flatMap Action.creates = [] := by
  simp [Action.creates]

@[simp] theorem creates_destroyEntities (destroys : List DestroyEntityStruct) :
    (destroys.map (Action.destroyEntity (F := F))).flatMap Action.creates = [] := by
  simp [Action.creates]

namespace State

/-- What the receive thread is going to do for the packets that were sent, in order. -/
def ahead (s : State F) : List (Action F) := s.todo ++ s.incoming.flatMap Message.actions

/-- The session ids that are going to be added to the world. -/
def pending (s : State F) : List UInt32 :=
  s.world.user.createEntityQueue.map (·.sessionid) ++ s.ahead.flatMap Action.creates

/-- How often the state is 1, or is going to be set by a reply that was sent or asked for. -/
def permits (s : State F) : Nat :=
  (if s.world.user.checkObjectsState = 1 then 1 else 0) + s.requests.length +
    s.ahead.countP Action.setsState

end State

/-- The world is empty, and the record of the player's entity is all that is under way. -/
structure Alone (s : State F) : Prop where
  objects : s.world.objects = []
  entity : s.world.entity = none
  requests : s.requests = []
  own : ∃ own : CreateEntityStruct F, own.mode = 2 ∧
    (s.world.user.createEntityQueue = [] ∧ s.todo = [] ∧ s.incoming = [.createEntity [own]] ∨
      s.world.user.createEntityQueue = [] ∧ s.todo = [.createEntity own] ∧ s.incoming = [] ∨
      s.world.user.createEntityQueue = [own] ∧ s.todo = [] ∧ s.incoming = [])

/-- The world has the player's entity, and all that the server sends are answers to requests. -/
structure Joined (s : State F) : Prop where
  entity : s.world.entity.isSome
  incoming : ∀ creates, .createEntity creates ∉ s.incoming

/-- The create records of the packets that were received are in the world. -/
def State.Applied (s : State F) : Prop :=
  s.world.user.createEntityQueue = [] ∧ ∀ action ∈ s.todo, action.creates = []

/-- A request is sent only when the records before it are in the world. -/
def Quiet (s : State F) : Event F → Prop
  | .updateTimers (some _) =>
    s.world.entity.isSome → s.world.user.checkObjectsState = 1 → s.Applied
  | _ => True

instance [DecidableEq F] (s : State F) : Decidable s.Applied :=
  inferInstanceAs (Decidable (_ ∧ _))

instance [DecidableEq F] (s : State F) : (e : Event F) → Decidable (Quiet s e)
  | .updateTimers (some _) => inferInstanceAs (Decidable (_ → _ → s.Applied))
  | .updateTimers none => .isTrue trivial
  | .receivePacket | .perform | .updateDestroyEntities | .updateCreateEntities => .isTrue trivial
  | .updateRemoteControls _ | .objectsData _ _ => .isTrue trivial

/-- Nothing that is under way is in the world or twice under way, there is at most one permit, and a
request names all of the world while no record is under way. -/
structure Inv (s : State F) : Prop where
  nodup : (s.world.ids ++ s.pending).Nodup
  permits : s.permits ≤ 1
  known : ∀ objects ∈ s.requests, s.pending = [] ∧ s.world.ids ⊆ objects.ids

theorem Inv.mono {s s' : State F} (h : Inv s) (ids : s'.world.ids.Sublist s.world.ids)
    (pending : s'.pending = s.pending) (permits : s'.permits ≤ s.permits)
    (requests : s'.requests = s.requests) : Inv s' := by
  refine ⟨?_, permits.trans h.permits, ?_⟩
  · rw [pending]
    exact h.nodup.sublist (ids.append_right _)
  · intro objects hmem
    rw [requests] at hmem
    obtain ⟨hpending, hknown⟩ := h.known objects hmem
    exact ⟨pending.trans hpending, fun id hid => hknown (ids.subset hid)⟩

theorem Joined.creates_nil {s : State F} (h : Joined s) (applied : s.Applied)
    (hsets : s.ahead.countP Action.setsState = 0) : s.pending = [] := by
  obtain ⟨hqueue, htodo⟩ := applied
  rw [List.countP_eq_zero] at hsets
  have hnone : ∀ action ∈ s.ahead, action.creates = [] := by
    intro action hmem
    rcases List.mem_append.mp hmem with hmem | hmem
    · exact htodo action hmem
    · obtain ⟨message, hmessage, haction⟩ := List.mem_flatMap.mp hmem
      cases message with
      | createEntity creates => exact absurd hmessage (h.incoming creates)
      | transformEntity transforms =>
        obtain ⟨t, -, rfl⟩ := List.mem_map.mp haction
        rfl
      | objectsReply update =>
        refine absurd rfl (hsets (.setState update.state) ?_)
        exact List.mem_append_right _ (List.mem_flatMap.mpr ⟨_, hmessage, List.mem_cons_self⟩)
  rw [State.pending, hqueue, List.map_nil, List.nil_append, List.flatMap_eq_nil_iff]
  exact hnone

theorem perform_creates (user : User F) (action : Action F) :
    (user.perform action).createEntityQueue.map (·.sessionid) =
      user.createEntityQueue.map (·.sessionid) ++ action.creates := by
  cases action <;> simp [User.perform, Action.creates]

theorem perform_permits (user : User F) (action : Action F) :
    (if (user.perform action).checkObjectsState = 1 then 1 else 0) ≤
      (if user.checkObjectsState = 1 then 1 else 0) + if action.setsState then 1 else 0 := by
  cases action with
  | setState state =>
    show (if state = 1 then 1 else 0) ≤ _ + 1
    split <;> omega
  | createEntity c => exact Nat.le_add_right _ _
  | transformEntity t => exact Nat.le_add_right _ _
  | destroyEntity d => exact Nat.le_add_right _ _

theorem Inv.perform {s : State F} {action : Action F} {todo : List (Action F)} (h : Inv s)
    (htodo : s.todo = action :: todo) :
    Inv { s with world := { s.world with user := s.world.user.perform action }, todo } := by
  have permits := perform_permits s.world.user action
  refine h.mono (.refl _) ?_ ?_ rfl
  · simp only [State.pending, State.ahead, htodo, perform_creates, List.cons_append,
      List.flatMap_cons, List.append_assoc]
  · simp only [State.permits, State.ahead, htodo, List.cons_append, List.countP_cons]
    omega

section Runs

variable [Add F] [Sub F] [Mul F] [LE F] [DecidableLE F]

theorem Alone.step {s s' : State F} {e : Event F} (h : Alone s) (effect : Effect s e s') :
    Alone s' ∨ Joined s' := by
  obtain ⟨hobjects, hentity, hrequests, own, hmode, hown⟩ := h
  cases effect with
  | receivePacket htodo hincoming =>
    rcases hown with ⟨hqueue, -, hpacket⟩ | ⟨-, htodo', -⟩ | ⟨-, -, hnone⟩
    · rw [hpacket] at hincoming
      cases hincoming
      exact .inl ⟨hobjects, hentity, hrequests, own, hmode, .inr (.inl ⟨hqueue, rfl, rfl⟩)⟩
    · rw [htodo] at htodo'
      cases htodo'
    · rw [hnone] at hincoming
      cases hincoming
  | perform htodo =>
    rcases hown with ⟨-, htodo', -⟩ | ⟨hqueue, htodo', hincoming⟩ | ⟨-, htodo', -⟩
    · rw [htodo] at htodo'
      cases htodo'
    · rw [htodo] at htodo'
      cases htodo'
      refine .inl ⟨hobjects, hentity, hrequests, own, hmode, .inr (.inr ⟨?_, rfl, hincoming⟩)⟩
      simp [User.perform, hqueue]
    · rw [htodo] at htodo'
      cases htodo'
  | destroyed hsublist =>
    rw [hobjects] at hsublist
    exact .inl ⟨List.sublist_nil.mp hsublist, hentity, hrequests, own, hmode, hown⟩
  | created =>
    rcases hown with ⟨hqueue, hrest⟩ | ⟨hqueue, hrest⟩ | ⟨hqueue, htodo, hincoming⟩
    · rw [World.updateCreateEntities_nil hqueue]
      exact .inl ⟨hobjects, hentity, hrequests, own, hmode, .inl ⟨hqueue, hrest⟩⟩
    · rw [World.updateCreateEntities_nil hqueue]
      exact .inl ⟨hobjects, hentity, hrequests, own, hmode, .inr (.inl ⟨hqueue, hrest⟩)⟩
    · refine .inr ⟨?_, ?_⟩
      · simp [World.updateCreateEntities, World.create, World.instantiate, hqueue, hentity, hmode]
      · intro creates hmem
        rw [hincoming] at hmem
        cases hmem
  | moved move =>
    have hids := s.world.updateRemoteControls_ids move
    refine .inl ⟨?_, hentity, hrequests, own, hmode, hown⟩
    rw [World.ids, World.ids, hobjects] at hids
    exact List.map_eq_nil_iff.mp hids
  | waited timer => exact .inl ⟨hobjects, hentity, hrequests, own, hmode, hown⟩
  | requested clip hsome =>
    rw [hentity] at hsome
    cases hsome
  | answered map p hasked =>
    rw [hrequests] at hasked
    cases hasked

theorem Joined.step {s s' : State F} {e : Event F} (h : Joined s) (effect : Effect s e s') :
    Joined s' := by
  obtain ⟨hentity, hincoming⟩ := h
  cases effect with
  | receivePacket htodo hmessage =>
    refine ⟨hentity, fun creates hmem => hincoming creates ?_⟩
    rw [hmessage]
    exact List.mem_cons_of_mem _ hmem
  | perform htodo => exact ⟨hentity, hincoming⟩
  | destroyed hsublist => exact ⟨hentity, hincoming⟩
  | created =>
    refine ⟨?_, hincoming⟩
    rw [World.updateCreateEntities_eq hentity]
    exact hentity
  | moved move => exact ⟨hentity, hincoming⟩
  | waited timer => exact ⟨hentity, hincoming⟩
  | requested clip hsome hstate => exact ⟨hentity, hincoming⟩
  | answered map p hasked =>
    refine ⟨hentity, fun creates hmem => ?_⟩
    rcases List.mem_append.mp hmem with hmem | hmem
    · exact hincoming creates hmem
    · simp [answer] at hmem

theorem alone_or_joined {es : List (Event F)} {s : State F} (run : client.Run es s) :
    Alone s ∨ Joined s := by
  refine run.invariant (I := fun _ s => Alone s ∨ Joined s) ?_ ?_
  · rintro s ⟨radius, own, hmode, rfl⟩
    exact .inl ⟨rfl, rfl, rfl, own, hmode, .inl ⟨rfl, rfl, rfl⟩⟩
  · intro es s e s' _ h step
    rcases h with h | h
    · exact h.step (next_effect step)
    · exact .inr (h.step (next_effect step))

/-- `UpdateDestroyEntities`, the only one of the functions that could, never throws. -/
theorem updateDestroyEntities_defined {es : List (Event F)} {s : State F}
    (run : client.Run es s) : ∃ w, s.world.updateDestroyEntities = some w := by
  have place : s.world.entity.isSome ∨ s.world.objects = [] :=
    (alone_or_joined run).elim (fun h => .inr h.objects) fun h => .inl h.entity
  obtain ⟨objects, hobjects⟩ := World.destroyAll_defined place s.world.user.destroyEntityQueue
  rw [World.updateDestroyEntities, hobjects]
  exact ⟨_, rfl⟩

theorem answer_creates (map : EntityMap F) (p : Player F) (objects : ObjectsStruct F) :
    ((answer map p objects).flatMap Message.actions).flatMap Action.creates =
      (Send.objectsUpdate (Receive.objectsRound map p objects)).createEntities.map
        (·.sessionid) := by
  simp [answer, Message.actions, Action.creates]

theorem answer_sets (map : EntityMap F) (p : Player F) (objects : ObjectsStruct F) :
    ((answer map p objects).flatMap Message.actions).countP Action.setsState = 1 := by
  have none : ∀ actions : List (Action F), (∀ action ∈ actions, action.setsState = false) →
      actions.countP Action.setsState = 0 := fun actions h =>
    List.countP_eq_zero.mpr fun action hmem => by simp [h action hmem]
  simp only [answer, Message.actions, List.flatMap_cons, List.flatMap_nil, List.append_nil,
    List.cons_append, List.countP_cons]
  rw [none _ (by simp [Action.setsState, or_imp, forall_and])]
  rfl

theorem Inv.step {s s' : State F} {e : Event F} (h : Inv s) (place : Alone s ∨ Joined s)
    (quiet : Quiet s e) (effect : Effect s e s') : Inv s' := by
  cases effect with
  | receivePacket htodo hincoming =>
    refine h.mono (.refl _) ?_ (Nat.le_of_eq ?_) rfl
    · simp only [State.pending, State.ahead, htodo, hincoming, List.flatMap_cons, List.nil_append]
    · simp only [State.permits, State.ahead, htodo, hincoming, List.flatMap_cons, List.nil_append]
  | perform htodo => exact h.perform htodo
  | destroyed hsublist => exact h.mono (hsublist.map _) rfl (Nat.le_refl _) rfl
  | created =>
    have hids := s.world.updateCreateEntities_ids
    refine ⟨?_, h.permits, ?_⟩
    · -- The queue moves from what is under way to the world.
      refine (List.Perm.nodup_iff ?_).mp h.nodup
      show (s.world.ids ++ s.pending).Perm
        (s.world.updateCreateEntities.ids ++ ([] ++ s.ahead.flatMap Action.creates))
      rw [hids, State.pending, List.nil_append, ← List.append_assoc]
      exact ((List.reverse_perm _).symm.append_left _).append_right _
    · intro objects hmem
      obtain ⟨hpending, hknown⟩ := h.known objects hmem
      obtain ⟨hqueue, hahead⟩ := List.append_eq_nil_iff.mp hpending
      refine ⟨hahead, ?_⟩
      show s.world.updateCreateEntities.ids ⊆ objects.ids
      rw [hids, hqueue, List.reverse_nil, List.append_nil]
      exact hknown
  | moved move =>
    have hids := s.world.updateRemoteControls_ids move
    exact h.mono (hids ▸ .refl _) rfl (Nat.le_refl _) rfl
  | waited timer => exact h.mono (.refl _) rfl (Nat.le_refl _) rfl
  | requested clip hentity hstate =>
    have joined : Joined s := by
      rcases place with alone | joined
      · rw [alone.entity] at hentity
        cases hentity
      · exact joined
    have permits := h.permits
    rw [State.permits, if_pos hstate] at permits
    have hrequests : s.requests = [] := List.eq_nil_of_length_eq_zero (by omega)
    have hpending := joined.creates_nil (quiet hentity hstate) (by omega)
    refine ⟨h.nodup, ?_, ?_⟩
    · show 0 + (s.requests ++ [_]).length + s.ahead.countP Action.setsState ≤ 1
      rw [List.length_append, List.length_singleton]
      omega
    · intro objects hmem
      rw [hrequests, List.nil_append, List.mem_singleton] at hmem
      subst hmem
      exact ⟨hpending, List.Subset.refl _⟩
  | @answered map p objects requests hasked =>
    obtain ⟨hpending, hknown⟩ := h.known objects (hasked ▸ List.mem_cons_self)
    have permits := h.permits
    rw [State.permits, hasked, List.length_cons] at permits
    have hrequests : requests = [] := List.eq_nil_of_length_eq_zero (by omega)
    subst hrequests
    have nodup : s.world.ids.Nodup := h.nodup.sublist (List.sublist_append_left _ _)
    have ahead : s.todo ++ (s.incoming ++ answer map p.val objects).flatMap Message.actions =
        s.ahead ++ (answer map p.val objects).flatMap Message.actions := by
      rw [State.ahead, List.flatMap_append, List.append_assoc]
    refine ⟨?_, ?_, nofun⟩
    · have pending : State.pending { s with
          requests := [], incoming := s.incoming ++ answer map p.val objects } = s.pending ++
          (Send.objectsUpdate (Receive.objectsRound map p.val objects)).createEntities.map
            (·.sessionid) := by
        rw [State.pending, State.ahead, ahead, List.flatMap_append, ← List.append_assoc,
          answer_creates, State.pending]
      rw [pending, hpending, List.nil_append]
      exact Receive.objectsUpdate_creates p.property map objects nodup hknown
    · rw [State.permits, State.ahead, ahead, List.countP_append, answer_sets, List.length_nil]
      dsimp only
      omega

/-- While requests wait for the records before them, the world never shows an entity twice. -/
theorem objects_nodup {es : List (Event F)} {s : State F}
    (run : (client.restrict Quiet).Run es s) : s.world.ids.Nodup := by
  have inv : Inv s := by
    refine run.invariant (I := fun _ s => Inv s) ?_ ?_
    · rintro s ⟨radius, own, -, rfl⟩
      exact ⟨List.nodup_cons.mpr ⟨nofun, List.nodup_nil⟩, Nat.le_refl _, nofun⟩
    · intro es s e s' run h step
      obtain ⟨quiet, step⟩ := step
      exact h.step (alone_or_joined run.of_restrict) quiet (next_effect step)
  exact inv.nodup.sublist (List.sublist_append_left _ _)

end Runs

def frame : List (Event Int) :=
  [.updateDestroyEntities, .updateCreateEntities,
    .updateRemoteControls fun obj => (obj.toTransform, ⟨none, []⟩), .updateTimers (some 10)]

def answered : Event Int :=
  .objectsData Receive.inSight ⟨Receive.observer, Receive.observer_settled⟩

/-- The player's entity is created, the server answers the first request, and the reply is
received. -/
def firstReply : List (Event Int) :=
  [.receivePacket, .perform] ++ frame ++ [answered, .receivePacket]

def patient : List (Event Int) := firstReply ++ [.perform, .perform] ++ frame

/-- The world is updated between the first and the second step of the reply. -/
def hasty : List (Event Int) :=
  firstReply ++ [.perform] ++ frame ++
    [.perform, answered, .receivePacket, .perform, .receivePacket,
      .perform, .perform] ++ frame

def firstState : State Int := State.start 0 (Receive.atOrigin 1).castCreateEntityStruct

theorem patient_nodup : ∃ s, (client.restrict Quiet).Run patient s ∧ s.world.ids = [1, 2] ∧
    s.world.ids.Nodup := by
  have start : (client.restrict Quiet).Run [] firstState := .nil ⟨_, _, rfl, rfl⟩
  have sound : ∀ (s : State Int) e s', (if Quiet s e then next s e else none) = some s' →
      (client.restrict Quiet).step s e s' := by
    intro s e s' h
    split at h
    · rename_i quiet
      exact ⟨quiet, h⟩
    · cases h
  obtain ⟨s, hexec, hids⟩ : ∃ s, System.exec (fun s e => if Quiet s e then next s e else none)
      firstState patient = some s ∧ s.world.ids = [1, 2] := ⟨_, rfl, rfl⟩
  have run := start.of_exec sound hexec
  exact ⟨s, run, hids, objects_nodup run⟩

/-- An update between the two steps leaves the second player twice in the world. -/
theorem hasty_duplicate : ∃ s, client.Run hasty s ∧ s.world.ids = [1, 2, 2] ∧
    ¬s.world.ids.Nodup := by
  have start : client.Run [] firstState := .nil ⟨_, _, rfl, rfl⟩
  obtain ⟨s, hexec, hids⟩ : ∃ s, System.exec next firstState hasty = some s ∧
      s.world.ids = [1, 2, 2] := ⟨_, rfl, rfl⟩
  refine ⟨s, start.of_exec (fun _ _ _ h => h) hexec, hids, ?_⟩
  rw [hids]
  decide

end Starfall.Unity
