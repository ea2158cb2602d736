import Starfall.ProofKit.Exchange
import Starfall.Unity.Network

/-! Synchronisation over whole rounds.  A round in which an id is stale only removes objects, and
one in which no id is stale only adds the entities that are missing: for the ids, a round is an
exchange with the keys of the entity map.  So two rounds make the ids of the client those of the
entity map, and a further one changes nothing. -/

namespace Starfall.Unity

open ProofKit.Exchange ProofKit.Runs Receive

variable {F : Type}

theorem destroyAll_stale {map : EntityMap F} {own : Entity F} {objects : List (Entity F)}
    (nodup : (objects.map Entity.sessionid).Nodup) (hown : own.sessionid ∈ map.keys) :
    World.destroyAll (some own) objects (map.entities.flatMap fun _ =>
        (staleIds map (objects.map Entity.sessionid)).map DestroyEntityStruct.mk) =
      some (objects.filter fun obj => obj.sessionid ∈ map.keys) := by
  rw [World.destroyAll_eq nodup]
  congr 1
  apply List.filter_congr
  intro obj hobj
  have hid : obj.sessionid ∈ objects.map Entity.sessionid := List.mem_map_of_mem hobj
  obtain ⟨e, he, -⟩ := List.mem_map.mp hown
  rw [decide_eq_decide]
  constructor
  · rintro (heq | hqueue)
    · exact heq ▸ hown
    · by_contra hfiled
      exact hqueue (List.mem_flatMap.mpr
        ⟨e, he, List.mem_map_of_mem (mem_staleIds.mpr ⟨hid, hfiled⟩)⟩)
  · intro hfiled
    refine .inr fun hqueue => ?_
    obtain ⟨e, -, hmem⟩ := List.mem_flatMap.mp hqueue
    obtain ⟨id, hstale, hd⟩ := List.mem_map.mp hmem
    cases hd
    exact (mem_staleIds.mp hstale).2 hfiled

section Rounds

variable [Add F] [Sub F] [Mul F] [LE F] [DecidableLE F]

/-- A round: the request of the world, the reply of `ObjectsData` and what `ObjectsReply` does with
it, and the two updates.  It needs a world that may send a request. -/
def round (map : EntityMap F) (farClipPlane : F) (s : World F × Player F) :
    Option (World F × Player F) := do
  let (w, request) := s.1.updateSession farClipPlane
  let p := objectsRound map s.2 (← request)
  let actions := (Message.objectsReply (Send.objectsUpdate p)).actions
  let w ← { w with user := actions.foldl User.perform w.user }.updateDestroyEntities
  pure (w.updateCreateEntities, p.clearAll)

/-- A world and a player between two rounds: the player's entity is shown and filed, nothing is
shown twice, nothing is under way, and all that is filed is in sight. -/
structure Ready (map : EntityMap F) (farClipPlane : F) (w : World F) (p : Player F) : Prop where
  state : w.user.checkObjectsState = 1
  creates : w.user.createEntityQueue = []
  destroys : w.user.destroyEntityQueue = []
  settled : p.Settled
  own : ∃ own, w.entity = some own ∧ own.sessionid ∈ w.ids ∧ own.sessionid ∈ map.keys
  nodup : w.ids.Nodup
  sees : ∀ e ∈ map.entities, { p with farClipDistance := farClipPlane }.sees e.position

def request (farClipPlane : F) (w : World F) : ObjectsStruct F := ⟨1, farClipPlane, w.ids⟩

/-- The world that a round leaves: what is filed stays, what is created is added from its end. -/
def synced (map : EntityMap F) (farClipPlane : F) (w : World F) (p : Player F) : World F :=
  { w with
    objects := w.objects.filter (fun obj => obj.sessionid ∈ map.keys) ++
      ((created map w.ids (requesting p (request farClipPlane w))).map fun e =>
        World.instantiate w.entity e.castCreateEntityStruct).reverse
    user := { w.user with checkObjectsRadius := farClipPlane } }

theorem round_eq {map : EntityMap F} {farClipPlane : F} {w : World F} {p : Player F}
    (h : Ready map farClipPlane w p) :
    round map farClipPlane (w, p) =
      some (synced map farClipPlane w p, requesting p (request farClipPlane w)) := by
  obtain ⟨own, hentity, -, hown⟩ := h.own
  have hsession : w.updateSession farClipPlane =
      ({ w with user := { w.user with
        checkObjectsRadius := farClipPlane, checkObjectsState := 0 } },
        some (request farClipPlane w)) := by
    simp [World.updateSession, h.state, request]
  have hclear : (objectsRound map p (request farClipPlane w)).clearAll =
      requesting p (request farClipPlane w) := by
    obtain ⟨creates, destroys, transforms, hround⟩ :=
      objectsRound_push map p (request farClipPlane w)
    obtain ⟨hcreates, hdestroys, htransforms⟩ := h.settled
    rw [hround]
    simp [Player.clearAll, Player.push, requesting, ← hcreates, ← hdestroys, ← htransforms]
  rw [round, hsession]
  dsimp only [Option.bind_eq_bind, Option.bind_some]
  rw [perform_reply _ { w.user with
      checkObjectsRadius := farClipPlane, checkObjectsState := 0 } h.creates h.destroys,
    objectsUpdate_round h.settled, hclear, World.updateDestroyEntities]
  dsimp only [request]
  rw [hentity, World.ids, destroyAll_stale h.nodup hown]
  dsimp only [Option.bind_eq_bind, Option.bind_some, Option.pure_def]
  rw [World.updateCreateEntities_eq rfl]
  simp [synced, request, hentity, World.ids, h.state, h.creates, h.destroys]

theorem exec_perform (s : State F) {actions : List (Action F)} (h : s.todo = actions) :
    System.exec next s (List.replicate actions.length .perform) = some { s with
      world := { s.world with user := actions.foldl User.perform s.world.user }, todo := [] } := by
  induction actions generalizing s with
  | nil =>
    obtain ⟨world, phase, todo, incoming, requests⟩ := s
    cases h
    rfl
  | cons action actions ih =>
    have hstep : next s .perform = some { s with
        world := { s.world with user := s.world.user.perform action }, todo := actions } := by
      simp only [next, h]
    rw [List.length_cons, List.replicate_succ, System.exec, hstep, Option.bind_some, ih _ rfl]
    rfl

/-- A round is a run of the client in which the threads and the server take turns. -/
theorem round_exec {map : EntityMap F} {farClipPlane : F} {w w' : World F} {p p' : Player F}
    (settled : p.Settled) (hentity : w.entity.isSome)
    (h : round map farClipPlane (w, p) = some (w', p')) :
    ∃ es transforms, System.exec next ⟨w, .timers, [], [], []⟩ es =
      some ⟨w', .remoteControls, [], [.transformEntity transforms], []⟩ := by
  obtain ⟨own, hown⟩ := Option.isSome_iff_exists.mp hentity
  simp only [round, Option.bind_eq_bind, Option.bind_eq_some_iff, Option.pure_def,
    Option.some.injEq] at h
  obtain ⟨objects, hrequest, w1, hdestroy, heq⟩ := h
  cases heq
  have htimers : next ⟨w, .timers, [], [], []⟩ (.updateTimers (some farClipPlane)) =
      some ⟨(w.updateSession farClipPlane).1, .destroyEntities, [], [], [objects]⟩ := by
    simp only [next, World.updateTimers, hown, if_true, hrequest, Option.toList_some,
      List.nil_append]
  refine ⟨[.updateTimers (some farClipPlane), .objectsData map ⟨p, settled⟩, .receivePacket] ++
    List.replicate (Message.objectsReply
      (Send.objectsUpdate (objectsRound map p objects))).actions.length .perform ++
    [.updateDestroyEntities, .updateCreateEntities],
    (objectsRound map p objects).transformEntityQueue, ?_⟩
  have hreceive : System.exec next ⟨w, .timers, [], [], []⟩ [.updateTimers (some farClipPlane),
      .objectsData map ⟨p, settled⟩, .receivePacket] = some ⟨(w.updateSession farClipPlane).1,
        .destroyEntities,
        (Message.objectsReply (Send.objectsUpdate (objectsRound map p objects))).actions,
        [.transformEntity (objectsRound map p objects).transformEntityQueue], []⟩ := by
    rw [System.exec, htimers]
    rfl
  rw [System.exec_append (System.exec_append hreceive _ |>.trans (exec_perform _ rfl))]
  simp only [System.exec, next, if_true, hdestroy, Option.map_some, Option.bind_some]

section Synced

variable {map : EntityMap F} {farClipPlane : F} {w : World F} {p : Player F}

theorem synced_ids :
    (synced map farClipPlane w p).ids = w.ids.filter (· ∈ map.keys) ++
      ((created map w.ids (requesting p (request farClipPlane w))).map
        Starfall.Entity.sessionid).reverse := by
  simp [synced, World.ids, List.filter_map, Function.comp_def, World.instantiate,
    Starfall.Entity.castCreateEntityStruct]

theorem mem_synced_ids {id : UInt32} :
    id ∈ (synced map farClipPlane w p).ids ↔ (id ∈ w.ids ∧ id ∈ map.keys) ∨
      ∃ e ∈ created map w.ids (requesting p (request farClipPlane w)), e.sessionid = id := by
  simp [synced_ids]

/-- For the ids, a round is an exchange with the keys of the entity map. -/
theorem synced_exchange (h : Ready map farClipPlane w p) :
    {id | id ∈ (synced map farClipPlane w p).ids} =
      exchange {id | id ∈ map.keys} {id | id ∈ w.ids} := by
  ext id
  show id ∈ (synced map farClipPlane w p).ids ↔
    id ∈ map.keys ∧ (id ∈ w.ids ∨ ∀ id ∈ w.ids, id ∈ map.keys)
  rw [mem_synced_ids, ← staleIds_eq_nil]
  constructor
  · rintro (⟨hshown, hfiled⟩ | ⟨e, he, rfl⟩)
    · exact ⟨hfiled, .inl hshown⟩
    · obtain ⟨hfiled, ⟨hstale, -⟩, -⟩ := mem_created.mp he
      exact ⟨mem_keys hfiled, .inr hstale⟩
  · rintro ⟨hfiled, hshown | hstale⟩
    · exact .inl ⟨hshown, hfiled⟩
    · by_cases hshown : id ∈ w.ids
      · exact .inl ⟨hshown, hfiled⟩
      · obtain ⟨e, he, rfl⟩ := List.mem_map.mp hfiled
        exact .inr ⟨e, mem_created.mpr ⟨he, ⟨hstale, hshown⟩, h.sees e he⟩, rfl⟩

theorem Ready.synced (h : Ready map farClipPlane w p) :
    Ready map farClipPlane (synced map farClipPlane w p)
      (requesting p (request farClipPlane w)) where
  state := h.state
  creates := h.creates
  destroys := h.destroys
  settled := h.settled
  own := by
    obtain ⟨own, hentity, hshown, hfiled⟩ := h.own
    exact ⟨own, hentity, mem_synced_ids.mpr (.inl ⟨hshown, hfiled⟩), hfiled⟩
  nodup := by
    rw [synced_ids, List.nodup_append]
    refine ⟨h.nodup.filter _, ?_, ?_⟩
    · rw [(List.reverse_perm _).nodup_iff]
      exact map.nodup.sublist (List.filter_sublist.map _)
    · rintro id hid _ hcreated rfl
      obtain ⟨e, he, rfl⟩ := List.mem_map.mp (List.mem_reverse.mp hcreated)
      exact (mem_created.mp he).2.1.2 (List.mem_filter.mp hid).1
  sees := h.sees

/-- A round changes nothing when the ids are those of the entity map and the player knows the far
clip distance. -/
theorem synced_fixed (farClipPlane : F) (ids : ∀ id, id ∈ w.ids ↔ id ∈ map.keys)
    (radius : w.user.checkObjectsRadius = farClipPlane) : synced map farClipPlane w p = w := by
  have none : created map w.ids (requesting p (request farClipPlane w)) = [] := by
    rw [List.eq_nil_iff_forall_not_mem]
    intro e he
    obtain ⟨hfiled, ⟨-, hnew⟩, -⟩ := mem_created.mp he
    exact hnew ((ids e.sessionid).mpr (mem_keys hfiled))
  have all : w.objects.filter (fun obj => obj.sessionid ∈ map.keys) = w.objects := by
    rw [List.filter_eq_self]
    intro obj hobj
    simpa using (ids obj.sessionid).mp (List.mem_map_of_mem hobj)
  rw [synced, none, all, ← radius]
  simp

end Synced

theorem round_refines (map : EntityMap F) (farClipPlane : F) :
    Refines (round map farClipPlane) (fun s => Ready map farClipPlane s.1 s.2)
      (fun s => {id | id ∈ s.1.ids}) {id | id ∈ map.keys} := by
  rintro ⟨w, p⟩ h
  exact ⟨_, round_eq h, h.synced, synced_exchange h⟩

/-- After two rounds the client shows what is filed, nothing twice, and no further round changes the
world or the player. -/
theorem rounds_converge {map : EntityMap F} {farClipPlane : F} {w : World F} {p : Player F}
    (h : Ready map farClipPlane w p) :
    ∃ s, rounds (round map farClipPlane) 2 (w, p) = some s ∧ s.1.ids.Nodup ∧
      (∀ id, id ∈ s.1.ids ↔ id ∈ map.keys) ∧
      ∀ n, rounds (round map farClipPlane) n s = some s := by
  obtain ⟨⟨w1, p1⟩, s2, ready1, hs2, htwo, ready2, hview⟩ :=
    (round_refines map farClipPlane).two_rounds (s := (w, p)) h
  have ids : ∀ id, id ∈ s2.1.ids ↔ id ∈ map.keys := fun id => Set.ext_iff.mp hview id
  refine ⟨s2, htwo, ready2.nodup, ids, fun n => rounds_fixed ?_ n⟩
  rw [round_eq ready1] at hs2
  cases hs2
  rw [round_eq ready2, synced_fixed farClipPlane ids rfl]
  rfl

end Rounds

def ownEntity : Entity Int :=
  World.instantiate none (atOrigin 1).castCreateEntityStruct

/-- A world with an entity that the server does not have, and without one that it has. -/
def staleWorld : World Int where
  objects := [ownEntity, World.instantiate (some ownEntity) (atOrigin 9).castCreateEntityStruct]
  entity := some ownEntity
  user := ⟨1, 0, [], [], []⟩

theorem staleWorld_ready : Ready inSight 10 staleWorld observer where
  state := rfl
  creates := rfl
  destroys := rfl
  settled := observer_settled
  own := ⟨ownEntity, rfl, by decide, by decide⟩
  nodup := by decide
  sees := by decide

theorem staleWorld_converges : ∃ s, rounds (round inSight 10) 2 (staleWorld, observer) = some s ∧
    ∀ id, id ∈ s.1.ids ↔ id = 1 ∨ id = 2 := by
  obtain ⟨s, hrounds, -, hids, -⟩ := rounds_converge staleWorld_ready
  refine ⟨s, hrounds, fun id => (hids id).trans ?_⟩
  simp [EntityMap.keys, inSight, atOrigin]

end Starfall.Unity
