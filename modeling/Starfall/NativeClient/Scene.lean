import Starfall.Common.Registry
import Starfall.ProofKit.Batches

/-! `WorldScene.cpp`: the game objects that the native client shows, and the entities that it
files for them.  `ObjectsReply` inserts its records at the front of the player's queues, and
`update` copies the queues and leaves them full.  So every tick goes through all the records that
were ever received, first those that create and then those that destroy. -/

namespace Starfall.NativeClient

open ProofKit.Runs ProofKit.Batches

variable {F : Type}

/-- A `WorldScene` with what it works on: the entities and `Entity::Map`, and the player's entity
and queues.  A game object is the pointer to its entity. -/
structure WorldScene (F : Type) where
  registry : Registry F
  objectsMap : HashMap Nat
  pEntity : Nat
  createEntityQueue : List (CreateEntityStruct F)
  destroyEntityQueue : List DestroyEntityStruct

namespace WorldScene

/-- The session id of the player's entity. -/
def own (s : WorldScene F) : Option UInt32 := s.registry.sessionid s.pEntity

/-- A round of the loop over the create records, in which `isLoggedIn` returns `loggedIn`.  A new
entity has the transform that `glm` gives it. -/
def createRound (transform : Transform F) (loggedIn : Bool) (s : WorldScene F)
    (it : CreateEntityStruct F) : WorldScene F :=
  if it.sessionid ∈ s.objectsMap then
    s
  else if loggedIn ∧ s.own = some it.sessionid then
    { s with objectsMap := s.objectsMap.insert it.sessionid s.pEntity }
  else
    let (pEntity, registry) := s.registry.create transform it.sessionid
    { s with registry, objectsMap := s.objectsMap.insert it.sessionid pEntity }

/-- The loop over the create records.  A reply to a login may come between two rounds. -/
def createRounds (transform : Transform F) :
    (Nat → Bool) → List (CreateEntityStruct F) → WorldScene F → WorldScene F
  | _, [], s => s
  | loggedIn, it :: queue, s =>
    createRounds transform (loggedIn ∘ Nat.succ) queue (createRound transform (loggedIn 0) s it)

def destroyRound (s : WorldScene F) (it : DestroyEntityStruct) : WorldScene F :=
  if it.sessionid ∈ s.objectsMap then
    { s with objectsMap := s.objectsMap.erase it.sessionid }
  else
    s

/-- A tick of `update`.  The loop over the transform records has no effect. -/
def update (transform : Transform F) (loggedIn : Nat → Bool) (s : WorldScene F) : WorldScene F :=
  s.destroyEntityQueue.foldl destroyRound
    (createRounds transform loggedIn s.createEntityQueue s)

/-- `ClientReceiver::ObjectsReply`, with the records that it has read. -/
def objectsReply (s : WorldScene F) (updateStruct : ObjectsUpdateStruct F) : WorldScene F :=
  { s with
    createEntityQueue := updateStruct.createEntities ++ s.createEntityQueue
    destroyEntityQueue := updateStruct.destroyEntities ++ s.destroyEntityQueue }

/-- A packet, or a tick.  A tick stands where it copies the queues under their mutex: a packet that
is handled behind that copy, while the tick still works on it, counts as after the tick. -/
inductive Event (F : Type)
  | objectsReply (updateStruct : ObjectsUpdateStruct F)
  | update (transform : Transform F) (loggedIn : Nat → Bool)

def next (s : WorldScene F) : Event F → WorldScene F
  | .objectsReply updateStruct => s.objectsReply updateStruct
  | .update transform loggedIn => s.update transform loggedIn

/-- A scene without game objects, and a new player. -/
def scene : System (WorldScene F) (Event F) where
  init s := ∃ (r : Registry F) (transform : Transform F), r.map = ∅ ∧
    s = ⟨(r.createPlayer transform).2, ∅, (r.createPlayer transform).1, [], []⟩
  step s e s' := s' = next s e

/-- The ids that each packet creates and destroys, in the order of arrival. -/
def received (es : List (Event F)) : List (Batch UInt32) :=
  es.flatMap fun
    | .objectsReply updateStruct => [⟨updateStruct.createEntities.map (·.sessionid),
        updateStruct.destroyEntities.map (·.sessionid)⟩]
    | .update _ _ => []

/-- What a round can do: nothing for an id that is shown, or else a game object for the player's
entity or for a new one. -/
theorem createRound_cases (transform : Transform F) (loggedIn : Bool) (s : WorldScene F)
    (it : CreateEntityStruct F) :
    (it.sessionid ∈ s.objectsMap ∧ createRound transform loggedIn s it = s) ∨
    (it.sessionid ∉ s.objectsMap ∧ s.own = some it.sessionid ∧
      createRound transform loggedIn s it =
        { s with objectsMap := s.objectsMap.insert it.sessionid s.pEntity }) ∨
    (it.sessionid ∉ s.objectsMap ∧ createRound transform loggedIn s it = { s with
      registry := (s.registry.create transform it.sessionid).2
      objectsMap := s.objectsMap.insert it.sessionid s.registry.heap.length }) := by
  unfold createRound
  by_cases hshown : it.sessionid ∈ s.objectsMap
  · exact .inl ⟨hshown, if_pos hshown⟩
  rw [if_neg hshown]
  by_cases hown : loggedIn = true ∧ s.own = some it.sessionid
  · exact .inr (.inl ⟨hshown, hown.2, if_pos hown⟩)
  · exact .inr (.inr ⟨hshown, if_neg hown⟩)

theorem createRound_objectsMap (transform : Transform F) (loggedIn : Bool) (s : WorldScene F)
    (it : CreateEntityStruct F) {id : UInt32} :
    id ∈ (createRound transform loggedIn s it).objectsMap ↔
      id = it.sessionid ∨ id ∈ s.objectsMap := by
  rcases createRound_cases transform loggedIn s it with ⟨hshown, h⟩ | ⟨-, -, h⟩ | ⟨-, h⟩
  · rw [h]
    exact ⟨.inr, fun hid => hid.elim (fun heq => heq ▸ hshown) fun hmem => hmem⟩
  · rw [h]
    exact AList.mem_insert _
  · rw [h]
    exact AList.mem_insert _

theorem createRounds_objectsMap (transform : Transform F) (loggedIn : Nat → Bool)
    (queue : List (CreateEntityStruct F)) (s : WorldScene F) {id : UInt32} :
    id ∈ (createRounds transform loggedIn queue s).objectsMap ↔
      id ∈ s.objectsMap ∨ id ∈ queue.map (·.sessionid) := by
  induction queue generalizing loggedIn s with
  | nil => simp [createRounds]
  | cons it queue ih =>
    rw [createRounds, ih, createRound_objectsMap, List.map_cons, List.mem_cons, or_assoc,
      or_left_comm]

theorem destroyRounds_objectsMap (queue : List DestroyEntityStruct) (s : WorldScene F)
    {id : UInt32} : id ∈ (queue.foldl destroyRound s).objectsMap ↔
      id ∈ s.objectsMap ∧ id ∉ queue.map (·.sessionid) := by
  induction queue generalizing s with
  | nil => simp
  | cons it queue ih =>
    have round : id ∈ (destroyRound s it).objectsMap ↔ id ≠ it.sessionid ∧ id ∈ s.objectsMap := by
      unfold destroyRound
      split
      · exact AList.mem_erase
      · rename_i hmem
        exact ⟨fun h => ⟨fun heq => hmem (heq ▸ h), h⟩, And.right⟩
    rw [List.foldl_cons, ih, round, List.map_cons, List.mem_cons, not_or, and_comm (a := id ≠ _),
      and_assoc]

theorem createRounds_preserves {P : WorldScene F → Prop} {transform : Transform F}
    {queue : List (CreateEntityStruct F)}
    (round : ∀ loggedIn s, ∀ it ∈ queue, P s → P (createRound transform loggedIn s it))
    (loggedIn : Nat → Bool) {s : WorldScene F} (h : P s) :
    P (createRounds transform loggedIn queue s) := by
  induction queue generalizing loggedIn s with
  | nil => exact h
  | cons it queue ih =>
    exact ih (fun loggedIn s it' hit => round loggedIn s it' (List.mem_cons_of_mem _ hit)) _
      (round (loggedIn 0) s it List.mem_cons_self h)

theorem destroyRounds_preserves {P : WorldScene F → Prop} {queue : List DestroyEntityStruct}
    (round : ∀ s, ∀ it ∈ queue, P s → P (destroyRound s it)) {s : WorldScene F} (h : P s) :
    P (queue.foldl destroyRound s) := by
  induction queue generalizing s with
  | nil => exact h
  | cons it queue ih =>
    exact ih (fun s it' hit => round s it' (List.mem_cons_of_mem _ hit))
      (round s it List.mem_cons_self h)

/-- What the rounds of both loops preserve is preserved by a tick. -/
theorem update_preserves {P : WorldScene F → Prop} {transform : Transform F} {s : WorldScene F}
    (createStep : ∀ loggedIn s', ∀ it ∈ s.createEntityQueue, P s' →
      P (createRound transform loggedIn s' it))
    (destroyStep : ∀ s', ∀ it ∈ s.destroyEntityQueue, P s' → P (destroyRound s' it))
    (loggedIn : Nat → Bool) (h : P s) : P (s.update transform loggedIn) :=
  destroyRounds_preserves destroyStep (createRounds_preserves createStep loggedIn h)

theorem update_queues (transform : Transform F) (loggedIn : Nat → Bool) (s : WorldScene F) :
    (s.update transform loggedIn).createEntityQueue = s.createEntityQueue ∧
      (s.update transform loggedIn).destroyEntityQueue = s.destroyEntityQueue := by
  refine update_preserves (P := fun s' => s'.createEntityQueue = s.createEntityQueue ∧
    s'.destroyEntityQueue = s.destroyEntityQueue) ?_ ?_ loggedIn ⟨rfl, rfl⟩
  · intro loggedIn s' it _ h
    rcases createRound_cases transform loggedIn s' it with ⟨-, hround⟩ | ⟨-, -, hround⟩ |
        ⟨-, hround⟩
    · rwa [hround]
    · rwa [hround]
    · rwa [hround]
  · intro s' it _ h
    unfold destroyRound
    split
    · exact h
    · exact h

/-- A tick shows what is in the records that create and in none of those that destroy, and what was
shown before and is in none of those. -/
theorem update_objectsMap (transform : Transform F) (loggedIn : Nat → Bool) (s : WorldScene F)
    {id : UInt32} : id ∈ (s.update transform loggedIn).objectsMap ↔
      (id ∈ s.objectsMap ∨ id ∈ s.createEntityQueue.map (·.sessionid)) ∧
        id ∉ s.destroyEntityQueue.map (·.sessionid) := by
  rw [update, destroyRounds_objectsMap, createRounds_objectsMap]

theorem received_objectsReply (es : List (Event F)) (updateStruct : ObjectsUpdateStruct F) :
    received (es ++ [.objectsReply updateStruct]) = received es ++
      [⟨updateStruct.createEntities.map (·.sessionid),
        updateStruct.destroyEntities.map (·.sessionid)⟩] := by
  simp [received]

theorem received_update (es : List (Event F)) (transform : Transform F) (loggedIn : Nat → Bool) :
    received (es ++ [.update transform loggedIn]) = received es := by
  simp [received]

/-- The queues have the records of all the packets, and no other entity was ever shown. -/
structure Queued (packets : List (Batch UInt32)) (s : WorldScene F) : Prop where
  creates : ∀ id, id ∈ s.createEntityQueue.map (·.sessionid) ↔ id ∈ added packets
  destroys : ∀ id, id ∈ s.destroyEntityQueue.map (·.sessionid) ↔ id ∈ removed packets
  shown : ∀ id ∈ s.objectsMap, id ∈ added packets

section Queues

variable {packets : List (Batch UInt32)} {s : WorldScene F}

/-- A tick shows all that was ever created and not what was ever destroyed. -/
theorem Queued.mem_update (h : Queued packets s) (transform : Transform F) (loggedIn : Nat → Bool)
    {id : UInt32} : id ∈ (s.update transform loggedIn).objectsMap ↔ id ∈ merged packets := by
  rw [update_objectsMap, h.creates, h.destroys, mem_merged, or_iff_right_of_imp (h.shown id)]

theorem Queued.objectsReply (h : Queued packets s) (updateStruct : ObjectsUpdateStruct F) :
    Queued (packets ++ [⟨updateStruct.createEntities.map (·.sessionid),
      updateStruct.destroyEntities.map (·.sessionid)⟩]) (s.objectsReply updateStruct) := by
  refine ⟨fun id => ?_, fun id => ?_, fun id hid => ?_⟩
  · simp only [WorldScene.objectsReply, added, List.map_append, List.mem_append,
      List.flatMap_append, List.flatMap_singleton]
    rw [h.creates, added, or_comm]
  · simp only [WorldScene.objectsReply, removed, List.map_append, List.mem_append,
      List.flatMap_append, List.flatMap_singleton]
    rw [h.destroys, removed, or_comm]
  · rw [added, List.flatMap_append]
    exact List.mem_append_left _ (h.shown id hid)

theorem Queued.update (h : Queued packets s) (transform : Transform F) (loggedIn : Nat → Bool) :
    Queued packets (s.update transform loggedIn) := by
  obtain ⟨hcreate, hdestroy⟩ := update_queues transform loggedIn s
  refine ⟨?_, ?_, fun id hid => (mem_merged.mp ((h.mem_update transform loggedIn).mp hid)).1⟩
  · rw [hcreate]
    exact h.creates
  · rw [hdestroy]
    exact h.destroys

end Queues

theorem scene_queued {es : List (Event F)} {s : WorldScene F} (run : scene.Run es s) :
    Queued (received es) s := by
  refine run.invariant (I := fun es s => Queued (received es) s) ?_ ?_
  · rintro s ⟨r, transform, -, rfl⟩
    exact ⟨by simp [received, added], by simp [received, removed],
      fun id hid => absurd hid (AList.notMem_empty id)⟩
  · rintro es s e s' - h rfl
    cases e with
    | objectsReply updateStruct =>
      rw [received_objectsReply]
      exact h.objectsReply updateStruct
    | update transform loggedIn =>
      rw [received_update]
      exact h.update transform loggedIn

/-- After a tick the objects are those that the packets leave, each applied once and in the order of
arrival, exactly when no id that one of them destroys returns with a later one. -/
theorem applied_once_iff (es : List (Event F)) (s s' : WorldScene F) (transform : Transform F)
    (loggedIn : Nat → Bool) (run : scene.Run es s)
    (tick : scene.step s (.update transform loggedIn) s') :
    {id | id ∈ s'.objectsMap} = applied (received es) ↔ NoneReturns (received es) := by
  rw [← merged_eq_applied_iff, tick]
  have shown : {id | id ∈ (next s (.update transform loggedIn)).objectsMap} =
      merged (received es) := by
    ext id
    exact (scene_queued run).mem_update transform loggedIn
  rw [shown]

/-- A new player with the id 1, in an empty scene. -/
def newScene : WorldScene UInt32 :=
  let (pEntity, registry) := Registry.empty.createPlayer ⟨⟨0, 0, 0⟩, ⟨0, 0, 0, 1⟩⟩
  ⟨registry, ∅, pEntity, [], []⟩

theorem newScene_init : scene.init newScene := ⟨.empty, _, rfl, rfl⟩

def appears : Event UInt32 :=
  .objectsReply ⟨1, 0, [⟨⟨⟨0, 0, 0⟩, ⟨0, 0, 0, 1⟩⟩, 2, 2, []⟩], []⟩

def disappears : Event UInt32 := .objectsReply ⟨1, 0, [], [⟨2⟩]⟩

def tick : Event UInt32 := .update ⟨⟨0, 0, 0⟩, ⟨0, 0, 0, 1⟩⟩ fun _ => true

theorem appears_applied : ∃ s s', scene.Run [appears] s ∧ scene.step s tick s' ∧
    {id | id ∈ s'.objectsMap} = applied (received [appears]) := by
  have run := (System.Run.nil newScene_init).snoc (l := appears) rfl
  refine ⟨_, _, run, rfl, (applied_once_iff _ _ _ _ _ run rfl).mpr ?_⟩
  intro before b after hsplit id hbefore
  cases before with
  | nil => cases hbefore
  | cons first before =>
    have hlength := congrArg List.length hsplit
    simp [received, appears] at hlength

/-- An entity that comes back is not shown again. -/
theorem returns_hidden : ∃ s s', scene.Run [appears, disappears, appears] s ∧
    scene.step s tick s' ∧ 2 ∈ applied (received [appears, disappears, appears]) ∧
    2 ∉ s'.objectsMap := by
  have run := (((System.Run.nil newScene_init).snoc (l := appears) rfl).snoc (l := disappears)
    rfl).snoc (l := appears) rfl
  refine ⟨_, _, run, rfl, ?_, ?_⟩
  · exact mem_applied.mpr ⟨[⟨[2], []⟩, ⟨[], [2]⟩], ⟨[2], []⟩, [], rfl, by simp, by simp,
      List.not_mem_nil⟩
  · rw [tick, next, (scene_queued run).mem_update, mem_merged]
    exact fun h => h.2 (by decide)

end WorldScene

end Starfall.NativeClient
