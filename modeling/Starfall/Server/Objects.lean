import Starfall.Server.Receive

/-! The rounds of `ObjectsData`.  A round adds to the queues, for each entity of the map, the create
record of the entity, a destroy record for every id of the client that is not filed, and a transform
record for every id that is the entity's.  The state that the inner loop leaves is 0 only when no id
at all is destroyed or transformed, so one stale id withholds every create record. -/

namespace Starfall.Receive

open Buffer ProofKit.Reading

variable {F : Type}

def staleIds (map : EntityMap F) (ids : List UInt32) : List UInt32 :=
  ids.filter fun it => it ∉ map.keys

/-- Every id of the client is filed, and none is that of `e`. -/
def Missing (map : EntityMap F) (ids : List UInt32) (e : Entity F) : Prop :=
  staleIds map ids = [] ∧ e.sessionid ∉ ids

instance (map : EntityMap F) (ids : List UInt32) (e : Entity F) : Decidable (Missing map ids e) :=
  inferInstanceAs (Decidable (_ ∧ _))

theorem mem_staleIds {map : EntityMap F} {ids : List UInt32} {id : UInt32} :
    id ∈ staleIds map ids ↔ id ∈ ids ∧ id ∉ map.keys := by
  simp [staleIds]

theorem staleIds_eq_nil {map : EntityMap F} {ids : List UInt32} :
    staleIds map ids = [] ↔ ∀ id ∈ ids, id ∈ map.keys := by
  simp [staleIds]

theorem mem_keys {map : EntityMap F} {e : Entity F} (h : e ∈ map.entities) :
    e.sessionid ∈ map.keys := List.mem_map_of_mem h

/-- The inner loop adds a destroy record for each stale id and a transform record for each id that
is the entity's, and leaves the state alone only if there is no such id. -/
theorem checkIds_eq {map : EntityMap F} {e : Entity F} (he : e ∈ map.entities) (ids : List UInt32)
    (s : UInt32) (p : Player F) :
    ∃ s', ids.foldl (checkId map e.sessionid) (s, p) =
        (s', p.push [] ((staleIds map ids).map DestroyEntityStruct.mk)
          (List.replicate (ids.count e.sessionid) e.castTransformEntityStruct)) ∧
      (s' = 0 ↔ s = 0 ∧ Missing map ids e) := by
  induction ids generalizing s p with
  | nil => exact ⟨s, by simp [staleIds], by simp [Missing, staleIds]⟩
  | cons it ids ih =>
    rw [List.foldl_cons]
    by_cases hkey : it = e.sessionid
    · subst hkey
      have hfiled := mem_keys he
      have hround : checkId map e.sessionid (s, p) e.sessionid =
          (2, p.push [] [] [e.castTransformEntityStruct]) := by
        rw [checkId, if_pos hfiled, if_pos rfl, Player.transformEntity_eq_push p he]
      obtain ⟨s', hloop, hstate⟩ := ih 2 (p.push [] [] [e.castTransformEntityStruct])
      refine ⟨s', ?_, ?_⟩
      · rw [hround, hloop, Player.push_push]
        simp [staleIds, hfiled, List.replicate_succ]
      · rw [hstate]
        simp [Missing]
    by_cases hfiled : it ∈ map.keys
    · have hround : checkId map e.sessionid (s, p) it = (s, p) := by
        rw [checkId, if_pos hfiled, if_neg hkey]
      obtain ⟨s', hloop, hstate⟩ := ih s p
      refine ⟨s', ?_, ?_⟩
      · rw [hround, hloop]
        simp [staleIds, hfiled, hkey]
      · rw [hstate]
        simp [Missing, staleIds, hfiled, Ne.symm hkey]
    · have hround : checkId map e.sessionid (s, p) it = (1, p.push [] [⟨it⟩] []) := by
        rw [checkId, if_neg hfiled, if_neg hkey, Player.destroyEntity_eq_push]
      obtain ⟨s', hloop, hstate⟩ := ih 1 (p.push [] [⟨it⟩] [])
      refine ⟨s', ?_, ?_⟩
      · rw [hround, hloop, Player.push_push]
        simp [staleIds, hfiled, hkey]
      · rw [hstate]
        simp [Missing, staleIds, hfiled]

section Rounds

variable [Add F] [Sub F] [Mul F] [LE F] [DecidableLE F]

def created (map : EntityMap F) (ids : List UInt32) (p : Player F) : List (Entity F) :=
  map.entities.filter fun e => Missing map ids e ∧ p.sees e.position

theorem mem_created {map : EntityMap F} {ids : List UInt32} {p : Player F}
    {e : Entity F} :
    e ∈ created map ids p ↔
      e ∈ map.entities ∧ (staleIds map ids = [] ∧ e.sessionid ∉ ids) ∧ p.sees e.position := by
  simp [created, Missing, and_assoc]

theorem checkKey_eq {map : EntityMap F} {e : Entity F} (he : e ∈ map.entities) (ids : List UInt32)
    (p : Player F) :
    checkKey map ids p e.sessionid =
      p.push (if Missing map ids e ∧ p.sees e.position then [e.castCreateEntityStruct] else [])
        ((staleIds map ids).map DestroyEntityStruct.mk)
        (List.replicate (ids.count e.sessionid) e.castTransformEntityStruct) := by
  obtain ⟨s, hloop, hstate⟩ := checkIds_eq he ids 0 p
  rw [checkKey, hloop]
  by_cases hmissing : Missing map ids e
  · rw [if_pos (hstate.mpr ⟨rfl, hmissing⟩), Player.createEntity_eq_push _ he, Player.push_push]
    by_cases hsees : p.sees e.position = true <;> simp [hmissing, hsees]
  · rw [if_neg fun h => hmissing (hstate.mp h).2]
    simp [hmissing]

theorem checkObjects_eq (map : EntityMap F) (ids : List UInt32) (p : Player F) :
    checkObjects map ids p =
      p.push ((created map ids p).map Entity.castCreateEntityStruct)
        (map.entities.flatMap fun _ => (staleIds map ids).map DestroyEntityStruct.mk)
        (map.entities.flatMap fun e =>
          List.replicate (ids.count e.sessionid) e.castTransformEntityStruct) := by
  have loop : ∀ (es : List (Entity F)) (p : Player F), (∀ e ∈ es, e ∈ map.entities) →
      (es.map Entity.sessionid).foldl (checkKey map ids) p =
        p.push ((es.filter fun e => Missing map ids e ∧ p.sees e.position).map
            Entity.castCreateEntityStruct)
          (es.flatMap fun _ => (staleIds map ids).map DestroyEntityStruct.mk)
          (es.flatMap fun e =>
            List.replicate (ids.count e.sessionid) e.castTransformEntityStruct) := by
    intro es
    induction es with
    | nil => simp
    | cons e es ih =>
      intro p hes
      rw [List.map_cons, List.foldl_cons, checkKey_eq (hes e List.mem_cons_self),
        ih _ fun d hd => hes d (List.mem_cons_of_mem _ hd), Player.push_push]
      by_cases h : Missing map ids e ∧ p.sees e.position <;> simp [h]
  exact loop map.entities p fun _ he => he

/-- The player as the loops of a round find it. -/
def requesting (p : Player F) (objects : ObjectsStruct F) : Player F :=
  { p with updateState := objects.state, farClipDistance := objects.farClipDistance }

theorem objectsRound_push (map : EntityMap F) (p : Player F) (objects : ObjectsStruct F) :
    ∃ creates destroys transforms,
      objectsRound map p objects = (requesting p objects).push creates destroys transforms :=
  ⟨_, _, _, checkObjects_eq map objects.ids (requesting p objects)⟩

/-- A round for a player whose queues are empty replies with the records of this round only. -/
theorem objectsUpdate_round {p : Player F} (settled : p.Settled) (map : EntityMap F)
    (objects : ObjectsStruct F) :
    Send.objectsUpdate (objectsRound map p objects) =
      ⟨objects.state, objects.farClipDistance,
        (created map objects.ids (requesting p objects)).map Entity.castCreateEntityStruct,
        map.entities.flatMap fun _ => (staleIds map objects.ids).map DestroyEntityStruct.mk⟩ := by
  show Send.objectsUpdate (checkObjects map objects.ids (requesting p objects)) = _
  rw [checkObjects_eq]
  simp [Send.objectsUpdate, Player.push, requesting, settled.1, settled.2.1]

/-- The reply creates no entity twice, and none that the client has. -/
theorem objectsUpdate_creates {p : Player F} (settled : p.Settled) (map : EntityMap F)
    (objects : ObjectsStruct F) {shown : List UInt32} (nodup : shown.Nodup)
    (known : shown ⊆ objects.ids) :
    (shown ++ (Send.objectsUpdate (objectsRound map p objects)).createEntities.map
      (·.sessionid)).Nodup := by
  have ids : (Send.objectsUpdate (objectsRound map p objects)).createEntities.map (·.sessionid) =
      (created map objects.ids (requesting p objects)).map Entity.sessionid := by
    rw [objectsUpdate_round settled]
    simp [Function.comp_def, Entity.castCreateEntityStruct]
  rw [ids, List.nodup_append]
  refine ⟨nodup, map.nodup.sublist (List.filter_sublist.map _), ?_⟩
  rintro id hid _ hcreated rfl
  obtain ⟨e, he, rfl⟩ := List.mem_map.mp hcreated
  exact (mem_created.mp he).2.1.2 (known hid)

theorem transforms_round {p : Player F} (settled : p.Settled) (map : EntityMap F)
    (objects : ObjectsStruct F) :
    (objectsRound map p objects).transformEntityQueue = map.entities.flatMap fun e =>
      List.replicate (objects.ids.count e.sessionid) e.castTransformEntityStruct := by
  show (checkObjects map objects.ids (requesting p objects)).transformEntityQueue = _
  rw [checkObjects_eq]
  simp [Player.push, requesting, settled.2.2]

variable [FloatBits F]

omit [Add F] [Sub F] [Mul F] [LE F] [DecidableLE F] in
theorem sendObjects_eq (p : Player F) :
    ∃ reply moves, sendObjects p = (true, { p with
      sendQueue := p.sendQueue ++ [writeHead reply ++ writeObjectsUpdate (Send.objectsUpdate p),
        writeHead moves ++ writeTransformEntities p.transformEntityQueue] }) := by
  obtain ⟨reply, hreply⟩ :=
    Send.enqueue_eq p .ObjectsReply (writeObjectsUpdate (Send.objectsUpdate p))
  obtain ⟨moves, hmoves⟩ := Send.enqueue_eq
    { p with
      sendQueue := p.sendQueue ++ [writeHead reply ++ writeObjectsUpdate (Send.objectsUpdate p)] }
    .TransformEntityData (writeTransformEntities p.transformEntityQueue)
  refine ⟨reply, moves, ?_⟩
  rw [sendObjects, Send.objectsReply, hreply]
  simp only [Send.transformEntityData, hmoves, List.append_assoc, List.singleton_append]

/-- `ObjectsData` sends what the round leaves in the queues, and clears them. -/
theorem objectsData_eq (server : Server F) (s : Session F) {buffer c : Buffer}
    {objects : ObjectsStruct F} (head : Packet Head)
    (h : readObjectsStruct buffer = .ok (objects, c)) :
    ∃ reply moves, objectsData server s buffer head = .ok (.returned true, { s with
      player := { (requesting s.player objects).clearAll with
        sendQueue := s.player.sendQueue ++
          [writeHead reply ++ writeObjectsUpdate
              (Send.objectsUpdate (objectsRound server.entities s.player objects)),
            writeHead moves ++ writeTransformEntities
              (objectsRound server.entities s.player objects).transformEntityQueue] } }) := by
  obtain ⟨creates, destroys, transforms, hround⟩ :=
    objectsRound_push server.entities s.player objects
  obtain ⟨reply, moves, hsent⟩ := sendObjects_eq (objectsRound server.entities s.player objects)
  refine ⟨reply, moves, ?_⟩
  rw [objectsData, except_bind_of_ok h]
  dsimp only
  rw [hsent, hround]
  rfl

end Rounds

section InSight

variable [OfNat F 0] [OfNat F 1]

def atOrigin (sessionid : UInt32) : Entity F :=
  ⟨⟨⟨0, 0, 0⟩, ⟨0, 0, 0, 1⟩⟩, Player.initialName, 2, sessionid, []⟩

def observer : Player F where
  sendQueue := []
  destroyEntityQueue := []
  createEntityQueue := []
  transformEntityQueue := []
  state := LOGIN_STATE_LOGGED_IN
  userid := 7
  usertype := 0
  username := []
  password := []
  updateState := 0
  farClipDistance := 0
  pEntity := atOrigin 1

theorem observer_settled : (observer (F := F)).Settled := ⟨rfl, rfl, rfl⟩

def inSight : EntityMap F := ⟨[atOrigin 1, atOrigin 2], by simp [atOrigin]⟩

end InSight

end Starfall.Receive
