import Mathlib.Algebra.Order.Ring.Rat
import Mathlib.Tactic.NormNum
import Starfall.Server.Objects

/-! The reply to a round as a set difference, with rational coordinates.  The create records should
be those of the entities in sight that the client misses, the destroy records those of the ids that
are not filed, and the transform records those of the ids that are.  The transform records always
are.  The destroy records are lost when no entity is filed, and the create records when an id is
stale. -/

namespace Starfall.Receive

section Records

variable {F : Type} {map : EntityMap F} {ids : List UInt32}

theorem mem_transforms (id : UInt32) :
    (∃ t ∈ map.entities.flatMap fun e =>
      List.replicate (ids.count e.sessionid) e.castTransformEntityStruct, t.sessionid = id) ↔
    id ∈ ids ∧ id ∈ map.keys := by
  simp only [List.mem_flatMap, List.mem_replicate, EntityMap.keys, List.mem_map]
  constructor
  · rintro ⟨t, ⟨e, he, hcount, rfl⟩, rfl⟩
    exact ⟨List.count_pos_iff.mp (Nat.pos_of_ne_zero hcount), e, he, rfl⟩
  · rintro ⟨hid, e, he, rfl⟩
    exact ⟨_, ⟨e, he, (List.count_pos_iff.mpr hid).ne', rfl⟩, rfl⟩

theorem mem_destroys (id : UInt32) :
    (∃ d ∈ map.entities.flatMap fun _ => (staleIds map ids).map DestroyEntityStruct.mk,
      d.sessionid = id) ↔
    map.entities ≠ [] ∧ id ∈ ids ∧ id ∉ map.keys := by
  simp only [List.mem_flatMap, List.mem_map]
  constructor
  · rintro ⟨d, ⟨e, he, it, hit, rfl⟩, rfl⟩
    exact ⟨List.ne_nil_of_mem he, mem_staleIds.mp hit⟩
  · rintro ⟨hmap, hid⟩
    obtain ⟨e, he⟩ := List.exists_mem_of_ne_nil _ hmap
    exact ⟨⟨id⟩, ⟨e, he, id, mem_staleIds.mpr hid, rfl⟩, rfl⟩

variable [Add F] [Sub F] [Mul F] [LE F] [DecidableLE F]

theorem mem_creates {p : Player F} (id : UInt32) :
    (∃ c ∈ (created map ids p).map Entity.castCreateEntityStruct, c.sessionid = id) ↔
      ∃ e ∈ created map ids p, e.sessionid = id := by
  simp [Entity.castCreateEntityStruct]

end Records

/-- The entity lies within the far clip distance of the player. -/
def Within (p : Player ℚ) (e : Entity ℚ) : Prop :=
  0 ≤ p.farClipDistance ∧
    (p.pEntity.position.sub e.position).length2 ≤ p.farClipDistance * p.farClipDistance

theorem within_iff_sees {p : Player ℚ} {e : Entity ℚ} :
    Within p e ↔ 0 ≤ p.farClipDistance ∧ p.sees e.position := by
  simp [Within, Player.sees]

/-- What a round sends has the create, destroy and transform records of the difference between the
entity map and the ids of the client. -/
structure Exact (map : EntityMap ℚ) (p : Player ℚ) (objects : ObjectsStruct ℚ) : Prop where
  creates : ∀ id,
    (∃ c ∈ (Send.objectsUpdate (objectsRound map p objects)).createEntities, c.sessionid = id) ↔
      ∃ e ∈ map.entities, e.sessionid = id ∧ id ∉ objects.ids ∧ Within (requesting p objects) e
  destroys : ∀ id,
    (∃ d ∈ (Send.objectsUpdate (objectsRound map p objects)).destroyEntities, d.sessionid = id) ↔
      id ∈ objects.ids ∧ id ∉ map.keys
  transforms : ∀ id,
    (∃ t ∈ (objectsRound map p objects).transformEntityQueue, t.sessionid = id) ↔
      id ∈ objects.ids ∧ id ∈ map.keys

/-- The entities that a round creates are those that the client misses within the far clip distance,
unless a missing one passes the test of the squares and an id is stale or the distance negative. -/
theorem creates_exact_iff (map : EntityMap ℚ) (ids : List UInt32) (p : Player ℚ) :
    (∀ id, (∃ e ∈ created map ids p, e.sessionid = id) ↔
      ∃ e ∈ map.entities, e.sessionid = id ∧ id ∉ ids ∧ Within p e) ↔
    ∀ e ∈ map.entities, e.sessionid ∉ ids → p.sees e.position →
      (staleIds map ids = [] ↔ 0 ≤ p.farClipDistance) := by
  constructor
  · intro h e he hid hsees
    constructor
    · intro hstale
      obtain ⟨d, hd, heq, -, hwithin⟩ :=
        (h e.sessionid).mp ⟨e, mem_created.mpr ⟨he, ⟨hstale, hid⟩, hsees⟩, rfl⟩
      exact hwithin.1
    · intro hclip
      obtain ⟨d, hd, heq⟩ :=
        (h e.sessionid).mpr ⟨e, he, rfl, hid, within_iff_sees.mpr ⟨hclip, hsees⟩⟩
      exact (mem_created.mp hd).2.1.1
  · intro h id
    constructor
    · rintro ⟨e, he, rfl⟩
      obtain ⟨hfiled, ⟨hstale, hid⟩, hsees⟩ := mem_created.mp he
      have hclip := (h e hfiled hid hsees).mp hstale
      exact ⟨e, hfiled, rfl, hid, within_iff_sees.mpr ⟨hclip, hsees⟩⟩
    · rintro ⟨e, he, rfl, hid, hwithin⟩
      obtain ⟨hclip, hsees⟩ := within_iff_sees.mp hwithin
      have hstale := (h e he hid hsees).mpr hclip
      exact ⟨e, mem_created.mpr ⟨he, ⟨hstale, hid⟩, hsees⟩, rfl⟩

/-- A round sends the exact difference when the map has an entity to send stale ids with, and when
the entities that the client misses and that pass the test of the squares are created just because
the far clip distance is not negative. -/
theorem objects_exact_iff {p : Player ℚ} (settled : p.Settled) (map : EntityMap ℚ)
    (objects : ObjectsStruct ℚ) :
    Exact map p objects ↔
      (staleIds map objects.ids = [] ∨ map.entities ≠ []) ∧
      ∀ e ∈ map.entities, e.sessionid ∉ objects.ids → (requesting p objects).sees e.position →
        (staleIds map objects.ids = [] ↔ 0 ≤ objects.farClipDistance) := by
  have destroys : (∀ id, (map.entities ≠ [] ∧ id ∈ objects.ids ∧ id ∉ map.keys) ↔
      id ∈ objects.ids ∧ id ∉ map.keys) ↔ staleIds map objects.ids = [] ∨ map.entities ≠ [] := by
    constructor
    · intro h
      by_cases hstale : staleIds map objects.ids = []
      · exact .inl hstale
      · obtain ⟨id, hid⟩ := List.exists_mem_of_ne_nil _ hstale
        exact .inr ((h id).mpr (mem_staleIds.mp hid)).1
    · rintro (hstale | hmap) id
      · have hnone : ¬(id ∈ objects.ids ∧ id ∉ map.keys) := by
          rw [← mem_staleIds, hstale]
          exact List.not_mem_nil
        exact iff_of_false (fun h => hnone h.2) hnone
      · exact and_iff_right hmap
  have creates := creates_exact_iff map objects.ids (requesting p objects)
  constructor
  · rintro ⟨hcreates, hdestroys, -⟩
    simp only [objectsUpdate_round settled, mem_creates, mem_destroys] at hcreates hdestroys
    exact ⟨destroys.mp hdestroys, creates.mp hcreates⟩
  · rintro ⟨hdestroys, hcreates⟩
    refine ⟨?_, ?_, ?_⟩
    · simpa only [objectsUpdate_round settled, mem_creates] using creates.mpr hcreates
    · simpa only [objectsUpdate_round settled, mem_destroys] using destroys.mpr hdestroys
    · simpa only [transforms_round settled] using mem_transforms

theorem newId_exact : Exact inSight observer ⟨1, 10, [1]⟩ := by
  refine (objects_exact_iff observer_settled _ _).mpr ⟨.inr (by decide), ?_⟩
  intro e _ _ _
  exact iff_of_true (by decide) (by norm_num)

/-- An id that is stale withholds the other entity. -/
theorem staleId_not_exact : ¬Exact inSight observer ⟨1, 10, [1, 9]⟩ := by
  intro h
  obtain ⟨c, hc, -⟩ := (h.creates 2).mpr
    ⟨atOrigin 2, by simp [inSight], rfl, by decide, by
      norm_num [Within, requesting, observer, atOrigin, Vec3.sub, Vec3.length2]⟩
  exact List.not_mem_nil (show c ∈ [] from hc)

end Starfall.Receive
