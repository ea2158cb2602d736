import Mathlib.Data.List.Nodup
import Starfall.Common.RoundTrip
import Starfall.Server.Connection

/-! How often a round sends an id.  The inner loop of `ObjectsData` destroys the stale ids of the
client, and runs once for each entity of the map.  So each of them is sent as often as the map has
entities, while the other records are sent once. -/

namespace Starfall.Receive

open Buffer ProofKit.Runs

variable {F : Type}

/-- The session ids of the records that a round hands to `ObjectsReply` and to
`TransformEntityData`. -/
def sentIds (p : Player F) : List UInt32 :=
  p.createEntityQueue.map (·.sessionid) ++
    (p.destroyEntityQueue.map (·.sessionid) ++ p.transformEntityQueue.map (·.sessionid))

theorem nodup_flatMap_const {A B : Type} (xs : List A) {ys : List B} (h : ys.Nodup) :
    (xs.flatMap fun _ => ys).Nodup ↔ ys = [] ∨ xs.length ≤ 1 := by
  cases xs with
  | nil => simp
  | cons x xs =>
    cases xs with
    | nil => simpa using h
    | cons x' xs =>
      have hlength : ¬(x :: x' :: xs).length ≤ 1 := by simp
      rw [or_iff_left hlength]
      constructor
      · intro hnodup
        have hdisjoint := (List.nodup_append.mp hnodup).2.2
        refine List.eq_nil_iff_forall_not_mem.mpr fun y hy => ?_
        exact hdisjoint y hy y (List.mem_flatMap.mpr ⟨x', List.mem_cons_self, hy⟩) rfl
      · rintro rfl
        rw [List.flatMap_eq_nil_iff.mpr fun _ _ => rfl]
        exact List.nodup_nil

/-- The transform records of a round have the ids of the client that are filed, each once. -/
theorem transforms_ids (map : EntityMap F) {ids : List UInt32} (nodup : ids.Nodup) :
    (map.entities.flatMap fun e =>
        List.replicate (ids.count e.sessionid) e.castTransformEntityStruct).map (·.sessionid) =
      map.keys.filter (· ∈ ids) := by
  rw [EntityMap.keys]
  induction map.entities with
  | nil => rfl
  | cons e es ih =>
    rw [List.flatMap_cons, List.map_append, ih, List.map_cons]
    by_cases hid : e.sessionid ∈ ids
    · rw [List.count_eq_one_of_mem nodup hid, List.filter_cons_of_pos (by simpa using hid)]
      rfl
    · rw [List.count_eq_zero_of_not_mem hid, List.filter_cons_of_neg (by simpa using hid)]
      rfl

section Rounds

variable [Add F] [Sub F] [Mul F] [LE F] [DecidableLE F]

theorem sentIds_round {p : Player F} (settled : p.Settled) (map : EntityMap F)
    {objects : ObjectsStruct F} (nodup : objects.ids.Nodup) :
    sentIds (objectsRound map p objects) =
      (created map objects.ids (requesting p objects)).map Entity.sessionid ++
        ((map.entities.flatMap fun _ => staleIds map objects.ids) ++
          map.keys.filter (· ∈ objects.ids)) := by
  obtain ⟨hcreate, hdestroy, htransform⟩ := settled
  have hround : objectsRound map p objects = (requesting p objects).push _ _ _ :=
    checkObjects_eq map objects.ids (requesting p objects)
  rw [sentIds, hround]
  simp only [Player.push, requesting, hcreate, hdestroy, htransform, List.nil_append,
    transforms_ids map nodup, List.map_map, List.map_flatMap]
  congr 2
  simp [Function.comp_def]

/-- A created entity is filed and not shown, a transformed one is filed and shown, and a destroyed
id is not filed. -/
theorem sentIds_nodup {p : Player F} (settled : p.Settled) (map : EntityMap F)
    {objects : ObjectsStruct F} (nodup : objects.ids.Nodup) :
    (sentIds (objectsRound map p objects)).Nodup ↔
      staleIds map objects.ids = [] ∨ map.entities.length ≤ 1 := by
  have hstale : (staleIds map objects.ids).Nodup := nodup.filter _
  rw [sentIds_round settled map nodup, ← nodup_flatMap_const map.entities hstale]
  constructor
  · intro h
    exact (List.nodup_append.mp (List.nodup_append.mp h).2.1).1
  · intro h
    refine List.nodup_append.mpr ⟨?_, List.nodup_append.mpr ⟨h, map.nodup.filter _, ?_⟩, ?_⟩
    · exact map.nodup.sublist (List.filter_sublist.map _)
    · rintro id hid _ hkey rfl
      obtain ⟨e, -, hid⟩ := List.mem_flatMap.mp hid
      exact (mem_staleIds.mp hid).2 (List.mem_of_mem_filter hkey)
    · rintro id hid _ hother rfl
      obtain ⟨e, he, rfl⟩ := List.mem_map.mp hid
      obtain ⟨hfiled, ⟨-, hmissing⟩, -⟩ := mem_created.mp he
      rcases List.mem_append.mp hother with hother | hother
      · obtain ⟨d, -, hother⟩ := List.mem_flatMap.mp hother
        exact (mem_staleIds.mp hother).2 (mem_keys hfiled)
      · exact hmissing (of_decide_eq_true (List.mem_filter.mp hother).2)

variable [FloatBits F]

/-- What the handler sends for a request has no id twice, and it leaves empty queues when it returns
true. -/
structure SentOnce (server : Server F) (s : Session F) (buffer : Buffer) (head : Packet Head)
    (objects : ObjectsStruct F) : Prop where
  nodup : (sentIds (objectsRound server.entities s.player objects)).Nodup
  cleared : ∀ s', objectsData server s buffer head = .ok (.returned true, s') → s'.player.Settled

/-- In every state of a connection, the handler of a request whose ids are distinct sends each id
once if and only if no id is stale or the map has at most one entity. -/
theorem sentOnce_iff {rows : List LoginRow} {as : List (Arrival F)} {s : Session F}
    (run : (connection rows).Run as s) (server : Server F) {buffer c : Buffer}
    {objects : ObjectsStruct F} (head : Packet Head)
    (hread : readObjectsStruct buffer = .ok (objects, c)) (nodup : objects.ids.Nodup) :
    SentOnce server s buffer head objects ↔
      staleIds server.entities objects.ids = [] ∨ server.entities.entities.length ≤ 1 := by
  rw [← sentIds_nodup (connection_settled run) server.entities nodup]
  constructor
  · exact SentOnce.nodup
  · intro h
    refine ⟨h, fun s' hcall => ?_⟩
    obtain ⟨reply, moves, hsent⟩ := objectsData_eq server s head hread
    rw [hsent] at hcall
    cases hcall
    exact Player.clearAll_settled (requesting s.player objects)

end Rounds

def requester : Session UInt32 := .open ⟨⟨0, 0, 0⟩, ⟨0, 0, 0, 1⟩⟩ 1

def pair : Server UInt32 := ⟨[], inSight, .printed⟩

def request (ids : List UInt32) : Buffer := .start (writeObjectsStruct (F := UInt32) ⟨1, 10, ids⟩)

theorem request_reads (ids : List UInt32) (h : ids.length < 2 ^ 32) :
    ∃ c, readObjectsStruct (F := UInt32) (request ids) = .ok (⟨1, 10, ids⟩, c) := by
  let objects : ObjectsStruct UInt32 := ⟨1, 10, ids⟩
  have hids : objects.ids.length < 2 ^ 32 := h
  have := (reads_objectsStruct hids).start []
  rw [List.append_nil] at this
  exact ⟨_, this⟩

theorem filed_sentOnce :
    SentOnce pair requester (request [1]) ⟨⟨-1, 6, 16, -1⟩, []⟩ ⟨1, 10, [1]⟩ := by
  obtain ⟨c, hread⟩ := request_reads [1] (by decide)
  have run : (connection []).Run [] requester := .nil ⟨_, _, rfl⟩
  exact (sentOnce_iff run pair _ hread (by decide)).mpr
    (.inl (by decide))

/-- A stale id is destroyed for each of the two entities. -/
theorem stale_sentTwice :
    (∃ c, readObjectsStruct (F := UInt32) (request [9]) = .ok (⟨1, 10, [9]⟩, c)) ∧
      (objectsRound inSight requester.player ⟨1, 10, [9]⟩).destroyEntityQueue = [⟨9⟩, ⟨9⟩] ∧
      ¬SentOnce pair requester (request [9]) ⟨⟨-1, 6, 16, -1⟩, []⟩ ⟨1, 10, [9]⟩ := by
  refine ⟨request_reads [9] (by decide), rfl, fun h => ?_⟩
  exact absurd h.nodup (by decide)

end Starfall.Receive
