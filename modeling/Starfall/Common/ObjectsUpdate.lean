import Starfall.Common.RoundTrip

/-! The object update on the wire.  The writer sends a display name as a string, and the reader
takes a word in its place and keeps one byte of it.  A message without create records reads back as
it was written.  With create records the reader stops short of the end even when it happens to
return what was written. -/

namespace Starfall.Buffer

open ProofKit.Reading

theorem readUInt32_moves : MovesAtMost 4 readUInt32 := by
  intro c v c' h
  by_cases hfew : c.rest.length < 3
  · obtain ⟨i, hfault⟩ := readUInt32_few hfew
    rw [hfault] at h
    cases h
  by_cases hthree : c.rest.length = 3
  · rw [readUInt32_three hthree] at h
    cases h
    omega
  match hr : c.rest, hfew, hthree with
  | b0 :: b1 :: b2 :: b3 :: suffix, _, _ =>
    rw [readUInt32_cons hr] at h
    cases h
    simp
  | [], hfew, _ | [_], hfew, _ | [_, _], hfew, _ => simp at hfew
  | [_, _, _], _, hthree => simp at hthree

theorem readVector_moves {α : Type} {k : Nat} {element : Read α} (h : MovesAtMost k element)
    {c c' : Buffer} {list : List α} (hread : readVector element c = .ok (list, c')) :
    c'.it ≤ c.it + 4 + list.length * k := by
  obtain ⟨size, mid, hsize, hloop⟩ := bind_eq_ok hread
  have := readUInt32_moves c size mid hsize
  have := h.repeatRead _ mid list c' hloop
  rw [← repeatRead_length hloop] at this
  omega

section Update

variable {F : Type} [FloatBits F]

theorem readTransform_moves : MovesAtMost 28 (readTransform : Read (Transform F)) := by
  have float : MovesAtMost 4 (readFloat : Read F) := readUInt32_moves.bind fun i => .pure _
  exact float.bind fun _ => float.bind fun _ => float.bind fun _ => float.bind fun _ =>
    float.bind fun _ => float.bind fun _ => float.bind fun _ => .pure _

theorem readCreateEntity_moves :
    MovesAtMost 40 (readCreateEntity : Read (CreateEntityStruct F)) :=
  readUInt32_moves.bind fun _ => readUInt32_moves.bind fun _ => readUInt32_moves.bind fun _ =>
    readTransform_moves.bind fun _ => .pure _

theorem readDestroyEntity_moves : MovesAtMost 4 readDestroyEntity :=
  readUInt32_moves.bind fun _ => .pure _

/-- The reader gives every create record a display name of one byte. -/
theorem readCreateEntities_names {c c' : Buffer} {list : List (CreateEntityStruct F)}
    (h : readCreateEntities c = .ok (list, c')) : ∀ e ∈ list, e.displayName.length = 1 := by
  have one : ∀ {c c' : Buffer} {e : CreateEntityStruct F}, readCreateEntity c = .ok (e, c') →
      e.displayName.length = 1 := by
    intro c c' e h
    obtain ⟨_, _, -, h⟩ := bind_eq_ok h
    obtain ⟨_, _, -, h⟩ := bind_eq_ok h
    obtain ⟨_, _, -, h⟩ := bind_eq_ok h
    obtain ⟨_, _, -, h⟩ := bind_eq_ok h
    cases h
    rfl
  obtain ⟨size, mid, -, h⟩ := bind_eq_ok h
  exact repeatRead_all one h

theorem readObjectsUpdate_parts {c c' : Buffer} {u : ObjectsUpdateStruct F}
    (h : readObjectsUpdate c = .ok (u, c')) :
    ∃ c1 c2, readUInt32 c = .ok (u.state, c1) ∧
      readCreateEntities c1 = .ok (u.createEntities, c2) ∧
      readDestroyEntities c2 = .ok (u.destroyEntities, c') := by
  obtain ⟨state, c1, h1, h⟩ := bind_eq_ok h
  obtain ⟨creates, c2, h2, h⟩ := bind_eq_ok h
  obtain ⟨destroys, c3, h3, h⟩ := bind_eq_ok h
  cases h
  exact ⟨c1, c2, h1, h2, h3⟩

/-- Reading stops at `c'` with the state, the create list and the destroy list of `u`. -/
def ReadsBack (u : ObjectsUpdateStruct F) (c' : Buffer) : Prop :=
  ∃ u', readObjectsUpdate (.start (writeObjectsUpdate u)) = .ok (u', c') ∧ u'.state = u.state ∧
    u'.createEntities = u.createEntities ∧ u'.destroyEntities = u.destroyEntities

theorem ReadsBack.names {u : ObjectsUpdateStruct F} {c' : Buffer} (h : ReadsBack u c') :
    ∀ e ∈ u.createEntities, e.displayName.length = 1 := by
  obtain ⟨u', hread, -, hcreate, -⟩ := h
  obtain ⟨c1, c2, -, h2, -⟩ := readObjectsUpdate_parts hread
  rw [← hcreate]
  exact readCreateEntities_names h2

theorem ReadsBack.destroys {u : ObjectsUpdateStruct F} {c' : Buffer} (h : ReadsBack u c') :
    u.destroyEntities.length < 2 ^ 32 := by
  obtain ⟨u', hread, -, -, hdestroy⟩ := h
  obtain ⟨c1, c2, -, -, h3⟩ := readObjectsUpdate_parts hread
  rw [← hdestroy]
  exact readVector_length h3

/-- The reader stops one byte short of the end for every create record. -/
theorem ReadsBack.stops_short {u : ObjectsUpdateStruct F} {c' : Buffer} (h : ReadsBack u c') :
    c'.it + u.createEntities.length ≤ (writeObjectsUpdate u).length := by
  have hnames := h.names
  obtain ⟨u', hread, -, hcreate, hdestroy⟩ := h
  obtain ⟨c1, c2, h1, h2, h3⟩ := readObjectsUpdate_parts hread
  have m1 := readUInt32_moves _ _ _ h1
  have m2 := readVector_moves readCreateEntity_moves h2
  have m3 := readVector_moves readDestroyEntity_moves h3
  have written : ∀ es : List (CreateEntityStruct F), (∀ e ∈ es, e.displayName.length = 1) →
      (es.flatMap writeCreateEntity).length = es.length * 41 := by
    intro es hes
    induction es with
    | nil => rfl
    | cons e es ih =>
      have := ih fun d hd => hes d (List.mem_cons_of_mem _ hd)
      have := hes e List.mem_cons_self
      simp only [List.flatMap_cons, List.length_append, List.length_cons, writeCreateEntity_length]
      omega
  have hwritten := written _ hnames
  have hdestroys : (writeDestroyEntities u.destroyEntities).length =
      4 + u.destroyEntities.length * 4 := writeVector_length writeDestroyEntity_length _
  rw [hcreate] at m2
  rw [hdestroy] at m3
  simp only [writeObjectsUpdate, writeCreateEntities, writeVector, List.length_append,
    writeUInt32_length, hdestroys, hwritten, Cursor.start_it] at m1 ⊢
  omega

theorem reads_objectsUpdate {u : ObjectsUpdateStruct F} (hcreate : u.createEntities = [])
    (hdestroy : u.destroyEntities.length < 2 ^ 32) :
    Reads readObjectsUpdate (writeObjectsUpdate u)
      { u with farClipDistance := FloatBits.ofBits 0 } := by
  obtain ⟨state, clip, creates, destroys⟩ := u
  subst hcreate
  have empty : Reads (readCreateEntities (F := F)) (writeCreateEntities []) [] :=
    reads_vector (by simp) fun e he => nomatch he
  have list : Reads readDestroyEntities (writeDestroyEntities destroys) destroys :=
    reads_vector hdestroy fun d _ => reads_destroyEntity d
  exact (reads_uint32 state).bind (empty.bind list.bind_pure)

end Update

/-- An object update reads back whole, with the state and both lists as they were written, exactly
when it has no create records and the count can express the size of its destroy list.  Whenever the
state and the lists come back at all, every display name is one byte long. -/
theorem objectsUpdate_readsBack_iff (u : ObjectsUpdateStruct UInt32) :
    ((∃ c', ReadsBack u c' ∧ c'.it = (writeObjectsUpdate u).length) ↔
      u.createEntities = [] ∧ u.destroyEntities.length < 2 ^ 32) ∧
    ((∃ c', ReadsBack u c') → ∀ e ∈ u.createEntities, e.displayName.length = 1) := by
  refine ⟨⟨?_, ?_⟩, fun ⟨c', h⟩ => h.names⟩
  · rintro ⟨c', h, hend⟩
    have := h.stops_short
    exact ⟨List.eq_nil_of_length_eq_zero (by omega), h.destroys⟩
  · rintro ⟨hcreate, hdestroy⟩
    have h := (reads_objectsUpdate hcreate hdestroy).start []
    rw [List.append_nil] at h
    exact ⟨_, ⟨_, h, rfl, rfl, rfl⟩, by simp⟩

def createPlayer : ObjectsUpdateStruct UInt32 :=
  ⟨1, 0, [⟨⟨⟨0, 0, 0⟩, ⟨0, 0, 0, 0⟩⟩, 2, 2, Str.ofString "Player"⟩], []⟩

theorem createPlayer_not_readsBack : ¬∃ c', ReadsBack createPlayer c' := by
  rintro ⟨c', h⟩
  have := h.names _ List.mem_cons_self
  revert this
  decide

end Starfall.Buffer
