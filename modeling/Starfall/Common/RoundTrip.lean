import Starfall.Common.BufferImpl

/-! Decoding undoes encoding.  Each reader takes exactly the bytes that the matching writer appends
and returns the value that was written, whatever follows.  The readers that first dump the buffer
with `hex` do so when the whole buffer is shorter than `2^31` bytes, and fail otherwise. -/

namespace Starfall.Buffer

open ProofKit.Reading

theorem reads_vector_map {α β : Type} {element : Read α} {enc : β → List UInt8} {view : β → α}
    {elems : List β} (hsize : elems.length < 2 ^ 32)
    (h : ∀ b ∈ elems, Reads element (enc b) (view b)) :
    Reads (readVector element) (writeVector enc elems) (elems.map view) := by
  have hcount : (UInt32.ofNat elems.length).toNat = elems.length :=
    UInt32.toNat_ofNat_of_lt' hsize
  refine (reads_uint32 _).bind ?_
  rw [hcount]
  exact Reads.repeatRead_map h

theorem reads_vector {α : Type} {element : Read α} {enc : α → List UInt8} {list : List α}
    (hsize : list.length < 2 ^ 32) (h : ∀ a ∈ list, Reads element (enc a) a) :
    Reads (readVector element) (writeVector enc list) list := by
  have mapped : Reads (readVector element) (writeVector enc list) (list.map id) :=
    reads_vector_map hsize h
  rwa [List.map_id] at mapped

theorem readVector_length {α : Type} {element : Read α} {c c' : Buffer} {list : List α}
    (h : readVector element c = .ok (list, c')) : list.length < 2 ^ 32 := by
  obtain ⟨size, c1, -, h⟩ := bind_eq_ok h
  rw [repeatRead_length h]
  exact size.toNat_lt

theorem writeVector_length {α : Type} {enc : α → List UInt8} {width : Nat}
    (h : ∀ a, (enc a).length = width) (list : List α) :
    (writeVector enc list).length = 4 + list.length * width := by
  simp [writeVector, List.length_flatMap, h]

/-- A vector of elements that take bytes, and each of its elements, fit in what it is written
in. -/
theorem writeVector_bounds {α : Type} {enc : α → List UInt8} (h : ∀ a, 0 < (enc a).length)
    (list : List α) :
    list.length ≤ (writeVector enc list).length ∧
      ∀ a ∈ list, (enc a).length ≤ (writeVector enc list).length := by
  simp only [writeVector, List.length_append, writeUInt32_length]
  induction list with
  | nil => simp
  | cons a list ih =>
    obtain ⟨hlen, hmem⟩ := ih
    have := h a
    simp only [List.flatMap_cons, List.length_append, List.length_cons]
    refine ⟨by omega, fun b hb => ?_⟩
    rcases List.mem_cons.mp hb with rfl | hb
    · omega
    · have := hmem b hb
      omega

section Structures

variable {F : Type} [FloatBits F]

@[simp] theorem writeHead_length (head : Head) : (writeHead head).length = Head.size := rfl

@[simp] theorem writeLoginStruct_length (login : LoginStruct) :
    (writeLoginStruct login).length = 20 + login.username.length + login.password.length := by
  simp [writeLoginStruct]
  omega

@[simp] theorem writeTransform_length (t : Transform F) : (writeTransform t).length = 28 := rfl

@[simp] theorem writeTransformStruct_length (t : TransformStruct F) :
    (writeTransformStruct t).length = 32 := rfl

@[simp] theorem writeTransformStructs_length (path : List (TransformStruct F)) :
    (writeTransformStructs path).length = 4 + path.length * 32 :=
  writeVector_length writeTransformStruct_length path

@[simp] theorem writeDestroyEntity_length (d : DestroyEntityStruct) :
    (writeDestroyEntity d).length = 4 := rfl

@[simp] theorem writeCreateEntity_length (c : CreateEntityStruct F) :
    (writeCreateEntity c).length = 40 + c.displayName.length := by
  simp [writeCreateEntity]
  omega

@[simp] theorem writeTransformEntity_length (t : TransformEntityStruct F) :
    (writeTransformEntity t).length = 8 + t.path.length * 32 := by
  simp [writeTransformEntity]
  omega

@[simp] theorem writeIds_length (ids : List UInt32) : (writeIds ids).length = 4 + ids.length * 4 :=
  writeVector_length writeUInt32_length ids

theorem reads_headWords (b o s e : UInt32) :
    Reads readHeadFields (writeUInt32 b ++ (writeUInt32 o ++ (writeUInt32 s ++ writeUInt32 e)))
      ⟨b.toInt32, o.toInt32, s.toInt32, e.toInt32⟩ :=
  (reads_uint32 b).bind ((reads_uint32 o).bind ((reads_uint32 s).bind (reads_uint32 e).bind_pure))

theorem reads_headFields (head : Head) : Reads readHeadFields (writeHead head) head :=
  reads_headWords head.begin.toUInt32 head.opcode.toUInt32 head.bodysize.toUInt32
    head.end_.toUInt32

theorem reads_loginFields {login : LoginStruct} (hu : login.username.length < 2 ^ 31)
    (hp : login.password.length < 2 ^ 31) :
    Reads readLoginFields (writeLoginStruct login) login :=
  (reads_uint32 _).bind ((reads_uint32 _).bind ((reads_uint32 _).bind ((reads_string hu).bind
    (reads_string hp).bind_pure)))

theorem reads_destroyEntity (d : DestroyEntityStruct) :
    Reads readDestroyEntity (writeDestroyEntity d) d :=
  (reads_uint32 d.sessionid).bind_pure

variable [LawfulFloatBits F]

theorem reads_float (x : F) : Reads readFloat (writeFloat x) x := by
  have h := (reads_uint32 (FloatBits.toBits x)).bind_pure (f := FloatBits.ofBits (F := F))
  rw [LawfulFloatBits.ofBits_toBits] at h
  exact h

theorem reads_transform (t : Transform F) : Reads readTransform (writeTransform t) t :=
  (reads_float _).bind ((reads_float _).bind ((reads_float _).bind ((reads_float _).bind
    ((reads_float _).bind ((reads_float _).bind (reads_float _).bind_pure)))))

theorem reads_transformStruct (t : TransformStruct F) :
    Reads readTransformStruct (writeTransformStruct t) t :=
  (reads_uint32 t.action).bind (reads_transform t.toTransform).bind_pure

theorem reads_transformStructs {path : List (TransformStruct F)} (h : path.length < 2 ^ 32) :
    Reads readTransformStructs (writeTransformStructs path) path :=
  reads_vector h fun t _ => reads_transformStruct t

theorem reads_transformEntity {t : TransformEntityStruct F} (h : t.path.length < 2 ^ 32) :
    Reads readTransformEntity (writeTransformEntity t) t :=
  (reads_uint32 t.sessionid).bind (reads_transformStructs h).bind_pure

theorem reads_ids {ids : List UInt32} (h : ids.length < 2 ^ 32) :
    Reads readIds (writeIds ids) ids :=
  reads_vector h fun v _ => reads_uint32 v

theorem reads_objectsStruct {objects : ObjectsStruct F} (h : objects.ids.length < 2 ^ 32) :
    Reads readObjectsStruct (writeObjectsStruct objects) objects :=
  (reads_uint32 objects.state).bind ((reads_float _).bind (reads_ids h).bind_pure)

end Structures

/-- From the start of `bytes` and a suffix, `read` stops at the suffix and returns what `view` sees
as `x`. -/
def Decodes {α β : Type} (read : Read α) (view : α → β) (bytes suffix : List UInt8) (x : β) :
    Prop :=
  ∃ a, read (.start (bytes ++ suffix)) =
    .ok (a, (Cursor.start (bytes ++ suffix)).advance bytes.length) ∧ view a = x

theorem Reads.decodes {α : Type} {read : Read α} {bytes : List UInt8} {x : α}
    (h : Reads read bytes x) (suffix : List UInt8) : Decodes read id bytes suffix x :=
  ⟨x, h.start suffix, rfl⟩

/-- A reader with a dump decodes exactly the buffers that `hex` can count with an `int`. -/
theorem decodes_packet_iff {α : Type} {fields : Read α} {bytes suffix : List UInt8} {x : α}
    (h : (bytes ++ suffix).length < 2 ^ 31 → Reads fields bytes x) :
    Decodes (readPacket fields) Packet.value bytes suffix x ↔
      (bytes ++ suffix).length < 2 ^ 31 := by
  constructor
  · rintro ⟨p, hp, -⟩
    by_contra hlong
    rw [readPacket, bind_of_error (hex_overflow (by simpa using hlong))] at hp
    cases hp
  · intro hshort
    refine ⟨⟨x, hexRows (bytes ++ suffix).length 0 (bytes ++ suffix)⟩, ?_, rfl⟩
    rw [readPacket, bind_of_ok (hex_of_lt hshort), bind_of_ok ((h hshort).start suffix),
      pure_apply]
    rfl

theorem decodes_vector_iff {α : Type} {element : Read α} {enc : α → List UInt8} {list : List α}
    {suffix : List UInt8} (h : ∀ a ∈ list, Reads element (enc a) a) :
    Decodes (readVector element) id (writeVector enc list) suffix list ↔
      list.length < 2 ^ 32 := by
  constructor
  · rintro ⟨list', hread, rfl⟩
    exact readVector_length hread
  · exact fun hsize => Reads.decodes (reads_vector hsize h) suffix

theorem decodes_head_iff (head : Head) (suffix : List UInt8) :
    Decodes readHead Packet.value (writeHead head) suffix head ↔
      Head.size + suffix.length < 2 ^ 31 := by
  rw [readHead, decodes_packet_iff fun _ => reads_headFields head, List.length_append,
    writeHead_length]

theorem readHead_writeHead (head : Head) :
    ∃ dump c, readHead (.start (writeHead head)) = .ok (⟨head, dump⟩, c) := by
  have h := (decodes_head_iff head []).mpr (by decide)
  rw [Decodes, List.append_nil] at h
  obtain ⟨⟨head, dump⟩, hread, rfl⟩ := h
  exact ⟨dump, _, hread⟩

theorem decodes_loginStruct_iff (login : LoginStruct) (suffix : List UInt8) :
    Decodes readLoginStruct Packet.value (writeLoginStruct login) suffix login ↔
      (writeLoginStruct login ++ suffix).length < 2 ^ 31 := by
  refine decodes_packet_iff fun hshort => ?_
  simp only [List.length_append, writeLoginStruct_length] at hshort
  exact reads_loginFields (by omega) (by omega)

theorem readLoginStruct_eq {login : LoginStruct} {packet : Packet LoginStruct} {c : Buffer}
    (h : readLoginStruct (.start (writeLoginStruct login)) = .ok (packet, c)) :
    packet.value = login := by
  by_cases hshort : (writeLoginStruct login ++ []).length < 2 ^ 31
  · obtain ⟨packet', hread, hvalue⟩ := (decodes_loginStruct_iff login []).mpr hshort
    rw [List.append_nil, h] at hread
    cases hread
    exact hvalue
  · rw [List.append_nil] at hshort
    rw [readLoginStruct, readPacket, bind_of_error (hex_overflow (by simpa using hshort))] at h
    cases h

section Floats

variable {F : Type} [FloatBits F] [LawfulFloatBits F]

theorem decodes_transformsPacket_iff (path : List (TransformStruct F)) (suffix : List UInt8) :
    Decodes readTransformsPacket Packet.value (writeTransformStructs path) suffix path ↔
      (writeTransformStructs path ++ suffix).length < 2 ^ 31 := by
  refine decodes_packet_iff fun hshort => ?_
  simp only [List.length_append, writeTransformStructs_length] at hshort
  exact reads_transformStructs (by omega)

theorem decodes_transformEntities_iff (transforms : List (TransformEntityStruct F))
    (suffix : List UInt8) :
    Decodes readTransformEntities Packet.value (writeTransformEntities transforms) suffix
        transforms ↔
      (writeTransformEntities transforms ++ suffix).length < 2 ^ 31 := by
  refine decodes_packet_iff fun hshort => ?_
  have hitem : ∀ t : TransformEntityStruct F, t.path.length < (writeTransformEntity t).length :=
    fun t => by
      rw [writeTransformEntity_length]
      omega
  obtain ⟨hlen, hpath⟩ := writeVector_bounds (fun t => Nat.zero_lt_of_lt (hitem t)) transforms
  rw [List.length_append, writeTransformEntities] at hshort
  refine reads_vector (by omega) fun t ht => reads_transformEntity ?_
  have := hitem t
  have := hpath t ht
  omega

theorem decodes_objectsStruct_iff (objects : ObjectsStruct F) (suffix : List UInt8) :
    Decodes readObjectsStruct id (writeObjectsStruct objects) suffix objects ↔
      objects.ids.length < 2 ^ 32 := by
  constructor
  · rintro ⟨objects', hread, rfl⟩
    obtain ⟨_, _, -, hread⟩ := bind_eq_ok hread
    obtain ⟨_, _, -, hread⟩ := bind_eq_ok hread
    obtain ⟨ids, _, hids, hread⟩ := bind_eq_ok hread
    cases hread
    exact readVector_length hids
  · exact fun hsize => Reads.decodes (reads_objectsStruct hsize) suffix

end Floats

/-- For every suffix, reading what was written returns it and stops at the suffix: for the readers
that dump the buffer, exactly when the buffer is shorter than `2^31` bytes, and for the others,
exactly when the count can express the size of the list. -/
theorem decode_encode_iff (suffix : List UInt8) :
    (∀ head, Decodes readHead Packet.value (writeHead head) suffix head ↔
      (writeHead head ++ suffix).length < 2 ^ 31) ∧
    (∀ login, Decodes readLoginStruct Packet.value (writeLoginStruct login) suffix login ↔
      (writeLoginStruct login ++ suffix).length < 2 ^ 31) ∧
    (∀ path : List (TransformStruct UInt32),
      (Decodes readTransformStructs id (writeTransformStructs path) suffix path ↔
        path.length < 2 ^ 32) ∧
      (Decodes readTransformsPacket Packet.value (writeTransformStructs path) suffix path ↔
        (writeTransformStructs path ++ suffix).length < 2 ^ 31)) ∧
    (∀ transforms : List (TransformEntityStruct UInt32),
      Decodes readTransformEntities Packet.value (writeTransformEntities transforms) suffix
          transforms ↔
        (writeTransformEntities transforms ++ suffix).length < 2 ^ 31) ∧
    (∀ objects : ObjectsStruct UInt32,
      Decodes readObjectsStruct id (writeObjectsStruct objects) suffix objects ↔
        objects.ids.length < 2 ^ 32) := by
  refine ⟨fun head => ?_, fun login => decodes_loginStruct_iff login suffix, fun path =>
    ⟨decodes_vector_iff fun t _ => reads_transformStruct t,
      decodes_transformsPacket_iff path suffix⟩,
    fun transforms => decodes_transformEntities_iff transforms suffix,
    fun objects => decodes_objectsStruct_iff objects suffix⟩
  rw [decodes_head_iff, List.length_append, writeHead_length]

def longLogin (n : Nat) : LoginStruct := ⟨0, 0, 0, List.replicate n 97, []⟩

theorem longLogin_decodes_iff (n : Nat) :
    Decodes readLoginStruct Packet.value (writeLoginStruct (longLogin n)) [] (longLogin n) ↔
      20 + n < 2 ^ 31 := by
  rw [decodes_loginStruct_iff, List.append_nil, writeLoginStruct_length]
  simp [longLogin]

/-- Strings shorter than `2^32` bytes do not suffice: a username of `2^31` bytes overflows the
counter of `hex`. -/
theorem longLogin_not_decodes :
    (longLogin (2 ^ 31)).username.length < 2 ^ 32 ∧ (longLogin (2 ^ 31)).password.length < 2 ^ 32 ∧
      ¬Decodes readLoginStruct Packet.value (writeLoginStruct (longLogin (2 ^ 31))) []
        (longLogin (2 ^ 31)) := by
  refine ⟨?_, ?_, ?_⟩
  · rw [longLogin, List.length_replicate]
    decide
  · rw [longLogin, List.length_nil]
    decide
  · rw [longLogin_decodes_iff]
    decide

end Starfall.Buffer
