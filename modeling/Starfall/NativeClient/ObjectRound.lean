import Starfall.Common.Canonical
import Starfall.NativeClient.Client
import Starfall.Server.Send

/-! An object round on its way to the native client.  The client files `ObjectsReply` under the
opcode of the server's `TransformEntityData`, and the other way round.  So it drops the creates and
destroys, and takes them from the records of the transforms. -/

namespace Starfall.NativeClient

open ProofKit.Reading Buffer

variable {F : Type} [FloatBits F]

/-- The packets that `Receive::ObjectsData` enqueues. -/
def roundPackets (s : Player F) : List (List UInt8) :=
  (Send.transformEntityData (Send.objectsReply { s with sendQueue := [] }).2).2.sendQueue

/-- Both packets of the round are dispatched, and the queues of the client have its creates and
destroys, which `ObjectsReply` inserts at the front. -/
def Reaches (s p : Player F) : Prop :=
  ∃ p', (roundPackets s).foldlM deliver p = .ok p' ∧
    p'.createEntityQueue = s.createEntityQueue ++ p.createEntityQueue ∧
    p'.destroyEntityQueue = s.destroyEntityQueue ++ p.destroyEntityQueue

theorem deliver_roundPackets (s p : Player F) :
    (roundPackets s).foldlM deliver p =
      objectsReply p (.start (writeTransformEntities s.transformEntityQueue)) := by
  obtain ⟨first, hfirst⟩ : ∃ first : Head, first.opcode.toUInt32 = 0x10000000 ||| 0x06 ∧
      (Send.objectsReply { s with sendQueue := [] }).2 = { s with
        sendQueue := [writeHead first ++ writeObjectsUpdate (Send.objectsUpdate s)] } :=
    ⟨_, rfl, rfl⟩
  obtain ⟨second, hsecond, hpackets⟩ : ∃ second : Head,
      second.opcode.toUInt32 = 0x10000000 ||| 0x04 ∧ roundPackets s =
        [writeHead first ++ writeObjectsUpdate (Send.objectsUpdate s),
          writeHead second ++ writeTransformEntities s.transformEntityQueue] := by
    rw [roundPackets, hfirst.2]
    exact ⟨_, rfl, rfl⟩
  have hmap1 : map first.opcode.toUInt32 = some .TransformEntityData := by
    rw [hfirst.1]
    rfl
  have hmap2 : map second.opcode.toUInt32 = some .ObjectsReply := by
    rw [hsecond]
    rfl
  rw [hpackets, List.foldlM_cons, deliver_of_some hmap1]
  show List.foldlM deliver p _ = _
  rw [List.foldlM_cons, deliver_of_some hmap2]
  show (objectsReply p _ >>= fun p => pure p) = _
  exact bind_pure _

/-- What the decoder of the client takes for a create: in the place of the display name stands a
word, of which the lowest byte is the name. -/
structure CreateWords (F : Type) extends Transform F where
  sessionid : UInt32
  mode : UInt32
  name : UInt32

namespace CreateWords

def bytes (w : CreateWords F) : List UInt8 :=
  writeUInt32 w.sessionid ++ (writeUInt32 w.mode ++ (writeUInt32 w.name ++
    writeTransform w.toTransform))

theorem bytes_length (w : CreateWords F) : w.bytes.length = 40 := rfl

def createEntityStruct (w : CreateWords F) : CreateEntityStruct F :=
  { w.toTransform with sessionid := w.sessionid, mode := w.mode, displayName := [w.name.toUInt8] }

end CreateWords

/-- The words of the transforms begin with those of the creates and destroys. -/
def Disguised (s : Player F) : Prop :=
  ∃ creates : List (CreateWords F), creates.length < 2 ^ 32 ∧
    s.createEntityQueue = creates.map CreateWords.createEntityStruct ∧
    s.destroyEntityQueue.length < 2 ^ 32 ∧
    writeVector CreateWords.bytes creates ++ writeDestroyEntities s.destroyEntityQueue <+:
      s.transformEntityQueue.flatMap writeTransformEntity

section Decoding

variable [LawfulFloatBits F]

theorem reads_createWords (w : CreateWords F) :
    Reads readCreateEntity w.bytes w.createEntityStruct :=
  (reads_uint32 _).bind ((reads_uint32 _).bind ((reads_uint32 _).bind
    (reads_transform w.toTransform).bind_pure))

theorem covers_createWords : Covers (CreateWords.bytes : CreateWords F → List UInt8) (4 * 10) := by
  intro bytes h
  obtain ⟨⟨sessionid, mode, name, transform⟩, hbytes⟩ := (covers_uint32.append
    (covers_uint32.append (covers_uint32.append (covers_transform (F := F))))) bytes h
  exact ⟨{ transform with sessionid, mode, name }, hbytes⟩

omit [LawfulFloatBits F] in
theorem words_createEntity : Words 10 (readCreateEntity : Read (CreateEntityStruct F)) :=
  Words.uint32.bind fun _ => Words.uint32.bind fun _ => Words.uint32.bind fun _ =>
    words_transform.bind fun _ => Words.pure _

theorem covers_destroyEntity : Covers writeDestroyEntity (4 * 1) := by
  intro bytes h
  obtain ⟨sessionid, hbytes⟩ := covers_uint32 bytes h
  exact ⟨⟨sessionid⟩, hbytes⟩

theorem words_destroyEntity : Words 1 readDestroyEntity :=
  Words.uint32.bind fun _ => Words.pure _

/-- After a state, the decoder of `ObjectsReply` takes creates and destroys from words if and only
if the words begin with them. -/
theorem readObjectsUpdate_iff {bytes : List UInt8} (aligned : bytes.length % 4 = 0)
    (state : UInt32) (creates : List (CreateEntityStruct F)) (destroys : List DestroyEntityStruct) :
    (∃ update c, readObjectsUpdate (.start (writeUInt32 state ++ bytes)) = .ok (update, c) ∧
      update.createEntities = creates ∧ update.destroyEntities = destroys) ↔
    ∃ words : List (CreateWords F), words.length < 2 ^ 32 ∧
      creates = words.map CreateWords.createEntityStruct ∧ destroys.length < 2 ^ 32 ∧
      writeVector CreateWords.bytes words ++ writeDestroyEntities destroys <+: bytes := by
  constructor
  · rintro ⟨update, c, h, rfl, rfl⟩
    rw [readObjectsUpdate, bind_of_ok ((reads_uint32 state).start bytes)] at h
    obtain ⟨creates, c2, hcreates, h⟩ := bind_eq_ok h
    obtain ⟨destroys, c3, hdestroys, h⟩ := bind_eq_ok h
    cases h
    have hrest : ((Cursor.start (writeUInt32 state ++ bytes)).advance
        (writeUInt32 state).length).rest = bytes := by
      rw [Cursor.rest_advance, Cursor.rest_start, List.drop_left]
    obtain ⟨words, hwords, rfl, hrest1⟩ := readVector_aligned words_createEntity covers_createWords
      reads_createWords (by rw [hrest]; exact aligned) hcreates
    rw [hrest] at hrest1
    have aligned2 : c2.rest.length % 4 = 0 := by
      have hlen := congrArg List.length hrest1
      rw [List.length_append, writeVector_length (fun w => w.bytes_length)] at hlen
      omega
    obtain ⟨ids, hids, hsame, hrest2⟩ := readVector_aligned words_destroyEntity
      covers_destroyEntity reads_destroyEntity aligned2 hdestroys
    rw [List.map_id'] at hsame
    subst hsame
    refine ⟨words, hwords, rfl, hids, c.rest, ?_⟩
    rw [List.append_assoc, writeDestroyEntities, ← hrest2, ← hrest1]
  · rintro ⟨words, hwords, rfl, hdestroys, suffix, rfl⟩
    have creates : Reads readCreateEntities (writeVector CreateWords.bytes words)
        (words.map (CreateWords.createEntityStruct (F := F))) :=
      reads_vector_map hwords fun w _ => reads_createWords w
    have ids : Reads readDestroyEntities (writeDestroyEntities destroys) destroys :=
      reads_vector hdestroys fun d _ => reads_destroyEntity d
    have update : Reads readObjectsUpdate (writeUInt32 state ++
        (writeVector CreateWords.bytes words ++ writeDestroyEntities destroys))
        ⟨state, FloatBits.ofBits 0, words.map CreateWords.createEntityStruct, destroys⟩ :=
      (reads_uint32 state).bind (creates.bind ids.bind_pure)
    have h := update.start suffix
    rw [List.append_assoc] at h
    exact ⟨_, _, h, rfl, rfl⟩

omit [LawfulFloatBits F] in
theorem transforms_aligned (transforms : List (TransformEntityStruct F)) :
    (transforms.flatMap writeTransformEntity).length % 4 = 0 := by
  induction transforms with
  | nil => rfl
  | cons t transforms ih =>
    simp only [List.flatMap_cons, List.length_append, writeTransformEntity_length]
    omega

omit [LawfulFloatBits F] in
theorem objectsReply_iff (p : Player F) (bytes : List UInt8)
    (creates : List (CreateEntityStruct F)) (destroys : List DestroyEntityStruct) :
    (∃ p', objectsReply p (.start bytes) = .ok p' ∧
      p'.createEntityQueue = creates ++ p.createEntityQueue ∧
      p'.destroyEntityQueue = destroys ++ p.destroyEntityQueue) ↔
    ∃ update c, readObjectsUpdate (.start bytes) = .ok (update, c) ∧
      update.createEntities = creates ∧ update.destroyEntities = destroys := by
  constructor
  · rintro ⟨p', h, hcreates, hdestroys⟩
    obtain ⟨⟨update, c⟩, hupdate, h⟩ := except_bind_eq_ok h
    cases h
    exact ⟨update, c, hupdate, List.append_cancel_right hcreates,
      List.append_cancel_right hdestroys⟩
  · rintro ⟨update, c, hupdate, rfl, rfl⟩
    have h : objectsReply p (.start bytes) = .ok { p with
        createEntityQueue := update.createEntities ++ p.createEntityQueue
        destroyEntityQueue := update.destroyEntities ++ p.destroyEntityQueue } := by
      rw [objectsReply, except_bind_of_ok hupdate]
      rfl
    exact ⟨_, h, rfl, rfl⟩

end Decoding

/-- The round reaches the client exactly when the transforms are words that begin with its creates
and destroys. -/
theorem reaches_iff_disguised (s p : Player UInt32) : Reaches s p ↔ Disguised s := by
  rw [Reaches, deliver_roundPackets, objectsReply_iff, writeTransformEntities, writeVector]
  exact readObjectsUpdate_iff (transforms_aligned s.transformEntityQueue) _ _ _

/-- A player whose client is told of one entity, and of nothing that moved. -/
def aloneWithOne : Player UInt32 :=
  { Player.create ⟨⟨0, 0, 0⟩, ⟨0, 0, 0, 0⟩⟩ 1 with
    createEntityQueue := [⟨⟨⟨0, 0, 0⟩, ⟨0, 0, 0, 0⟩⟩, 2, 2, Player.initialName⟩] }

/-- The client looks for the creates behind the end of the second packet. -/
theorem aloneWithOne_not_reaches :
    (roundPackets aloneWithOne).foldlM deliver aloneWithOne.clearAll = .error (.outOfRange 4) ∧
      ¬Reaches aloneWithOne aloneWithOne.clearAll := by
  have fault : (roundPackets aloneWithOne).foldlM deliver aloneWithOne.clearAll =
      .error (.outOfRange 4) := by
    rw [deliver_roundPackets]
    rfl
  refine ⟨fault, ?_⟩
  rintro ⟨p', h, -⟩
  rw [fault] at h
  cases h

end Starfall.NativeClient
