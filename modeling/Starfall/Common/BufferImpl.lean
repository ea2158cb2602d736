import Starfall.Common.Structs

/-! `BufferImpl.h`: the instances of `operator>>` as readers, and the instances of `operator<<` as
the bytes that they append. -/

namespace Starfall.Buffer

open ProofKit.Reading

variable {F : Type} [FloatBits F]

def readFloat : Read F := do
  let i ← readUInt32
  pure (FloatBits.ofBits i)

def writeFloat (value : F) : List UInt8 :=
  writeUInt32 (FloatBits.toBits value)

/-- A count, and as many elements: what the readers of vectors have in common. -/
def readVector {α : Type} (element : Read α) : Read (List α) := do
  let size ← readUInt32
  repeatRead element size.toNat

def writeVector {α : Type} (element : α → List UInt8) (list : List α) : List UInt8 :=
  writeUInt32 (.ofNat list.length) ++ list.flatMap element

/-- `setHex(this->hex())`, and the value: what the readers of packets with a dump have in common. -/
def readPacket {α : Type} (fields : Read α) : Read (Packet α) := do
  let dump ← hex
  let value ← fields
  pure ⟨value, dump⟩

def readHeadFields : Read Head := do
  let begin ← readUInt32
  let opcode ← readUInt32
  let bodysize ← readUInt32
  let end_ ← readUInt32
  pure ⟨begin.toInt32, opcode.toInt32, bodysize.toInt32, end_.toInt32⟩

def readHead : Read (Packet Head) := readPacket readHeadFields

def readLoginFields : Read LoginStruct := do
  let state ← readUInt32
  let userid ← readUInt32
  let usertype ← readUInt32
  let username ← readString
  let password ← readString
  pure ⟨state, userid, usertype, username, password⟩

def readLoginStruct : Read (Packet LoginStruct) := readPacket readLoginFields

def readTransform : Read (Transform F) := do
  let px ← readFloat
  let py ← readFloat
  let pz ← readFloat
  let ox ← readFloat
  let oy ← readFloat
  let oz ← readFloat
  let ow ← readFloat
  pure ⟨⟨px, py, pz⟩, ⟨ox, oy, oz, ow⟩⟩

/-- One round of the loop over a `vector<CreateEntityStruct>`.  The display name is assigned an
integer, which `std::string` takes as one `char`. -/
def readCreateEntity : Read (CreateEntityStruct F) := do
  let sessionid ← readUInt32
  let mode ← readUInt32
  let displayName ← readUInt32
  let transform ← readTransform
  pure { transform with sessionid, mode, displayName := [displayName.toUInt8] }

def readCreateEntities : Read (List (CreateEntityStruct F)) := readVector readCreateEntity

def readDestroyEntity : Read DestroyEntityStruct := do
  let sessionid ← readUInt32
  pure ⟨sessionid⟩

def readDestroyEntities : Read (List DestroyEntityStruct) := readVector readDestroyEntity

def readTransformStruct : Read (TransformStruct F) := do
  let action ← readUInt32
  let transform ← readTransform
  pure { transform with action }

def readTransformStructs : Read (List (TransformStruct F)) := readVector readTransformStruct

def readTransformsPacket : Read (Packet (List (TransformStruct F))) :=
  readPacket readTransformStructs

def readTransformEntity : Read (TransformEntityStruct F) := do
  let sessionid ← readUInt32
  let path ← readTransformStructs
  pure ⟨sessionid, path⟩

def readTransformEntities : Read (Packet (List (TransformEntityStruct F))) :=
  readPacket (readVector readTransformEntity)

def readIds : Read (List UInt32) := readVector readUInt32

/-- `Packet<ObjectsStruct>`, which sets no dump. -/
def readObjectsStruct : Read (ObjectsStruct F) := do
  let state ← readUInt32
  let farClipDistance ← readFloat
  let ids ← readIds
  pure ⟨state, farClipDistance, ids⟩

/-- `Packet<ObjectsUpdateStruct>`, which sets no dump.  The far clip distance keeps its default. -/
def readObjectsUpdate : Read (ObjectsUpdateStruct F) := do
  let state ← readUInt32
  let createEntities ← readCreateEntities
  let destroyEntities ← readDestroyEntities
  pure ⟨state, FloatBits.ofBits 0, createEntities, destroyEntities⟩

def writeHead (head : Head) : List UInt8 :=
  writeUInt32 head.begin.toUInt32 ++ (writeUInt32 head.opcode.toUInt32 ++
    (writeUInt32 head.bodysize.toUInt32 ++ writeUInt32 head.end_.toUInt32))

def writeLoginStruct (login : LoginStruct) : List UInt8 :=
  writeUInt32 login.state ++ (writeUInt32 login.userid ++ (writeUInt32 login.usertype ++
    (writeString login.username ++ writeString login.password)))

def writeTransform (transform : Transform F) : List UInt8 :=
  writeFloat transform.position.x ++ (writeFloat transform.position.y ++
    (writeFloat transform.position.z ++ (writeFloat transform.orientation.x ++
    (writeFloat transform.orientation.y ++ (writeFloat transform.orientation.z ++
      writeFloat transform.orientation.w)))))

def writeDestroyEntity (destroyed : DestroyEntityStruct) : List UInt8 :=
  writeUInt32 destroyed.sessionid

def writeDestroyEntities : List DestroyEntityStruct → List UInt8 := writeVector writeDestroyEntity

def writeCreateEntity (created : CreateEntityStruct F) : List UInt8 :=
  writeUInt32 created.sessionid ++ (writeUInt32 created.mode ++
    (writeString created.displayName ++ writeTransform created.toTransform))

def writeCreateEntities : List (CreateEntityStruct F) → List UInt8 := writeVector writeCreateEntity

def writeTransformStruct (node : TransformStruct F) : List UInt8 :=
  writeUInt32 node.action ++ writeTransform node.toTransform

def writeTransformStructs : List (TransformStruct F) → List UInt8 :=
  writeVector writeTransformStruct

def writeTransformEntity (transformed : TransformEntityStruct F) : List UInt8 :=
  writeUInt32 transformed.sessionid ++ writeTransformStructs transformed.path

def writeTransformEntities : List (TransformEntityStruct F) → List UInt8 :=
  writeVector writeTransformEntity

def writeIds : List UInt32 → List UInt8 := writeVector writeUInt32

def writeObjectsStruct (objects : ObjectsStruct F) : List UInt8 :=
  writeUInt32 objects.state ++ (writeFloat objects.farClipDistance ++ writeIds objects.ids)

def writeObjectsUpdate (update : ObjectsUpdateStruct F) : List UInt8 :=
  writeUInt32 update.state ++
    (writeCreateEntities update.createEntities ++ writeDestroyEntities update.destroyEntities)

end Starfall.Buffer
