import Starfall.Common.Frame
import Starfall.Common.Player

/-! `Send.cpp`: the replies of the server, each queued as one packet. -/

namespace Starfall.Send

open Buffer

variable {F : Type} [FloatBits F]

inductive SendFunction
  | LoginReply
  | CreateEntityData
  | TransformEntityData
  | ObjectsReply
  deriving DecidableEq, Repr

def map : SendFunction → Option UInt32
  | .LoginReply => some (0x10000000 ||| 0x01)
  | .CreateEntityData => some (0x10000000 ||| 0x03)
  | .TransformEntityData => some (0x10000000 ||| 0x04)
  | .ObjectsReply => some (0x10000000 ||| 0x06)

/-- `Send::Enqueue`, which returns false when `map.at` throws. -/
def enqueue (p : Player F) (caller : SendFunction) (body : List UInt8) : Bool × Player F :=
  match map caller with
  | some opcode =>
    let head : Head := ⟨(0xFFFFFFFF : UInt32).toInt32, opcode.toInt32,
      (UInt32.ofNat body.length).toInt32, (0xFFFFFFFF : UInt32).toInt32⟩
    (true, { p with sendQueue := p.sendQueue ++ [writeHead head ++ body] })
  | none => (false, p)

def loginReply (p : Player F) : Bool × Player F :=
  enqueue p .LoginReply (writeLoginStruct p.toLoginStruct)

def createEntityData (p : Player F) : Bool × Player F :=
  enqueue p .CreateEntityData (writeCreateEntities p.createEntityQueue)

def transformEntityData (p : Player F) : Bool × Player F :=
  enqueue p .TransformEntityData (writeTransformEntities p.transformEntityQueue)

def objectsUpdate (p : Player F) : ObjectsUpdateStruct F :=
  ⟨p.updateState, p.farClipDistance, p.createEntityQueue, p.destroyEntityQueue⟩

def objectsReply (p : Player F) : Bool × Player F :=
  enqueue p .ObjectsReply (writeObjectsUpdate (objectsUpdate p))

omit [FloatBits F] in
/-- Every function has an opcode, so that `enqueue` always queues a packet with the given body and
changes nothing else. -/
theorem enqueue_eq (p : Player F) (caller : SendFunction) (body : List UInt8) :
    ∃ head, enqueue p caller body =
      (true, { p with sendQueue := p.sendQueue ++ [writeHead head ++ body] }) := by
  cases caller <;> exact ⟨_, rfl⟩

omit [FloatBits F] in
/-- A packet whose size an `int` can express is queued as the bytes of a frame. -/
theorem enqueue_frame (p : Player F) (caller : SendFunction) {body : List UInt8}
    (fits : body.length < 2 ^ 31) :
    ∃ opcode, map caller = some opcode ∧ enqueue p caller body =
      (true, { p with sendQueue := p.sendQueue ++ [(⟨-1, opcode, -1, body, fits⟩ : Frame).bytes] })
    := by
  cases caller <;> exact ⟨_, rfl, rfl⟩

def call : SendFunction → Player F → Bool × Player F
  | .LoginReply => loginReply
  | .CreateEntityData => createEntityData
  | .TransformEntityData => transformEntityData
  | .ObjectsReply => objectsReply

/-- The body that a function hands to `enqueue`. -/
def body : SendFunction → Player F → List UInt8
  | .LoginReply, p => writeLoginStruct p.toLoginStruct
  | .CreateEntityData, p => writeCreateEntities p.createEntityQueue
  | .TransformEntityData, p => writeTransformEntities p.transformEntityQueue
  | .ObjectsReply, p => writeObjectsUpdate (objectsUpdate p)

theorem call_eq (f : SendFunction) (p : Player F) : call f p = enqueue p f (body f p) := by
  cases f <;> rfl

end Starfall.Send
