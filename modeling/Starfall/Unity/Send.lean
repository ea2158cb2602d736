import Starfall.Unity.Buffer
import Starfall.Unity.World

/-! `Network.js`: the class `Send` of the Unity client, and the part of `Player` that it sends.  A
buffer of the `sendQueue` is the bytes of one packet. -/

namespace Starfall.Unity

open ProofKit.Writing

structure LoginStruct where
  state : Int32
  userid : UInt32
  usertype : UInt32
  username : Text
  password : Text
  deriving DecidableEq, Repr

/-- A `Player`.  The queues of its `User` that the receive thread does not share stand beside those
that it does. -/
structure Player (F : Type) where
  user : User F
  login : LoginStruct
  sendQueue : List (List UInt8)
  consoleQueue : List Text
  objectsQueue : List UInt32
  transformPlayerStruct : TransformEntityStruct F
  deriving DecidableEq, Repr

namespace GameClient

open Unity.Buffer

inductive SendFunction
  | LoginData
  | ConsoleData
  | TransformData
  | ObjectsData
  deriving DecidableEq, Repr

def sendMap : SendFunction → UInt32
  | .LoginData => 0x01
  | .ConsoleData => 0x02
  | .TransformData => 0x04
  | .ObjectsData => 0x06

variable {F : Type} [FloatBits F] (littleEndian : Bool)

/-- What a function writes into its buffer, and the player that it leaves. -/
abbrev Body (F : Type) := Write × Player F

def loginData (p : Player F) : Body F :=
  (writeUInt32 p.login.state.toUInt32 >=> writeUInt32 p.login.userid >=>
    writeUInt32 p.login.usertype >=> writeString p.login.username >=>
    writeString p.login.password, p)

/-- The loop takes the strings from the front of the queue until it is empty. -/
def consoleData (p : Player F) : Body F :=
  (writeUInt32 (.ofNat p.consoleQueue.length) >=> forEach writeString p.consoleQueue,
    { p with consoleQueue := [] })

def writeTransformStruct (t : TransformStruct F) : Write :=
  writeUInt32 t.action >=> writeFloat littleEndian t.position.x >=>
    writeFloat littleEndian t.position.y >=> writeFloat littleEndian t.position.z >=>
    writeFloat littleEndian t.orientation.x >=> writeFloat littleEndian t.orientation.y >=>
    writeFloat littleEndian t.orientation.z >=> writeFloat littleEndian t.orientation.w

def transformData (p : Player F) : Body F :=
  (writeUInt32 (.ofNat p.transformPlayerStruct.path.length) >=>
    forEach (writeTransformStruct littleEndian) p.transformPlayerStruct.path, p)

def objectsData (p : Player F) : Body F :=
  (writeUInt32 p.user.checkObjectsState >=> writeFloat littleEndian p.user.checkObjectsRadius >=>
    writeUInt32 (.ofNat p.objectsQueue.length) >=> forEach writeUInt32 p.objectsQueue,
    { p with objectsQueue := [] })

def callSend : SendFunction → Player F → Body F
  | .LoginData, p => loginData p
  | .ConsoleData, p => consoleData p
  | .TransformData, p => transformData littleEndian p
  | .ObjectsData, p => objectsData littleEndian p

/-- The header with the size 0, and the index of the size. -/
def startPacket (opcode : UInt32) : Option (Bytes × Nat) := do
  let buffer ← (writeUInt32 0xFFFFFFFF >=> writeUInt32 opcode) .empty
  let indexBodySize := buffer.toList.length
  let buffer ← (writeUInt32 0 >=> writeUInt32 0xFFFFFFFF) buffer
  let buffer ← forEach writeUInt8 (List.replicate (Head.size - buffer.toList.length) 0) buffer
  some (buffer, indexBodySize)

/-- The size, written at the end and moved from there to its index. -/
def patchSize (bodysize : UInt32) (indexBodySize : Nat) (buffer : Bytes) : Option Bytes := do
  let buffer ← writeUInt32 bodysize buffer
  let (d, buffer) ← buffer.pop
  let (c, buffer) ← buffer.pop
  let (b, buffer) ← buffer.pop
  let (a, buffer) ← buffer.pop
  some ((((buffer.set indexBodySize a).set (indexBodySize + 1) b).set (indexBodySize + 2) c).set
    (indexBodySize + 3) d)

/-- `Enqueue`, which returns true whenever it returns. -/
def enqueue (p : Player F) (sendFunction : SendFunction) : Option (Player F) := do
  let (write, p) := callSend littleEndian sendFunction p
  let body ← write .empty
  let (buffer, indexBodySize) ← startPacket (sendMap sendFunction)
  let begin := buffer.toList.length
  let buffer ← forEach push body.toList buffer
  let bodysize := UInt32.ofNat (buffer.toList.length - begin)
  let buffer ← patchSize bodysize indexBodySize buffer
  some { p with sendQueue := p.sendQueue ++ [buffer.toList] }

end GameClient

end Starfall.Unity
