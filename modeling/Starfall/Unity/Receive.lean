import Starfall.Unity.Network
import Starfall.Unity.Send

/-! `Network.js`: the class `Receive` of the Unity client, and `GameClient.ReceivePacket`, which
receives a header and a body and hands the body to the receive function of the opcode. -/

namespace Starfall.Unity

open ProofKit.Reading Unity.Buffer

namespace GameClient

inductive ReceiveFunction
  | LoginReply
  | CreateEntity
  | TransformEntity
  | DestroyEntity
  | ObjectsReply
  deriving DecidableEq, Repr

/-- The table of `Receive`, whose keys are the opcodes as decimal numbers. -/
def receiveMap (opcode : UInt32) : Option ReceiveFunction :=
  if opcode = 0x10000000 ||| 0x01 then some .LoginReply
  else if opcode = 0x10000000 ||| 0x03 then some .CreateEntity
  else if opcode = 0x10000000 ||| 0x04 then some .TransformEntity
  else if opcode = 0x10000000 ||| 0x05 then some .DestroyEntity
  else if opcode = 0x10000000 ||| 0x06 then some .ObjectsReply
  else none

end GameClient

/-- The player after what the receive thread does under one of the mutexes. -/
def Player.perform {F : Type} (p : Player F) (action : Action F) : Player F :=
  { p with user := p.user.perform action }

namespace GameClient

section Functions

variable {F : Type}

def readLogin : Read LoginStruct := do
  let state ← readUInt32
  let userid ← readUInt32
  let usertype ← readUInt32
  let username ← readString
  let password ← readString
  pure ⟨state.toInt32, userid, usertype, username, password⟩

/-- `LoginReply`, which leaves the player alone when the userid is the player's. -/
def loginReply (p : Player F) : Read (Player F) := do
  let loginStruct ← readLogin
  if p.login.userid ≠ loginStruct.userid then
    pure { p with login := loginStruct }
  else
    pure p

variable [FloatBits F] (littleEndian : Bool)

/-- The position and the rotation of a record. -/
def readTransform : Read (Transform F) := do
  let px ← readFloat littleEndian
  let py ← readFloat littleEndian
  let pz ← readFloat littleEndian
  let rx ← readFloat littleEndian
  let ry ← readFloat littleEndian
  let rz ← readFloat littleEndian
  let rw ← readFloat littleEndian
  pure ⟨⟨px, py, pz⟩, ⟨rx, ry, rz, rw⟩⟩

/-- A round of the loop of `CreateEntity`.  A name that was read is ASCII, and stands in the record
as its bytes. -/
def readCreateEntity : Read (CreateEntityStruct F) := do
  let sessionid ← readUInt32
  let mode ← readUInt32
  let displayName ← readString
  let transform ← readTransform littleEndian
  pure { transform with sessionid, mode, displayName := displayName.map UInt16.toUInt8 }

def createEntity (p : Player F) : Read (Player F) := do
  let length ← readUInt32
  repeatUpdate (fun p => do
    let c ← readCreateEntity littleEndian
    pure (p.perform (.createEntity c))) length.toNat p

def readTransformStruct : Read (TransformStruct F) := do
  let action ← readUInt32
  let transform ← readTransform littleEndian
  pure { transform with action }

def readTransformEntity : Read (TransformEntityStruct F) := do
  let sessionid ← readUInt32
  let pathLength ← readUInt32
  let path ← repeatRead (readTransformStruct littleEndian) pathLength.toNat
  pure ⟨sessionid, path⟩

def transformEntity (p : Player F) : Read (Player F) := do
  let entityLength ← readUInt32
  repeatUpdate (fun p => do
    let t ← readTransformEntity littleEndian
    pure (p.perform (.transformEntity t))) entityLength.toNat p

def destroyEntity (p : Player F) : Read (Player F) := do
  let length ← readUInt32
  repeatUpdate (fun p => do
    let sessionid ← readUInt32
    pure (p.perform (.destroyEntity ⟨sessionid⟩))) length.toNat p

def objectsReply (p : Player F) : Read (Player F) := do
  let state ← readUInt32
  let p ← createEntity littleEndian (p.perform (.setState state))
  destroyEntity p

def callReceive : ReceiveFunction → Player F → Read (Player F)
  | .LoginReply => loginReply
  | .CreateEntity => createEntity littleEndian
  | .TransformEntity => transformEntity littleEndian
  | .DestroyEntity => destroyEntity
  | .ObjectsReply => objectsReply littleEndian

end Functions

end GameClient

/-- A `GameClient`: the bytes that its socket has not delivered, the receive functions that were
called, and the player. -/
structure GameClient (F : Type) where
  unread : List UInt8
  called : List GameClient.ReceiveFunction
  player : Player F

namespace GameClient

/-- `Receive` into an array of `length` bytes, when it returns `n`: between 1 and `length` of the
next bytes, or 0 when there is nothing to receive or the connection has ended. -/
def receive (unread : List UInt8) (length n : Nat) :
    Except Interrupt (List UInt8 × List UInt8) :=
  if n ≤ length ∧ n ≤ unread.length ∧ (0 < n ∨ length = 0 ∨ unread = []) then
    .ok (unread.take n, unread.drop n)
  else
    .error .notDelivered

/-- The fields of a `Head`. -/
def readHead : Read (UInt32 × UInt32 × UInt32 × UInt32) := do
  let begin ← readUInt32
  let opcode ← readUInt32
  let bodysize ← readUInt32
  let end_ ← readUInt32
  pure (begin, opcode, bodysize, end_)

variable {F : Type} [FloatBits F] (littleEndian : Bool)

/-- `ReceivePacket`, when its two calls of `Receive` return what `n` and `n2` make of the number of
bytes that they ask for. -/
def receivePacket (c : GameClient F) (n n2 : Nat → Nat) : Except Interrupt (GameClient F) := do
  let (receivedHeaderBytes, unread) ← receive c.unread Head.size (n Head.size)
  if n Head.size = 0 then
    pure { c with unread }
  else
    let ((_, opcode, bodysize, _), _) ← readHead (.start receivedHeaderBytes)
    if 2 ^ 31 ≤ bodysize.toNat then
      throw .overflow
    else
      let (receivedBodyBytes, unread) ← receive unread bodysize.toNat (n2 bodysize.toNat)
      match receiveMap opcode with
      | some receiveFunction =>
        let (player, _) ←
          callReceive littleEndian receiveFunction c.player (.start receivedBodyBytes)
        pure { unread, player, called := c.called ++ [receiveFunction] }
      | none => pure { c with unread }

/-- As many calls of `ReceivePacket` as the number says, in each of which the socket returns all the
bytes that are asked for. -/
def receivePackets : Nat → GameClient F → Except Interrupt (GameClient F)
  | 0, c => pure c
  | k + 1, c => do
    let c ← receivePacket littleEndian c id id
    receivePackets k c

end GameClient

end Starfall.Unity
