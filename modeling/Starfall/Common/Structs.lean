import Starfall.Common.Buffer

/-! The structures that the packets carry, as the headers of `Common` declare them.  Positions and
orientations are generic in the type of `float`s. -/

namespace Starfall

/-- A type with the 32-bit patterns of its values, as the `union` in `readFloat` and `writeFloat`
sees them. -/
class FloatBits (F : Type) where
  toBits : F → UInt32
  ofBits : UInt32 → F

/-- The patterns determine the values, and every pattern is one of a value. -/
class LawfulFloatBits (F : Type) [FloatBits F] : Prop where
  ofBits_toBits : ∀ x : F, FloatBits.ofBits (FloatBits.toBits x) = x
  toBits_ofBits : ∀ w : UInt32, FloatBits.toBits (FloatBits.ofBits w : F) = w

instance : FloatBits UInt32 := ⟨id, id⟩

instance : LawfulFloatBits UInt32 := ⟨fun _ => rfl, fun _ => rfl⟩

structure Vec3 (F : Type) where
  x : F
  y : F
  z : F
  deriving DecidableEq, Repr

structure Quat (F : Type) where
  x : F
  y : F
  z : F
  w : F
  deriving DecidableEq, Repr

structure Transform (F : Type) where
  position : Vec3 F
  orientation : Quat F
  deriving DecidableEq, Repr

/-- The header of a packet: four fields of type `int`. -/
structure Head where
  begin : Int32
  opcode : Int32
  bodysize : Int32
  end_ : Int32
  deriving DecidableEq, Repr

/-- The number of bytes of a header on the wire. -/
def Head.size : Nat := 16

/-- `LOGIN_STATES`, as the values of the field `state`. -/
def LOGIN_STATE_NOT_LOGGED_IN : UInt32 := 0

def LOGIN_STATE_LOGGING_IN : UInt32 := 1

def LOGIN_STATE_LOGGED_IN : UInt32 := 2

structure LoginStruct where
  state : UInt32
  userid : UInt32
  usertype : UInt32
  username : Str
  password : Str
  deriving DecidableEq, Repr

structure CreateEntityStruct (F : Type) extends Transform F where
  sessionid : UInt32
  mode : UInt32
  displayName : Str
  deriving DecidableEq, Repr

structure DestroyEntityStruct where
  sessionid : UInt32
  deriving DecidableEq, Repr

structure TransformStruct (F : Type) extends Transform F where
  action : UInt32
  deriving DecidableEq, Repr

structure TransformEntityStruct (F : Type) where
  sessionid : UInt32
  path : List (TransformStruct F)
  deriving DecidableEq, Repr

structure ObjectsStruct (F : Type) where
  state : UInt32
  farClipDistance : F
  ids : List UInt32
  deriving DecidableEq, Repr

structure ObjectsUpdateStruct (F : Type) where
  state : UInt32
  farClipDistance : F
  createEntities : List (CreateEntityStruct F)
  destroyEntities : List DestroyEntityStruct
  deriving DecidableEq, Repr

/-- A value read from a packet, with the dump of the bytes that it was read from. -/
structure Packet (T : Type) where
  value : T
  hex : List Char
  deriving DecidableEq, Repr

end Starfall
