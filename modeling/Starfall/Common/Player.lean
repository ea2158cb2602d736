import Starfall.Common.BufferImpl

/-! `Entity.cpp`, `User.cpp` and `Player.cpp`: entities, the map that files them under their session
ids, and the player that a connection owns. -/

namespace Starfall

variable {F : Type}

structure Entity (F : Type) extends Transform F where
  displayName : Str
  mode : UInt32
  sessionid : UInt32
  path : List (TransformStruct F)
  deriving DecidableEq, Repr

namespace Entity

def addToPath (e : Entity F) (transformStruct : TransformStruct F) : Entity F :=
  { e with path := e.path ++ [transformStruct] }

def clearPath (e : Entity F) : Entity F := { e with path := [] }

def castCreateEntityStruct (e : Entity F) : CreateEntityStruct F :=
  { e.toTransform with sessionid := e.sessionid, mode := e.mode, displayName := e.displayName }

/-- The copy of the path is emptied from its front into the new path. -/
def castTransformEntityStruct (e : Entity F) : TransformEntityStruct F :=
  ⟨e.sessionid, e.path⟩

end Entity

/-- `Entity::Map`: each entity is filed once, under its own session id. -/
structure EntityMap (F : Type) where
  entities : List (Entity F)
  nodup : (entities.map Entity.sessionid).Nodup

namespace EntityMap

/-- `Entity::Keys`. -/
def keys (map : EntityMap F) : List UInt32 := map.entities.map Entity.sessionid

def find (map : EntityMap F) (sessionid : UInt32) : Option (Entity F) :=
  map.entities.find? fun e => e.sessionid = sessionid

/-- `Entity::FindCreateEntityStruct`, with `none` for an id that is not filed. -/
def findCreateEntityStruct (map : EntityMap F) (sessionid : UInt32) :
    Option (CreateEntityStruct F) :=
  (map.find sessionid).map Entity.castCreateEntityStruct

/-- `Entity::FindTransformEntityStruct`, with `none` for an id that is not filed. -/
def findTransformEntityStruct (map : EntityMap F) (sessionid : UInt32) :
    Option (TransformEntityStruct F) :=
  (map.find sessionid).map Entity.castTransformEntityStruct

theorem find_of_mem {map : EntityMap F} {e : Entity F} (h : e ∈ map.entities) :
    map.find e.sessionid = some e := by
  obtain ⟨entities, nodup⟩ := map
  simp only [find] at h ⊢
  induction entities with
  | nil => cases h
  | cons a entities ih =>
    rw [List.map_cons, List.nodup_cons] at nodup
    rcases List.mem_cons.mp h with rfl | h
    · simp
    · have hne : a.sessionid ≠ e.sessionid := fun he =>
        nodup.1 (he ▸ List.mem_map_of_mem h)
      rw [List.find?_cons_of_neg (by simpa using hne)]
      exact ih nodup.2 h

end EntityMap

namespace Vec3

def sub [Sub F] (a b : Vec3 F) : Vec3 F := ⟨a.x - b.x, a.y - b.y, a.z - b.z⟩

def length2 [Add F] [Mul F] (v : Vec3 F) : F := v.x * v.x + v.y * v.y + v.z * v.z

end Vec3

/-- The queues of a user.  A buffer of `sendQueue` is the bytes of one packet. -/
structure User (F : Type) where
  sendQueue : List (List UInt8)
  destroyEntityQueue : List DestroyEntityStruct
  createEntityQueue : List (CreateEntityStruct F)
  transformEntityQueue : List (TransformEntityStruct F)
  deriving DecidableEq, Repr

structure Player (F : Type) extends User F, LoginStruct where
  updateState : UInt32
  farClipDistance : F
  pEntity : Entity F
  deriving DecidableEq, Repr

namespace Player

def initialName : Str := .ofString "Player"

/-- `Player::Create`, with the transform that `glm` gives a new entity. -/
def create [FloatBits F] (transform : Transform F) (sessionid : UInt32) : Player F where
  sendQueue := []
  destroyEntityQueue := []
  createEntityQueue := []
  transformEntityQueue := []
  state := LOGIN_STATE_NOT_LOGGED_IN
  userid := 0
  usertype := 0
  username := []
  password := []
  updateState := 0
  farClipDistance := FloatBits.ofBits 0
  pEntity := { transform with displayName := initialName, mode := 2, sessionid, path := [] }

def clearAll (p : Player F) : Player F :=
  { p with destroyEntityQueue := [], createEntityQueue := [], transformEntityQueue := [] }

def destroyEntity (p : Player F) (sessionid : UInt32) : Player F :=
  { p with destroyEntityQueue := p.destroyEntityQueue ++ [⟨sessionid⟩] }

def transformEntity (map : EntityMap F) (p : Player F) (sessionid : UInt32) : Player F :=
  match map.findTransformEntityStruct sessionid with
  | some t => { p with transformEntityQueue := p.transformEntityQueue ++ [t] }
  | none => p

section Distance

variable [Add F] [Sub F] [Mul F] [LE F] [DecidableLE F]

/-- Whether the square of the distance to the player's entity is at most the square of the far clip
distance. -/
def sees (p : Player F) (position : Vec3 F) : Bool :=
  (p.pEntity.position.sub position).length2 ≤ p.farClipDistance * p.farClipDistance

def createEntity (map : EntityMap F) (p : Player F) (sessionid : UInt32) : Player F :=
  match map.findCreateEntityStruct sessionid with
  | some c =>
    if p.sees c.position then { p with createEntityQueue := p.createEntityQueue ++ [c] } else p
  | none => p

end Distance

/-- `p` with records added at the ends of its queues. -/
def push (p : Player F) (creates : List (CreateEntityStruct F))
    (destroys : List DestroyEntityStruct) (transforms : List (TransformEntityStruct F)) :
    Player F :=
  { p with
    createEntityQueue := p.createEntityQueue ++ creates
    destroyEntityQueue := p.destroyEntityQueue ++ destroys
    transformEntityQueue := p.transformEntityQueue ++ transforms }

@[simp] theorem push_nil (p : Player F) : p.push [] [] [] = p := by simp [push]

@[simp] theorem push_push (p : Player F) (creates creates' : List (CreateEntityStruct F))
    (destroys destroys' : List DestroyEntityStruct)
    (transforms transforms' : List (TransformEntityStruct F)) :
    (p.push creates destroys transforms).push creates' destroys' transforms' =
      p.push (creates ++ creates') (destroys ++ destroys') (transforms ++ transforms') := by
  simp [push]

theorem destroyEntity_eq_push (p : Player F) (sessionid : UInt32) :
    p.destroyEntity sessionid = p.push [] [⟨sessionid⟩] [] := by
  simp [destroyEntity, push]

theorem transformEntity_eq_push {map : EntityMap F} (p : Player F) {e : Entity F}
    (h : e ∈ map.entities) :
    p.transformEntity map e.sessionid = p.push [] [] [e.castTransformEntityStruct] := by
  simp [transformEntity, EntityMap.findTransformEntityStruct, EntityMap.find_of_mem h, push]

def Settled (p : Player F) : Prop :=
  p.createEntityQueue = [] ∧ p.destroyEntityQueue = [] ∧ p.transformEntityQueue = []

theorem clearAll_settled (p : Player F) : p.clearAll.Settled := ⟨rfl, rfl, rfl⟩

section Distance

variable [Add F] [Sub F] [Mul F] [LE F] [DecidableLE F]

theorem createEntity_eq_push {map : EntityMap F} (p : Player F) {e : Entity F}
    (h : e ∈ map.entities) :
    p.createEntity map e.sessionid =
      p.push (if p.sees e.position then [e.castCreateEntityStruct] else []) [] [] := by
  rw [createEntity, EntityMap.findCreateEntityStruct, EntityMap.find_of_mem h]
  show (if p.sees e.position then _ else p) = _
  split
  · simp [push]
  · rw [push_nil]

@[simp] theorem push_sees (p : Player F) (creates : List (CreateEntityStruct F))
    (destroys : List DestroyEntityStruct) (transforms : List (TransformEntityStruct F))
    (position : Vec3 F) : (p.push creates destroys transforms).sees position = p.sees position :=
  rfl

end Distance

end Player

end Starfall
