import Starfall.Common.Database
import Starfall.Server.Send

/-! `Receive.cpp`: the handlers of the packets that clients send, and the table that files them
under their opcodes. -/

namespace Starfall.Receive

open Buffer

variable {F : Type}

/-- What is inserted into the table `CONSOLE`. -/
inductive ConsoleEntry
  | head (packet : Packet Head)
  | login (packet : Packet LoginStruct)
  | message (text : Str)
  deriving DecidableEq, Repr

/-- How a round of `ConsoleData` ends after its string: with a message in the table, with a
`ConsoleException`, which the handler catches, or with an exception of the JSON parser or of the
database, which it does not. -/
inductive Printed
  | printed (text : Str)
  | consoleException
  | threw
  deriving DecidableEq, Repr

/-- What the handlers find outside of the connection: the table `LOGIN`, the entity map, and what
becomes of a console message. -/
structure Server (F : Type) where
  login : List LoginRow
  entities : EntityMap F
  print : Str → Printed

/-- What a connection owns and leaves behind: its player, the entries that it added to the table
`CONSOLE`, and the packets that it sent. -/
structure Session (F : Type) where
  player : Player F
  console : List ConsoleEntry
  sent : List (List UInt8)
  deriving DecidableEq, Repr

def Session.open [FloatBits F] (transform : Transform F) (sessionid : UInt32) : Session F :=
  ⟨Player.create transform sessionid, [], []⟩

/-- How a packet ends: its opcode is in no table, its handler returns, or its handler throws, which
closes the connection. -/
inductive Outcome
  | notFound
  | returned (ok : Bool)
  | threw
  deriving DecidableEq, Repr

section Packets

variable [FloatBits F]

/-- What `LoginData` makes of the player when the packet's userid is the player's. -/
def login (rows : List LoginRow) (p : Player F) (packet : LoginStruct) : Bool × Player F :=
  let p := { p with
    state := packet.state, usertype := packet.usertype
    username := packet.username, password := packet.password }
  let p := match tryLogin rows packet with
    | some loginStruct => { p with
        state := LOGIN_STATE_LOGGING_IN, userid := loginStruct.userid
        usertype := loginStruct.usertype, username := loginStruct.username
        password := loginStruct.password }
    | none => p
  match Send.loginReply p with
  | (false, p) => (false, p)
  | (true, p) =>
    let p := { p with pEntity := { p.pEntity with displayName := p.username } }
    let p := { p with createEntityQueue := p.createEntityQueue ++
      [p.pEntity.castCreateEntityStruct] }
    match Send.createEntityData p with
    | (false, p) => (false, p)
    | (true, p) => (true, { p with createEntityQueue := [] })

def loginData (server : Server F) (s : Session F) (buffer : Buffer) (head : Packet Head) :
    Except Fault (Outcome × Session F) := do
  let (loginPacket, _) ← readLoginStruct buffer
  let s := { s with console := s.console ++ [.head head, .login loginPacket] }
  if s.player.userid ≠ loginPacket.value.userid then
    pure (.returned false, s)
  else
    let (ok, p) := login server.login s.player loginPacket.value
    pure (.returned ok, { s with player := p })

/-- The loop of `ConsoleData` with `n` rounds to go. -/
def consoleMessages (print : Str → Printed) : Nat → Read (Outcome × List ConsoleEntry)
  | 0 => pure (.returned true, [])
  | n + 1 => do
    let data ← readString
    match print data with
    | .printed text =>
      let (outcome, entries) ← consoleMessages print n
      pure (outcome, .message text :: entries)
    | .consoleException => pure (.returned false, [])
    | .threw => pure (.threw, [])

def readConsole (print : Str → Printed) : Read (Outcome × List ConsoleEntry) := do
  let nMessages ← readUInt32
  consoleMessages print nMessages.toNat

def consoleData (server : Server F) (s : Session F) (buffer : Buffer) (_head : Packet Head) :
    Except Fault (Outcome × Session F) := do
  let ((outcome, entries), _) ← readConsole server.print buffer
  pure (outcome, { s with console := s.console ++ entries })

/-- The entity of the player with the last of the transforms and with the transforms as its path. -/
def transform (e : Entity F) (transforms : List (TransformStruct F)) : Entity F :=
  let e := match transforms.getLast? with
    | some node => { e with toTransform := node.toTransform }
    | none => e
  transforms.foldl Entity.addToPath e.clearPath

omit [FloatBits F] in
theorem transform_eq (e : Entity F) (transforms : List (TransformStruct F)) :
    transform e transforms = { e with
      toTransform := (transforms.getLast?.map (·.toTransform)).getD e.toTransform
      path := transforms } := by
  have path : ∀ (ts : List (TransformStruct F)) (e : Entity F),
      ts.foldl Entity.addToPath e = { e with path := e.path ++ ts } := fun ts => by
    induction ts with
    | nil => simp
    | cons t ts ih =>
      intro e
      rw [List.foldl_cons, ih, Entity.addToPath, List.append_assoc]
      rfl
  rw [transform, path]
  cases transforms.getLast? <;> rfl

def transformData (s : Session F) (buffer : Buffer) (_head : Packet Head) :
    Except Fault (Outcome × Session F) := do
  let (transformsPacket, _) ← readTransformsPacket buffer
  let p := { s.player with pEntity := transform s.player.pEntity transformsPacket.value }
  pure (.returned true, { s with player := p })

def sendObjects (p : Player F) : Bool × Player F :=
  match Send.objectsReply p with
  | (false, p) => (false, p)
  | (true, p) => Send.transformEntityData p

end Packets

/-- A round of the inner loop, for the entity `key` of the map and the id `it` of the client.  The
state of the entity is 0 to create it, 1 when an id was destroyed and 2 to transform it. -/
def checkId (map : EntityMap F) (key : UInt32) (s : UInt32 × Player F) (it : UInt32) :
    UInt32 × Player F :=
  let s := if it ∈ map.keys then s else (1, s.2.destroyEntity it)
  if it = key then (2, s.2.transformEntity map it) else s

section Rounds

variable [Add F] [Sub F] [Mul F] [LE F] [DecidableLE F]

def checkKey (map : EntityMap F) (ids : List UInt32) (p : Player F) (key : UInt32) : Player F :=
  let s := ids.foldl (checkId map key) (0, p)
  if s.1 = 0 then s.2.createEntity map key else s.2

/-- The two loops of `ObjectsData`, over the entities of the map and over the ids of the client. -/
def checkObjects (map : EntityMap F) (ids : List UInt32) (p : Player F) : Player F :=
  map.keys.foldl (checkKey map ids) p

/-- The player with the state and the far clip distance of the packet, and with the records of the
reply in its queues. -/
def objectsRound (map : EntityMap F) (p : Player F) (objects : ObjectsStruct F) : Player F :=
  checkObjects map objects.ids
    { p with updateState := objects.state, farClipDistance := objects.farClipDistance }

variable [FloatBits F]

def objectsData (server : Server F) (s : Session F) (buffer : Buffer) (_head : Packet Head) :
    Except Fault (Outcome × Session F) := do
  let (objectsPacket, _) ← readObjectsStruct buffer
  match sendObjects (objectsRound server.entities s.player objectsPacket) with
  | (false, p) => pure (.returned false, { s with player := p })
  | (true, p) => pure (.returned true, { s with player := p.clearAll })

inductive ReceiveFunction
  | LoginData
  | ConsoleData
  | TransformData
  | ObjectsData
  deriving DecidableEq, Repr

def map (opcode : UInt32) : Option ReceiveFunction :=
  if opcode = 0x01 then some .LoginData
  else if opcode = 0x02 then some .ConsoleData
  else if opcode = 0x04 then some .TransformData
  else if opcode = 0x06 then some .ObjectsData
  else none

def call (server : Server F) : ReceiveFunction → Session F → Buffer → Packet Head →
    Except Fault (Outcome × Session F)
  | .LoginData => loginData server
  | .ConsoleData => consoleData server
  | .TransformData => transformData
  | .ObjectsData => objectsData server

end Rounds

end Starfall.Receive
