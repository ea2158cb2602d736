import Starfall.Common.Registry
import Starfall.ProofKit.Depths
import Starfall.Server.LoginServer

/-! How deep the thread of a connection has locked the mutexes when `onSocketReadable` is through.
The handlers run here step by step, with what they lock and with what throws in them, while other
threads change the entity map. -/

namespace Starfall.Mutexes

open Buffer Receive ProofKit.Depths

variable {F : Type}

inductive Mutex
  /-- `Entity::mutex`, which is `Player::mutex()` of the entity's player. -/
  | entity (sessionid : UInt32)
  /-- `Entity::CollectionMutex`. -/
  | collection
  /-- `ClientSender::mutex`. -/
  | sender
  /-- `ClientReceiver::mutex`. -/
  | receiver
  deriving DecidableEq, Repr

/-- `std::out_of_range`, and the kinds of `Poco::Exception`. -/
inductive Exception
  | outOfRange
  | notFound
  | nullPointer
  /-- An exception of the JSON parser, of the database or of the socket. -/
  | poco
  deriving DecidableEq, Repr

/-- What a packet's handler finds outside of the connection, and which of its calls go through. -/
structure Environment (F : Type) where
  login : List LoginRow
  select : LoginStruct → Bool
  insert : ConsoleEntry → Bool
  send : List UInt8 → Bool
  /-- What becomes of a console message, by its place in the packet. -/
  print : Nat → Str → Printed
  /-- `Entity::Map` as the other threads leave it for an access, by the number of the access. -/
  maps : Nat → HashMap (Option (Entity F))

structure World (F : Type) where
  session : Session F
  accesses : Nat

abbrev Run (F α : Type) := Thread Mutex (World F) Fault Exception α

def player : Run F (Player F) := do
  let w ← world
  pure w.session.player

def modifyPlayer (f : Player F → Player F) : Run F Unit :=
  modifyWorld fun w => { w with session := { w.session with player := f w.session.player } }

def modifyEntity (f : Entity F → Entity F) : Run F Unit :=
  modifyPlayer fun p => { p with pEntity := f p.pEntity }

/-- `map.at`, with what the map has under the key. -/
def mapAt {W A : Type} : Option A → Thread Mutex W Fault Exception A
  | some a => pure a
  | none => throw .outOfRange

namespace Environment

/-- An access of `Entity::Map`. -/
def map (env : Environment F) : Run F (HashMap (Option (Entity F))) := do
  let w ← world
  modifyWorld fun w => { w with accesses := w.accesses + 1 }
  pure (env.maps w.accesses)

/-- `Entity::Keys`. -/
def keys (env : Environment F) : Run F (List UInt32) := do
  lock .collection
  let map ← env.map
  unlock .collection
  pure map.keys

/-- `FindCreateEntityStruct` or `FindTransformEntityStruct`, whose `->` throws on a null pointer. -/
def find {A : Type} (env : Environment F) (cast : Entity F → A) (sessionid : UInt32) : Run F A := do
  lock .collection
  let map ← env.map
  unlock .collection
  match (map.subscript sessionid).1 with
  | none => throw .nullPointer
  | some pEntity =>
    lock (.entity pEntity.sessionid)
    let s ← pure (cast pEntity)
    unlock (.entity pEntity.sessionid)
    pure s

def findCreateEntityStruct (env : Environment F) : UInt32 → Run F (CreateEntityStruct F) :=
  env.find Entity.castCreateEntityStruct

def findTransformEntityStruct (env : Environment F) : UInt32 → Run F (TransformEntityStruct F) :=
  env.find Entity.castTransformEntityStruct

end Environment

def addToPath (node : TransformStruct F) : Run F Unit := do
  let p ← player
  scopedLock (.entity p.pEntity.sessionid) (modifyEntity fun e => e.addToPath node)

def clearPath : Run F Unit := do
  let p ← player
  scopedLock (.entity p.pEntity.sessionid) (modifyEntity Entity.clearPath)

def insert (env : Environment F) (entry : ConsoleEntry) : Run F Unit :=
  if env.insert entry then
    modifyWorld fun w =>
      { w with session := { w.session with console := w.session.console ++ [entry] } }
  else
    throw .poco

/-- `Database::Select::TryLogin`, as far as it throws. -/
def select (env : Environment F) (loginStruct : LoginStruct) : Run F Unit :=
  if env.select loginStruct then pure () else throw .poco

section Handlers

variable [FloatBits F]

def loginData (env : Environment F) (buffer : Buffer) (head : Packet Head) : Run F Bool := do
  let (loginPacket, _) ← fetch (readLoginStruct buffer)
  insert env (.head head)
  insert env (.login loginPacket)
  let p ← player
  if p.userid ≠ loginPacket.value.userid then
    pure false
  else
    modifyPlayer fun p => { p with
      state := loginPacket.value.state, usertype := loginPacket.value.usertype
      username := loginPacket.value.username, password := loginPacket.value.password }
    select env loginPacket.value
    let p ← player
    let (ok, p) := login env.login p loginPacket.value
    modifyPlayer fun _ => p
    pure ok

/-- The loop of `ConsoleData` from its counter `i` on, with `n` rounds to go. -/
def consoleMessages (env : Environment F) : Nat → Nat → Buffer → Run F Bool
  | _, 0, _ => pure true
  | i, n + 1, buffer => do
    let (data, buffer) ← fetch (readString buffer)
    match env.print i data with
    | .printed text =>
      modifyWorld fun w =>
        { w with session := { w.session with console := w.session.console ++ [.message text] } }
      consoleMessages env (i + 1) n buffer
    | .consoleException => pure false
    | .threw => throw .poco

def consoleData (env : Environment F) (buffer : Buffer) (_head : Packet Head) : Run F Bool := do
  let (nMessages, buffer) ← fetch (readUInt32 buffer)
  consoleMessages env 0 nMessages.toNat buffer

def transformData (buffer : Buffer) (_head : Packet Head) : Run F Bool := do
  let (transformsPacket, _) ← fetch (readTransformsPacket buffer)
  match transformsPacket.value.getLast? with
  | some node => modifyEntity fun e => { e with toTransform := node.toTransform }
  | none => pure ()
  clearPath
  transformsPacket.value.forM addToPath
  pure true

end Handlers

/-- `Player::createEntity` or `Player::transformEntity`, which catch a `NotFoundException`. -/
def tryFind {A : Type} (env : Environment F) (cast : Entity F → A) (push : A → Player F → Player F)
    (sessionid : UInt32) : Run F Unit :=
  tryCatch (do
    let a ← env.find cast sessionid
    modifyPlayer (push a))
  fun
    | .notFound => pure ()
    | e => throw e

def transformEntity (env : Environment F) : UInt32 → Run F Unit :=
  tryFind env Entity.castTransformEntityStruct fun t p =>
    { p with transformEntityQueue := p.transformEntityQueue ++ [t] }

/-- A round of the inner loop of `ObjectsData`, with the state of the entity `key`. -/
def checkId (env : Environment F) (keys : List UInt32) (key : UInt32) (entityState : UInt32)
    (it : UInt32) : Run F UInt32 := do
  let entityState ← if it ∈ keys then pure entityState else do
    modifyPlayer fun p => p.destroyEntity it
    pure 1
  if it = key then do
    transformEntity env it
    pure 2
  else
    pure entityState

section Rounds

variable [Add F] [Sub F] [Mul F] [LE F] [DecidableLE F]

def createEntity (env : Environment F) : UInt32 → Run F Unit :=
  tryFind env Entity.castCreateEntityStruct fun c p =>
    if p.sees c.position then { p with createEntityQueue := p.createEntityQueue ++ [c] } else p

def checkKey (env : Environment F) (keys ids : List UInt32) (key : UInt32) : Run F Unit := do
  let entityState ← ids.foldlM (checkId env keys key) 0
  if entityState = 0 then createEntity env key else pure ()

variable [FloatBits F]

def objectsData (env : Environment F) (buffer : Buffer) (_head : Packet Head) : Run F Bool := do
  let (objectsPacket, _) ← fetch (readObjectsStruct buffer)
  modifyPlayer fun p => { p with
    updateState := objectsPacket.state, farClipDistance := objectsPacket.farClipDistance }
  let keys ← env.keys
  keys.forM (checkKey env keys objectsPacket.ids)
  let p ← player
  let (ok, p) := sendObjects p
  modifyPlayer fun _ => p
  if ok then do
    modifyPlayer Player.clearAll
    pure true
  else
    pure false

def call (env : Environment F) : ReceiveFunction → Buffer → Packet Head → Run F Bool
  | .LoginData => loginData env
  | .ConsoleData => consoleData env
  | .TransformData => transformData
  | .ObjectsData => objectsData env

/-- A round of the loop that sends the packets of the player. -/
def sendPacket (env : Environment F) (out : List UInt8) : Run F Unit :=
  if env.send out then
    modifyWorld fun w => { w with session := { w.session with
      sent := w.session.sent ++ [out]
      player := { w.session.player with sendQueue := w.session.player.sendQueue.tail } } }
  else
    throw .poco

def sendPackets (env : Environment F) : Run F Unit := do
  let p ← player
  p.sendQueue.forM (sendPacket env)

/-- The inner `try` of `onSocketReadable`. -/
def receive (env : Environment F) (buffer : Buffer) (head : Packet Head) : Run F Outcome := do
  let receiveFunction ← mapAt (Receive.map head.value.opcode.toUInt32)
  let p ← player
  lock (.entity p.pEntity.sessionid)
  let ok ← call env receiveFunction buffer head
  unlock (.entity p.pEntity.sessionid)
  sendPackets env
  pure (.returned ok)

/-- The inner `try`, with its `catch` of a `std::out_of_range`. -/
def dispatch (env : Environment F) (buffer : Buffer) (head : Packet Head) : Run F Outcome :=
  tryCatch (receive env buffer head) fun
    | .outOfRange => pure .notFound
    | e => throw e

/-- A dispatch inside of the outer `try`, which catches every `Poco::Exception`. -/
def handle (env : Environment F) (s : Machine Mutex (World F)) (buffer : Buffer)
    (head : Packet Head) : Except Fault (Outcome × Machine Mutex (World F)) :=
  match (dispatch env buffer head).run s with
  | .error fault => .error fault
  | .ok (.ok outcome, s') => .ok (outcome, s')
  | .ok (.error _, s') => .ok (.threw, s')

end Rounds

theorem mapAt_restores {W A : Type} (found : Option A) : Restores (mapAt (W := W) found) := by
  cases found with
  | some a => exact .pure a
  | none => exact .throw _

theorem mapAt_returns {W A : Type} {found : Option A} {s s' : Machine Mutex W}
    {r : Except Exception A} (h : Ends (mapAt found) s r s') : (∃ a, r = .ok a) ↔ found.isSome := by
  cases found with
  | some a => exact iff_of_true ⟨a, (ends_pure.mp h).1⟩ rfl
  | none =>
    obtain ⟨rfl, -⟩ := ends_throw.mp h
    exact iff_of_false nofun nofun

theorem player_restores : Restores (player : Run F (Player F)) :=
  .bind .world fun _ => .pure _

theorem player_neverThrows : NeverThrows (player : Run F (Player F)) :=
  .bind .world fun _ => .pure _

theorem modifyPlayer_neverThrows (f : Player F → Player F) : NeverThrows (modifyPlayer f) := by
  apply NeverThrows.modifyWorld

theorem addToPath_neverThrows (node : TransformStruct F) : NeverThrows (addToPath node) :=
  .bind player_neverThrows fun _ => .scopedLock (modifyPlayer_neverThrows _)

theorem clearPath_neverThrows : NeverThrows (clearPath (F := F)) :=
  .bind player_neverThrows fun _ => .scopedLock (modifyPlayer_neverThrows _)

theorem map_restores (env : Environment F) : Restores env.map :=
  .bind .world fun _ => .bind (.modifyWorld _) fun _ => .pure _

theorem map_neverThrows (env : Environment F) : NeverThrows env.map :=
  .bind .world fun _ => .bind (.modifyWorld _) fun _ => .pure _

theorem keys_restores (env : Environment F) : Restores env.keys :=
  .bare (map_restores env) (map_neverThrows env) fun _ => .pure _

theorem keys_ends {env : Environment F} {s s' : Machine Mutex (World F)}
    {r : Except Exception (List UInt32)} (h : Ends env.keys s r s') :
    r = .ok (env.maps s.world.accesses).keys ∧
      s'.world = { s.world with accesses := s.world.accesses + 1 } := by
  cases h
  exact ⟨rfl, rfl⟩

theorem find_restores {A : Type} (env : Environment F) (cast : Entity F → A) (sessionid : UInt32) :
    Restores (env.find cast sessionid) := by
  apply Restores.bare (map_restores env) (map_neverThrows env)
  intro map
  split
  · exact .throw _
  · exact .bare (.pure _) (.pure _) fun _ => .pure _

theorem modifyPlayer_restores (f : Player F → Player F) : Restores (modifyPlayer f) := by
  apply Restores.modifyWorld

theorem modifyEntity_restores (f : Entity F → Entity F) : Restores (modifyEntity f) := by
  apply modifyPlayer_restores

theorem addToPath_restores (node : TransformStruct F) : Restores (addToPath node) :=
  .bind player_restores fun _ => .scopedLock (modifyEntity_restores _)

theorem clearPath_restores : Restores (clearPath (F := F)) :=
  .bind player_restores fun _ => .scopedLock (modifyEntity_restores _)

theorem insert_restores (env : Environment F) (entry : ConsoleEntry) :
    Restores (insert env entry) := by
  unfold insert
  split
  · exact .modifyWorld _
  · exact .throw _

theorem select_restores (env : Environment F) (loginStruct : LoginStruct) :
    Restores (select env loginStruct) := by
  unfold select
  split
  · exact .pure _
  · exact .throw _

section Handlers

variable [FloatBits F]

theorem loginData_restores (env : Environment F) (buffer : Buffer) (head : Packet Head) :
    Restores (loginData env buffer head) := by
  refine .bind (.fetch _) fun ⟨packet, _⟩ => .bind (insert_restores env _) fun _ =>
    .bind (insert_restores env _) fun _ => .bind player_restores fun p => ?_
  show Restores (if _ then _ else _)
  split
  · exact .pure _
  · exact .bind (.modifyWorld _) fun _ => .bind (select_restores env _) fun _ =>
      .bind player_restores fun p => .bind (.modifyWorld _) fun _ => .pure _

omit [FloatBits F] in
theorem consoleMessages_restores (env : Environment F) (n i : Nat) (buffer : Buffer) :
    Restores (consoleMessages env i n buffer) := by
  induction n generalizing i buffer with
  | zero => exact .pure _
  | succ n ih =>
    refine .bind (.fetch _) fun ⟨data, rest⟩ => ?_
    show Restores (match env.print i data with
      | .printed _ => _
      | .consoleException => _
      | .threw => _)
    split
    · exact .bind (.modifyWorld _) fun _ => ih (i + 1) rest
    · exact .pure _
    · exact .throw _

theorem transformData_restores (buffer : Buffer) (head : Packet Head) :
    Restores (transformData (F := F) buffer head) := by
  refine .bind (.fetch _) fun ⟨packet, _⟩ => ?_
  show Restores (match packet.value.getLast? with
    | some node => _
    | none => _)
  have rest : Restores (do
      clearPath
      packet.value.forM addToPath
      pure true : Run F Bool) :=
    .bind clearPath_restores fun _ => .bind (.forM addToPath_restores _) fun _ => .pure _
  split
  · exact .bind (modifyEntity_restores _) fun _ => rest
  · exact rest

end Handlers

theorem tryFind_restores {A : Type} (env : Environment F) (cast : Entity F → A)
    (push : A → Player F → Player F) (sessionid : UInt32) :
    Restores (tryFind env cast push sessionid) := by
  refine .tryCatch (.bind (find_restores env _ _) fun _ => modifyPlayer_restores _) fun e => ?_
  cases e with
  | notFound => exact .pure _
  | outOfRange => exact .throw _
  | nullPointer => exact .throw _
  | poco => exact .throw _

theorem checkId_restores (env : Environment F) (keys : List UInt32) (key entityState it : UInt32) :
    Restores (checkId env keys key entityState it) := by
  have compare : ∀ entityState : UInt32, Restores (if it = key then (do
      transformEntity env it
      pure 2) else pure entityState : Run F UInt32) := by
    intro entityState
    split
    · exact .bind (tryFind_restores env _ _ it) fun _ => .pure _
    · exact .pure _
  unfold checkId
  dsimp only
  split
  · exact .bind (.pure _) compare
  · exact .bind (modifyPlayer_restores _) fun _ => .bind (.pure _) compare

section Rounds

variable [Add F] [Sub F] [Mul F] [LE F] [DecidableLE F]

theorem checkKey_restores (env : Environment F) (keys ids : List UInt32) (key : UInt32) :
    Restores (checkKey env keys ids key) := by
  refine .bind (.foldlM (checkId_restores env keys key) ids 0) fun _ => ?_
  split
  · exact tryFind_restores env _ _ key
  · exact .pure _

variable [FloatBits F]

theorem objectsData_restores (env : Environment F) (buffer : Buffer) (head : Packet Head) :
    Restores (objectsData env buffer head) := by
  refine .bind (.fetch _) fun ⟨packet, _⟩ => .bind (.modifyWorld _) fun _ =>
    .bind (keys_restores env) fun keys => .bind (.forM (checkKey_restores env keys _) _) fun _ =>
    .bind player_restores fun p => .bind (.modifyWorld _) fun _ => ?_
  split
  · exact .bind (.modifyWorld _) fun _ => .pure _
  · exact .pure _

/-- A receive function on its own leaves the depths as they were, also when it throws. -/
theorem call_restores (env : Environment F) (f : ReceiveFunction) (buffer : Buffer)
    (head : Packet Head) : Restores (call env f buffer head) := by
  cases f with
  | LoginData => exact loginData_restores env buffer head
  | ConsoleData =>
    exact .bind (.fetch _) fun ⟨nMessages, rest⟩ => consoleMessages_restores env _ 0 rest
  | TransformData => exact transformData_restores buffer head
  | ObjectsData => exact objectsData_restores env buffer head

end Rounds

end Starfall.Mutexes
