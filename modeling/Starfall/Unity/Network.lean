import Starfall.ProofKit.Runs
import Starfall.Server.Objects
import Starfall.Unity.World

/-! `Network.js`: the receive thread of the Unity client, beside its main thread and the server.
Packets are taken as what they carry.  Each section under a mutex is one step: what the receive
thread does to a queue or to the state, and each of the functions that `World.Update` calls. -/

namespace Starfall.Unity

open ProofKit.Runs

variable {F : Type}

/-- What the receive thread does under one of the mutexes. -/
inductive Action (F : Type)
  | setState (state : UInt32)
  | createEntity (c : CreateEntityStruct F)
  | transformEntity (t : TransformEntityStruct F)
  | destroyEntity (d : DestroyEntityStruct)
  deriving DecidableEq, Repr

def User.perform (user : User F) : Action F → User F
  | .setState state => { user with checkObjectsState := state }
  | .createEntity c => { user with createEntityQueue := user.createEntityQueue ++ [c] }
  | .transformEntity t => { user with transformEntityQueue := user.transformEntityQueue ++ [t] }
  | .destroyEntity d => { user with destroyEntityQueue := user.destroyEntityQueue ++ [d] }

/-- The packets that the server sends after the login reply. -/
inductive Message (F : Type)
  | createEntity (creates : List (CreateEntityStruct F))
  | transformEntity (transforms : List (TransformEntityStruct F))
  | objectsReply (update : ObjectsUpdateStruct F)
  deriving DecidableEq, Repr

/-- What the receive function of a packet does, in order. -/
def Message.actions : Message F → List (Action F)
  | .createEntity creates => creates.map .createEntity
  | .transformEntity transforms => transforms.map .transformEntity
  | .objectsReply update =>
    .setState update.state ::
      (update.createEntities.map .createEntity ++ update.destroyEntities.map .destroyEntity)

theorem perform_creates_foldl (creates : List (CreateEntityStruct F)) (user : User F) :
    (creates.map Action.createEntity).foldl User.perform user =
      { user with createEntityQueue := user.createEntityQueue ++ creates } := by
  induction creates generalizing user with
  | nil => simp
  | cons c creates ih =>
    rw [List.map_cons, List.foldl_cons, ih]
    simp [User.perform]

theorem perform_destroys_foldl (destroys : List DestroyEntityStruct) (user : User F) :
    (destroys.map Action.destroyEntity).foldl User.perform user =
      { user with destroyEntityQueue := user.destroyEntityQueue ++ destroys } := by
  induction destroys generalizing user with
  | nil => simp
  | cons d destroys ih =>
    rw [List.map_cons, List.foldl_cons, ih]
    simp [User.perform]

theorem perform_reply (update : ObjectsUpdateStruct F) (user : User F)
    (creates : user.createEntityQueue = []) (destroys : user.destroyEntityQueue = []) :
    (Message.objectsReply update).actions.foldl User.perform user = { user with
      checkObjectsState := update.state
      createEntityQueue := update.createEntities
      destroyEntityQueue := update.destroyEntities } := by
  rw [Message.actions, List.foldl_cons, List.foldl_append, perform_creates_foldl,
    perform_destroys_foldl]
  simp [User.perform, creates, destroys]

inductive Phase
  | destroyEntities
  | createEntities
  | remoteControls
  | timers
  deriving DecidableEq, Repr

/-- A client and what is under way between it and the server. -/
structure State (F : Type) where
  world : World F
  phase : Phase
  /-- What the receive thread has left to do for its packet. -/
  todo : List (Action F)
  /-- The packets that the client has not received, oldest first. -/
  incoming : List (Message F)
  /-- The `ObjectsData` packets that the server has not received, oldest first. -/
  requests : List (ObjectsStruct F)
  deriving DecidableEq, Repr

inductive Event (F : Type)
  | receivePacket
  | perform
  | updateDestroyEntities
  | updateCreateEntities
  | updateRemoteControls (move : Entity F → Transform F × RemoteController F)
  | updateTimers (timer : Option F)
  /-- `Receive::ObjectsData` with the entity map and the player as it finds them. -/
  | objectsData (map : EntityMap F) (p : {p : Player F // p.Settled})

section Step

variable [Add F] [Sub F] [Mul F] [LE F] [DecidableLE F]

def answer (map : EntityMap F) (p : Player F) (objects : ObjectsStruct F) : List (Message F) :=
  let p := Receive.objectsRound map p objects
  [.objectsReply (Send.objectsUpdate p), .transformEntity p.transformEntityQueue]

/-- The state after an event, if it can happen. -/
def next (s : State F) : Event F → Option (State F)
  | .receivePacket =>
    match s.todo, s.incoming with
    | [], message :: incoming => some { s with todo := message.actions, incoming }
    | _, _ => none
  | .perform =>
    match s.todo with
    | action :: todo =>
      some { s with world := { s.world with user := s.world.user.perform action }, todo }
    | [] => none
  | .updateDestroyEntities =>
    if s.phase = .destroyEntities then
      s.world.updateDestroyEntities.map fun world => { s with world, phase := .createEntities }
    else none
  | .updateCreateEntities =>
    if s.phase = .createEntities then
      some { s with world := s.world.updateCreateEntities, phase := .remoteControls }
    else none
  | .updateRemoteControls move =>
    if s.phase = .remoteControls then
      some { s with world := s.world.updateRemoteControls move, phase := .timers }
    else none
  | .updateTimers timer =>
    if s.phase = .timers then
      let (world, request) := s.world.updateTimers timer
      some { s with world, phase := .destroyEntities, requests := s.requests ++ request.toList }
    else none
  | .objectsData map p =>
    match s.requests with
    | objects :: requests =>
      some { s with requests, incoming := s.incoming ++ answer map p.val objects }
    | [] => none

inductive Effect (s : State F) : Event F → State F → Prop
  | receivePacket {message : Message F} {incoming : List (Message F)} :
    s.todo = [] → s.incoming = message :: incoming →
    Effect s .receivePacket { s with todo := message.actions, incoming }
  | perform {action : Action F} {todo : List (Action F)} :
    s.todo = action :: todo →
    Effect s .perform { s with world := { s.world with user := s.world.user.perform action }, todo }
  | destroyed {objects : List (Entity F)} :
    objects.Sublist s.world.objects →
    Effect s .updateDestroyEntities { s with
      world := { s.world with objects, user := { s.world.user with destroyEntityQueue := [] } }
      phase := .createEntities }
  | created :
    Effect s .updateCreateEntities { s with
      world := s.world.updateCreateEntities, phase := .remoteControls }
  | moved (move : Entity F → Transform F × RemoteController F) :
    Effect s (.updateRemoteControls move) { s with
      world := s.world.updateRemoteControls move, phase := .timers }
  | waited (timer : Option F) :
    Effect s (.updateTimers timer) { s with phase := .destroyEntities }
  | requested (clip : F) :
    s.world.entity.isSome → s.world.user.checkObjectsState = 1 →
    Effect s (.updateTimers (some clip)) { s with
      world := { s.world with
        user := { s.world.user with checkObjectsRadius := clip, checkObjectsState := 0 } }
      phase := .destroyEntities
      requests := s.requests ++ [⟨1, clip, s.world.ids⟩] }
  | answered (map : EntityMap F) (p : {p : Player F // p.Settled}) {objects : ObjectsStruct F}
      {requests : List (ObjectsStruct F)} :
    s.requests = objects :: requests →
    Effect s (.objectsData map p) { s with
      requests, incoming := s.incoming ++ answer map p.val objects }

theorem next_effect {s s' : State F} {e : Event F} (h : next s e = some s') : Effect s e s' := by
  cases e with
  | receivePacket =>
    simp only [next] at h
    split at h
    · rename_i message incoming htodo hincoming
      cases h
      exact .receivePacket htodo hincoming
    · cases h
  | perform =>
    simp only [next] at h
    split at h
    · rename_i action todo htodo
      cases h
      exact .perform htodo
    · cases h
  | updateDestroyEntities =>
    simp only [next] at h
    split at h
    · obtain ⟨world, hworld, rfl⟩ := Option.map_eq_some_iff.mp h
      obtain ⟨objects, hobjects, rfl⟩ := World.updateDestroyEntities_eq hworld
      exact .destroyed hobjects
    · cases h
  | updateCreateEntities =>
    simp only [next] at h
    split at h
    · cases h
      exact .created
    · cases h
  | updateRemoteControls move =>
    simp only [next] at h
    split at h
    · cases h
      exact .moved move
    · cases h
  | updateTimers timer =>
    simp only [next] at h
    split at h
    · rcases s.world.updateTimers_cases timer with hnone | ⟨clip, rfl, hentity, hstate, hsome⟩
      · rw [hnone] at h
        cases h
        simpa using Effect.waited timer
      · rw [hsome] at h
        cases h
        exact .requested clip hentity hstate
    · cases h
  | objectsData map p =>
    simp only [next] at h
    split at h
    · rename_i objects requests hrequests
      cases h
      exact .answered map p hrequests
    · cases h

/-- The world before its first update, when the login has been replied to and the record of the
player's entity is on its way. -/
def State.start (radius : F) (own : CreateEntityStruct F) : State F where
  world := ⟨[], none, ⟨1, radius, [], [], []⟩⟩
  phase := .destroyEntities
  todo := []
  incoming := [.createEntity [own]]
  requests := []

/-- A client from the start of its world on.  The entity that `Player::Create` makes has mode 2. -/
def client : System (State F) (Event F) where
  init s := ∃ radius own, own.mode = 2 ∧ s = State.start radius own
  step s e s' := next s e = some s'

end Step

end Starfall.Unity
