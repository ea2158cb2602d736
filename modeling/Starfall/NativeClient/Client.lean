import Starfall.Common.Frame
import Starfall.Common.Player

/-! `Client.cpp` of the native client: the table of its receive functions, and the iterations of its
network thread on a socket that does not block. -/

namespace Starfall.NativeClient

open Buffer

section Receiver

variable {F : Type} [FloatBits F]

/-- The functions that the map of `ClientReceiver` can have as values. -/
inductive ReceiveFunction
  | LoginReply
  | ObjectsReply
  | TransformEntityData
  deriving DecidableEq, Repr

def map (opcode : UInt32) : Option ReceiveFunction :=
  if opcode = 0x10000000 ||| 0x01 then some .LoginReply
  else if opcode = 0x10000000 ||| 0x04 then some .ObjectsReply
  else if opcode = 0x10000000 ||| 0x06 then some .TransformEntityData
  else none

def loginReply (p : Player F) (buffer : Buffer) : Except Fault (Player F) := do
  let (loginStruct, _) ← readLoginStruct buffer
  pure { p with toLoginStruct := { loginStruct.value with state := LOGIN_STATE_LOGGED_IN } }

def objectsReply (p : Player F) (buffer : Buffer) : Except Fault (Player F) := do
  let (updateStruct, _) ← readObjectsUpdate buffer
  pure { p with
    createEntityQueue := updateStruct.createEntities ++ p.createEntityQueue
    destroyEntityQueue := updateStruct.destroyEntities ++ p.destroyEntityQueue }

/-- `(*receiveFunction)(bodyBuffer, head, (*it)->pPlayer)`, where `TransformEntityData` does
nothing. -/
def call : ReceiveFunction → Player F → Buffer → Except Fault (Player F)
  | .LoginReply, p, buffer => loginReply p buffer
  | .ObjectsReply, p, buffer => objectsReply p buffer
  | .TransformEntityData, p, _ => .ok p

/-- The `try` of `Client::run`: an opcode that is not in the map is rejected. -/
def dispatch (p : Player F) (buffer : Buffer) (head : Packet Head) : Except Fault (Player F) :=
  match map head.value.opcode.toUInt32 with
  | some receiveFunction => call receiveFunction p buffer
  | none => .ok p

/-- The dispatch of a packet that was received whole. -/
def deliver (p : Player F) (packet : List UInt8) : Except Fault (Player F) := do
  let (head, _) ← readHead (.start (packet.take Head.size))
  dispatch p (.start (packet.drop Head.size)) head

theorem deliver_of_some {head : Head} {f : ReceiveFunction}
    (h : map head.opcode.toUInt32 = some f) (p : Player F) (body : List UInt8) :
    deliver p (writeHead head ++ body) = call f p (.start body) := by
  obtain ⟨dump, c, hread⟩ := readHead_writeHead head
  rw [deliver, ← writeHead_length head, List.take_left, List.drop_left,
    ProofKit.Reading.except_bind_of_ok hread]
  dsimp only
  rw [dispatch, h]

theorem deliver_sendQueue {p p' : Player F} {packet : List UInt8}
    (h : deliver p packet = .ok p') : p'.sendQueue = p.sendQueue := by
  obtain ⟨⟨head, c⟩, -, h⟩ := ProofKit.Reading.except_bind_eq_ok h
  dsimp only at h
  unfold dispatch at h
  cases hmap : map head.value.opcode.toUInt32 with
  | none =>
    rw [hmap] at h
    cases h
    rfl
  | some f =>
    rw [hmap] at h
    cases f with
    | LoginReply =>
      obtain ⟨⟨loginStruct, c⟩, -, h⟩ := ProofKit.Reading.except_bind_eq_ok h
      cases h
      rfl
    | ObjectsReply =>
      obtain ⟨⟨updateStruct, c⟩, -, h⟩ := ProofKit.Reading.except_bind_eq_ok h
      cases h
      rfl
    | TransformEntityData =>
      cases h
      rfl

end Receiver

section Sender

variable {F : Type} [FloatBits F]

/-- A pointer to a function that takes a player. -/
inductive SendFunction
  | LoginData
  | ObjectsData
  /-- A function that is not one of `ClientSender`. -/
  | other (address : UInt64)
  deriving DecidableEq, Repr

def sendMap : SendFunction → Option UInt32
  | .LoginData => some 0x01
  | .ObjectsData => some 0x06
  | .other _ => none

/-- `ClientSender::enqueue`, or `none` when `map.at` throws. -/
def enqueue (caller : SendFunction) (body : List UInt8) (p : Player F) : Option (Player F) := do
  let opcode ← sendMap caller
  let head : Head := ⟨(0xFFFFFFFF : UInt32).toInt32, opcode.toInt32,
    (UInt32.ofNat body.length).toInt32, (0xFFFFFFFF : UInt32).toInt32⟩
  pure { p with sendQueue := p.sendQueue ++ [writeHead head ++ body] }

def loginData (p : Player F) : Option (Player F) :=
  enqueue .LoginData (writeLoginStruct p.toLoginStruct) p

def setLoginStruct (p : Player F) (loginStruct : LoginStruct) : Player F :=
  { p with toLoginStruct := loginStruct }

/-- `Client::tryLogin`, or `none` when `LoginData` throws. -/
def tryLogin (p : Player F) (loginStruct : LoginStruct) : Option (Bool × Player F) :=
  if p.state = LOGIN_STATE_NOT_LOGGED_IN then do
    let p ← loginData (setLoginStruct p loginStruct)
    pure (true, p)
  else
    pure (false, p)

def isLoggedIn (p : Player F) : Bool := p.state = LOGIN_STATE_LOGGED_IN

/-- The packet with a login. -/
def loginPacket (loginStruct : LoginStruct) : List UInt8 :=
  writeHead ⟨-1, 1, (UInt32.ofNat (writeLoginStruct loginStruct).length).toInt32, -1⟩ ++
    writeLoginStruct loginStruct

omit [FloatBits F] in
theorem tryLogin_eq (p : Player F) (loginStruct : LoginStruct) :
    tryLogin p loginStruct = some
      (if p.state = LOGIN_STATE_NOT_LOGGED_IN then
        (true, { p with
          toLoginStruct := loginStruct, sendQueue := p.sendQueue ++ [loginPacket loginStruct] })
      else (false, p)) := by
  rw [tryLogin]
  split
  · rfl
  · rfl

end Sender

/-- What `socket.receive` returns, as far as `Client::run` tells: `Done`, with the number of bytes
that it received, or some other status. -/
inductive Status
  | done (received : Nat)
  | notReady
  deriving DecidableEq, Repr

/-- A client whose receive functions work on a state of type `S`: the bytes that are still to be
received, and the opcodes and bodies that were handed to a receive function or rejected. -/
structure Client (S : Type) where
  unread : List UInt8
  dispatched : List (UInt32 × List UInt8)
  player : S

/-- What an iteration of `Client::run` receives when its two calls of `socket.receive` return the
given statuses, with `handle` for the dispatch of a packet. -/
def run {S : Type} (handle : S → Buffer → Packet Head → Except Fault S) (c : Client S)
    (headStatus bodyStatus : Status) : Except Stop (Client S) :=
  match headStatus with
  | .notReady => .ok c
  | .done headReceived => do
    let (headBuffer, unread) ← receiveBytes c.unread Head.size headReceived
    if headReceived = Head.size then
      let (head, _) ← defined (readHead (.start headBuffer))
      if 0 < head.value.bodysize then
        match bodyStatus with
        | .notReady => pure { c with unread }
        | .done bodyReceived =>
          let size := head.value.bodysize.toNatClampNeg
          let (received, unread) ← receiveBytes unread size bodyReceived
          if 0 < bodyReceived then
            let body := received ++ List.replicate (size - bodyReceived) 0
            let player ← defined (handle c.player (.start body) head)
            pure {
              unread, player
              dispatched := c.dispatched ++ [(head.value.opcode.toUInt32, body)] }
          else
            pure { c with unread }
      else
        pure { c with unread }
    else
      pure { c with unread }

end Starfall.NativeClient
