import Starfall.Common.Frame
import Starfall.Server.Receive

/-! `LoginServer.cpp`: what a connection does when its socket is readable.  The socket is the bytes
that the client sent and that no call has received yet. -/

namespace Starfall

open Buffer Receive ProofKit.Reading

section Dispatch

variable {F : Type} [FloatBits F] [Add F] [Sub F] [Mul F] [LE F] [DecidableLE F]

def Receive.Session.flush (s : Session F) : Session F :=
  { s with player := { s.player with sendQueue := [] }, sent := s.sent ++ s.player.sendQueue }

/-- The inner `try` of `onSocketReadable`: the handler of the opcode, and then the packets that it
queued, unless it throws. -/
def Receive.dispatch (server : Server F) (s : Session F) (buffer : Buffer) (head : Packet Head) :
    Except Fault (Outcome × Session F) :=
  match Receive.map head.value.opcode.toUInt32 with
  | none => .ok (.notFound, s)
  | some receiveFunction => do
    let (outcome, s) ← call server receiveFunction s buffer head
    match outcome with
    | .threw => pure (.threw, s)
    | outcome => pure (outcome, s.flush)

/-- The dispatch of a packet that was received whole. -/
def Receive.deliver (server : Server F) (s : Session F) (packet : List UInt8) :
    Except Fault (Outcome × Session F) := do
  let (head, _) ← readHead (.start (packet.take Head.size))
  Receive.dispatch server s (.start (packet.drop Head.size)) head

/-- A frame is dispatched with its header and its body. -/
theorem Receive.deliver_frame (server : Server F) (s : Session F) (frame : Frame) :
    ∃ dump, Receive.deliver server s frame.bytes =
      Receive.dispatch server s (.start frame.body) ⟨frame.head, dump⟩ := by
  obtain ⟨dump, c, hread⟩ := frame.readHead_bytes
  have htake : frame.bytes.take Head.size = writeHead frame.head := by
    have := frame.take_bytes []
    rwa [List.append_nil] at this
  have hdrop : frame.bytes.drop Head.size = frame.body := rfl
  exact ⟨dump, by rw [Receive.deliver, htake, hdrop, except_bind_of_ok hread]⟩

theorem Receive.deliver_returned {server : Server F} {s s' : Session F} {frame : Frame}
    {f : ReceiveFunction} {ok : Bool} (hmap : Receive.map frame.opcode = some f)
    (hcall : ∀ dump, call server f s (.start frame.body) ⟨frame.head, dump⟩ =
      .ok (.returned ok, s')) :
    Receive.deliver server s frame.bytes = .ok (.returned ok, s'.flush) := by
  obtain ⟨dump, hdeliver⟩ := Receive.deliver_frame server s frame
  have hopcode : Receive.map frame.head.opcode.toUInt32 = some f := hmap
  rw [hdeliver, Receive.dispatch, hopcode]
  dsimp only
  rw [except_bind_of_ok (hcall dump)]
  rfl

end Dispatch

/-- A connection whose handlers work on a state of type `S`: the bytes that are still to be
received, the opcodes and bodies that were dispatched, and whether `end` was not called yet. -/
structure Connection (S : Type) where
  unread : List UInt8
  dispatched : List (UInt32 × List UInt8)
  session : S
  isOpen : Bool

/-- `onSocketReadable` when its two calls of `receiveBytes` return `n` and `n2`, with `handle` for
the dispatch of a packet. -/
def onSocketReadable {S : Type}
    (handle : S → Buffer → Packet Head → Except Fault (Outcome × S)) (c : Connection S)
    (n n2 : Nat) : Except Stop (Connection S) := do
  let (data, unread) ← receiveBytes c.unread Head.size n
  if n ≠ Head.size then
    if n = 0 then
      pure { c with unread, isOpen := false }
    else
      pure { c with unread }
  else
    let (head, _) ← defined (readHead (.start data))
    if head.value.bodysize < 0 then
      -- `resize` throws a `std::length_error`, which `onSocketReadable` does not catch.
      pure { c with unread }
    else if head.value.bodysize = 0 then
      -- `&buffer[0]` of an empty vector.
      throw (.undefined (.outOfRange 0))
    else
      let size := head.value.bodysize.toNatClampNeg
      let (received, unread) ← receiveBytes unread size n2
      let body := received ++ List.replicate (size - n2) 0
      let (outcome, session) ← defined (handle c.session (.start body) head)
      pure {
        unread, session
        dispatched := c.dispatched ++ [(head.value.opcode.toUInt32, body)]
        isOpen := outcome ≠ .threw }

end Starfall
