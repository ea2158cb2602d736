import Starfall.NativeClient.Client
import Starfall.Server.Throws

/-! How deep a thread of the native client has locked the mutexes of the sender and of the receiver
after a call of one of their functions, and the same for all the functions with bare locks. -/

namespace Starfall.Mutexes

open Buffer ProofKit.Depths NativeClient

variable {F : Type}

/-- A computation of a thread of the client, on the client's player. -/
abbrev ClientRun (F α : Type) := Thread Mutex (Player F) Fault Exception α

/-- `ClientReceiver::at`. -/
def receiverAt (opcode : UInt32) : ClientRun F ReceiveFunction := do
  lock .receiver
  let receiveFunction ← mapAt (map opcode)
  unlock .receiver
  pure receiveFunction

/-- `ClientSender::at`. -/
def senderAt (caller : SendFunction) : ClientRun F UInt32 := do
  lock .sender
  let ret ← mapAt (sendMap caller)
  unlock .sender
  pure ret

/-- `ClientSender::enqueue`. -/
def senderEnqueue (caller : SendFunction) (body : List UInt8) : ClientRun F Bool := do
  lock .sender
  let opcode ← mapAt (sendMap caller)
  unlock .sender
  let head : Head := ⟨(0xFFFFFFFF : UInt32).toInt32, opcode.toInt32,
    (UInt32.ofNat body.length).toInt32, (0xFFFFFFFF : UInt32).toInt32⟩
  let p ← world
  scopedLock (.entity p.pEntity.sessionid) (modifyWorld fun p =>
    { p with sendQueue := p.sendQueue ++ [writeHead head ++ body] })
  pure true

/-- What `enqueue` makes of the player, or the exception of `map.at`. -/
theorem senderEnqueue_run (caller : SendFunction) (body : List UInt8)
    (s : Machine Mutex (Player F)) :
    ∃ s', Ends (senderEnqueue caller body) s
      (if (enqueue caller body s.world).isSome then .ok true else .error .outOfRange) s' ∧
      s'.world = (enqueue caller body s.world).getD s.world := by
  unfold senderEnqueue enqueue
  cases sendMap caller with
  | some opcode => exact ⟨_, rfl, rfl⟩
  | none => exact ⟨_, rfl, rfl⟩

/-- A bare pair of `lock` and `unlock` around `map.at`. -/
theorem mapAt_restored_iff {W A B : Type} {m : Mutex} {found : Option A}
    {f : A → Thread Mutex W Fault Exception B} (hf : ∀ a, Restores (f a)) {s s' : Machine Mutex W}
    {r : Except Exception B}
    (h : Ends (do
      lock m
      let a ← mapAt found
      unlock m
      f a) s r s') :
    s'.depths = s.depths ↔ found.isSome := by
  obtain ⟨r', mid, hends, hiff⟩ := restored_iff (mapAt_restores found) hf h
  rw [hiff, mapAt_returns hends]

theorem receiverAt_restored_iff (opcode : UInt32) (s : Machine Mutex (Player F)) :
    ∃ r s', Ends (receiverAt opcode) s r s' ∧ (s'.depths = s.depths ↔ (map opcode).isSome) := by
  obtain ⟨r, s', h⟩ : ∃ r s', Ends (receiverAt opcode) s r s' := by
    unfold receiverAt
    cases map opcode with
    | some f => exact ⟨_, _, rfl⟩
    | none => exact ⟨_, _, rfl⟩
  exact ⟨r, s', h, mapAt_restored_iff (fun _ => .pure _) h⟩

theorem senderAt_restored_iff (caller : SendFunction) (s : Machine Mutex (Player F)) :
    ∃ r s', Ends (senderAt caller) s r s' ∧ (s'.depths = s.depths ↔ (sendMap caller).isSome) := by
  obtain ⟨r, s', h⟩ : ∃ r s', Ends (senderAt caller) s r s' := by
    unfold senderAt
    cases sendMap caller with
    | some opcode => exact ⟨_, _, rfl⟩
    | none => exact ⟨_, _, rfl⟩
  exact ⟨r, s', h, mapAt_restored_iff (fun _ => .pure _) h⟩

theorem senderEnqueue_restored_iff (caller : SendFunction) (body : List UInt8)
    (s : Machine Mutex (Player F)) :
    ∃ r s', Ends (senderEnqueue caller body) s r s' ∧
      (s'.depths = s.depths ↔ (sendMap caller).isSome) := by
  obtain ⟨s', h, -⟩ := senderEnqueue_run caller body s
  refine ⟨_, s', h, mapAt_restored_iff (fun _ => ?_) h⟩
  exact .bind .world fun _ => .bind (.scopedLock (.modifyWorld _)) fun _ => .pure _

theorem find_restored {A : Type} (env : Environment F) (cast : Entity F → A) (sessionid : UInt32)
    (s : Machine Mutex (World F)) :
    ∃ r s', Ends (env.find cast sessionid) s r s' ∧ s'.depths = s.depths := by
  obtain ⟨r, s', h, -⟩ := find_run env cast sessionid s
  exact ⟨r, s', h, find_restores env cast sessionid s r s' h⟩

section Server

variable [FloatBits F] [Add F] [Sub F] [Mul F] [LE F] [DecidableLE F]

/-- After a call that returns or throws, the depths are what they were before it: for
`onSocketReadable` exactly when nothing throws in the receive function of the packet that it
receives, for `at` and `enqueue` exactly when the map has the key, and for the lookups of entities
always. -/
theorem depths_restored_iff (env : Environment F) :
    (∀ c c' n n2, onSocketReadable (handle env) c n n2 = .ok c' →
      (c'.session.depths = c.session.depths ↔ PacketReturns env c n n2)) ∧
    (∀ opcode (s : Machine Mutex (Player F)), ∃ r s', Ends (receiverAt opcode) s r s' ∧
      (s'.depths = s.depths ↔ (map opcode).isSome)) ∧
    (∀ caller (s : Machine Mutex (Player F)), ∃ r s', Ends (senderAt caller) s r s' ∧
      (s'.depths = s.depths ↔ (sendMap caller).isSome)) ∧
    (∀ caller body (s : Machine Mutex (Player F)), ∃ r s',
      Ends (senderEnqueue caller body) s r s' ∧
      (s'.depths = s.depths ↔ (sendMap caller).isSome)) ∧
    (∀ sessionid s, ∃ r s', Ends (env.findCreateEntityStruct sessionid) s r s' ∧
      s'.depths = s.depths) ∧
    (∀ sessionid s, ∃ r s', Ends (env.findTransformEntityStruct sessionid) s r s' ∧
      s'.depths = s.depths) :=
  ⟨fun _ _ _ _ h => onSocketReadable_restored_iff h, receiverAt_restored_iff, senderAt_restored_iff,
    senderEnqueue_restored_iff, find_restored env _, find_restored env _⟩

end Server

/-- An environment without entities, in which every call goes through. -/
def quiet : Environment UInt32 := ⟨[], fun _ => true, fun _ => true, fun _ => true,
  fun _ text => .printed text, fun _ => ∅⟩

theorem noPath_fits : [(0 : UInt8), 0, 0, 0].length < 2 ^ 31 := by decide

/-- A player about to receive a packet with an empty path for its entity. -/
def arriving : Connection (Machine Mutex (World UInt32)) where
  unread := (⟨-1, 4, -1, [0, 0, 0, 0], noPath_fits⟩ : Frame).bytes
  dispatched := []
  session := ⟨fun _ => 0, ⟨.open Lobby.origin 1, 0⟩⟩
  isOpen := true

theorem arriving_restored : ∃ c', onSocketReadable (handle quiet) arriving 16 4 = .ok c' ∧
    c'.session.depths = arriving.session.depths := by
  refine ⟨_, rfl, ((depths_restored_iff quiet).1 arriving _ 16 4 rfl).mpr ?_⟩
  intro head rest _ hread _ f hmap
  cases hread
  cases hmap
  trivial

/-- The receiver of the native client gets a `CreateEntityData` packet, and stays locked. -/
theorem receiverAt_locked :
    ∃ s', Ends (receiverAt 0x10000003) ⟨fun _ => 0, Player.create (F := UInt32) Lobby.origin 1⟩
        (.error .outOfRange) s' ∧
      s'.depths .receiver = 1 :=
  ⟨_, rfl, rfl⟩

end Starfall.Mutexes
