import Starfall.Server.Mutexes

/-! What `onSocketReadable` does with a header.  The size of the body goes from a word to an `int`
and from there to the `size_t` of `resize`, so a negative size is too long for a vector, and with a
size of zero there is no element whose address can be taken.  Exceptions are told apart here as the
`catch` clauses of the two `try` blocks tell them apart. -/

namespace Starfall.Headers

open Buffer Receive Mutexes ProofKit.Depths

variable {F : Type}

/-- What ends a block before its last statement. -/
inductive Halt
  | raised (e : Mutexes.Exception)
  /-- `std::length_error`. -/
  | lengthError
  | undefined (fault : Fault)
  deriving DecidableEq, Repr

/-- What a call of `onSocketReadable` shows to the outside. -/
inductive Event
  | called (receiveFunction : ReceiveFunction) (buffer : List UInt8)
  /-- A line in `std::cerr` for a `std::out_of_range`. -/
  | reported
  /-- `end` closes the connection. -/
  | ended
  deriving DecidableEq, Repr

structure Handling (F : Type) where
  machine : Machine Mutex (World F)
  events : List Event

abbrev Call (F α : Type) := EStateM Halt (Handling F) α

def log (event : Event) : Call F Unit :=
  modify fun c => { c with events := c.events ++ [event] }

/-- What is defined returns. -/
def evaluate {α : Type} : Except Fault α → Call F α
  | .ok a => pure a
  | .error fault => throw (.undefined fault)

/-- A part that runs on the machine of the thread. -/
def perform {α : Type} (x : Run F α) : Call F α := do
  let c ← get
  match x.run c.machine with
  | .error fault => throw (.undefined fault)
  | .ok (r, machine) =>
    set { c with machine }
    match r with
    | .ok a => pure a
    | .error e => throw (.raised e)

/-- The `size_t` that an `int` converts to. -/
def sizeT (value : Int32) : Nat := value.toInt64.toUInt64.toNat

/-- `buffer.resize`, for vectors of at most `maxSize` bytes. -/
def resize (maxSize : Nat) (bodysize : Int32) : Call F Nat :=
  if maxSize < sizeT bodysize then throw .lengthError else pure (sizeT bodysize)

/-- Receives all of the buffer from `&buffer[0]` on. -/
def receiveInto (size : Nat) (following : List UInt8) : Call F Buffer :=
  if size = 0 then throw (.undefined (.outOfRange 0)) else pure (.start (following.take size))

/-- The `catch` of the outer `try`, which takes every `Poco::Exception`. -/
def catchPoco : Halt → Call F Unit
  | .raised .outOfRange => throw (.raised .outOfRange)
  | .raised _ => log .ended
  | e => throw e

section Receive

variable [Add F] [Sub F] [Mul F] [LE F] [DecidableLE F] [FloatBits F]

/-- The statements of the inner `try` behind `Map.at`. -/
def invoke (env : Environment F) (receiveFunction : ReceiveFunction) (buffer : Buffer)
    (head : Packet Head) : Run F Bool := do
  let p ← player
  lock (.entity p.pEntity.sessionid)
  let ok ← call env receiveFunction buffer head
  unlock (.entity p.pEntity.sessionid)
  sendPackets env
  pure ok

/-- The inner `try`. -/
def dispatch (env : Environment F) (buffer : Buffer) (head : Packet Head) : Call F Unit :=
  tryCatch (do
    let receiveFunction ← perform (mapAt (Receive.map head.value.opcode.toUInt32))
    log (.called receiveFunction buffer.data)
    let _ ← perform (invoke env receiveFunction buffer head))
  fun
    | .raised .outOfRange => log .reported
    | e => throw e

/-- `onSocketReadable` when its first call of `receiveBytes` returns `data`, and `following` is what
the socket has behind it. -/
def onSocketReadable (env : Environment F) (maxSize : Nat) (data following : List UInt8) :
    Call F Unit :=
  tryCatch (do
    if data.length ≠ Head.size then
      if data.length = 0 then log .ended
    else
      let (head, _) ← evaluate (readHead (.start data))
      let size ← resize maxSize head.value.bodysize
      let buffer ← receiveInto size following
      dispatch env buffer head) catchPoco

end Receive

/-- What the call has shown when it is left. -/
def events : EStateM.Result Halt (Handling F) Unit → List Event
  | .ok _ c => c.events
  | .error _ c => c.events

/-- The receive function of the opcode is called with as many bytes as the header says, an unknown
opcode is reported, or the connection is closed; and no exception escapes. -/
structure Handled (head : Head) (result : EStateM.Result Halt (Handling F) Unit) : Prop where
  event : (∃ f buffer, Receive.map head.opcode.toUInt32 = some f ∧
      (buffer.length : Int) = head.bodysize.toInt ∧ .called f buffer ∈ events result) ∨
    (Receive.map head.opcode.toUInt32 = none ∧ .reported ∈ events result) ∨
    .ended ∈ events result
  caught : ∀ e c, result = .error e c → ∃ fault, e = .undefined fault

theorem sizeT_cast (value : Int32) :
    (sizeT value : Int) = if value.toInt < 0 then value.toInt + 2 ^ 64 else value.toInt := by
  have hcond := BitVec.toInt_eq_toNat_cond value.toInt64.toBitVec
  have hvalue : value.toInt64.toBitVec.toInt = value.toInt := Int32.toInt_toInt64 value
  have hsize : value.toInt64.toBitVec.toNat = sizeT value := rfl
  have hlt : sizeT value < 2 ^ 64 := value.toInt64.toUInt64.toNat_lt
  rw [hvalue, hsize] at hcond
  split at hcond
  · omega
  · omega

theorem sizeT_of_pos {value : Int32} (h : 0 < value) : (sizeT value : Int) = value.toInt := by
  rw [Int32.lt_iff_toInt_lt, Int32.toInt_zero] at h
  rw [sizeT_cast, if_neg (by omega)]

/-- A size that is not negative is less than `2 ^ 31`, and one that is negative is at least
`2 ^ 64 - 2 ^ 31`. -/
theorem lt_sizeT_iff {maxSize : Nat} (hlow : 2 ^ 31 ≤ maxSize + 1)
    (hhigh : maxSize < 2 ^ 64 - 2 ^ 31) (value : Int32) : maxSize < sizeT value ↔ value < 0 := by
  have hcast := sizeT_cast value
  have hmin := value.le_toInt
  have hmax := value.toInt_lt
  rw [Int32.lt_iff_toInt_lt, Int32.toInt_zero]
  split at hcast
  · omega
  · omega

theorem run_tryCatch {α : Type} (x : Call F α) (f : Halt → Call F α) (c : Handling F) :
    (tryCatch x f).run c = match x.run c with
      | .error e mid => (f e).run mid
      | .ok a mid => .ok a mid := by
  rw [EStateM.run, EStateM.run]
  show EStateM.tryCatch x f c = _
  rw [EStateM.tryCatch]
  cases x c with
  | ok a mid => rfl
  | error e mid => rfl

theorem run_perform {α : Type} (x : Run F α) (c : Handling F) :
    (perform x).run c = match x.run c.machine with
      | .error fault => .error (.undefined fault) c
      | .ok (.error e, machine) => .error (.raised e) { c with machine }
      | .ok (.ok a, machine) => .ok a { c with machine } := by
  rw [perform, EStateM.run_bind, EStateM.run_get]
  dsimp only
  rcases x.run c.machine with fault | ⟨e | a, machine⟩
  · rfl
  · rfl
  · rfl

@[simp] theorem run_log (event : Event) (c : Handling F) :
    (log event).run c = .ok () { c with events := c.events ++ [event] } := rfl

section Receive

variable [Add F] [Sub F] [Mul F] [LE F] [DecidableLE F] [FloatBits F]

theorem dispatch_unknown {head : Packet Head} (h : Receive.map head.value.opcode.toUInt32 = none)
    (env : Environment F) (buffer : Buffer) (c : Handling F) :
    (dispatch env buffer head).run c = .ok () { c with events := c.events ++ [.reported] } := by
  rw [dispatch, h, run_tryCatch, EStateM.run_bind, run_perform]
  rfl

theorem dispatch_known {head : Packet Head} {f : ReceiveFunction}
    (h : Receive.map head.value.opcode.toUInt32 = some f) (env : Environment F) (buffer : Buffer)
    (c : Handling F) :
    (dispatch env buffer head).run c = match (invoke env f buffer head).run c.machine with
      | .error fault =>
        .error (.undefined fault) { c with events := c.events ++ [.called f buffer.data] }
      | .ok (.ok _, machine) => .ok () ⟨machine, c.events ++ [.called f buffer.data]⟩
      | .ok (.error .outOfRange, machine) =>
        .ok () ⟨machine, c.events ++ [.called f buffer.data] ++ [.reported]⟩
      | .ok (.error e, machine) =>
        .error (.raised e) ⟨machine, c.events ++ [.called f buffer.data]⟩ := by
  rw [dispatch, h, run_tryCatch, EStateM.run_bind, run_perform]
  have hmapAt : (mapAt (some f) : Run F ReceiveFunction).run c.machine =
      .ok (.ok f, c.machine) := rfl
  rw [hmapAt]
  dsimp only
  rw [EStateM.run_bind, run_log]
  dsimp only
  rw [EStateM.run_bind, run_perform]
  rcases (invoke env f buffer head).run c.machine with fault | ⟨e | ok, machine⟩
  · rfl
  · cases e with
    | outOfRange => rfl
    | notFound => rfl
    | nullPointer => rfl
    | poco => rfl
  · rfl

/-- A header with a positive size gets its bytes, and the outer `try` ends what a `Poco::Exception`
leaves. -/
theorem onSocketReadable_received {head : Head} {maxSize : Nat} (hlow : 2 ^ 31 ≤ maxSize + 1)
    (hhigh : maxSize < 2 ^ 64 - 2 ^ 31) (hpos : 0 < head.bodysize) (env : Environment F)
    (following : List UInt8) (c : Handling F) :
    ∃ dump, (onSocketReadable env maxSize (writeHead head) following).run c =
      (tryCatch (dispatch env (.start (following.take (sizeT head.bodysize))) ⟨head, dump⟩)
        catchPoco).run c := by
  obtain ⟨dump, rest, hread⟩ := readHead_writeHead head
  have hresize : resize maxSize head.bodysize = (pure (sizeT head.bodysize) : Call F Nat) := by
    rw [resize, if_neg]
    rw [lt_sizeT_iff hlow hhigh]
    exact Int32.not_lt.mpr (Int32.le_of_lt hpos)
  have hinto : receiveInto (sizeT head.bodysize) following =
      (pure (.start (following.take (sizeT head.bodysize))) : Call F Buffer) := by
    rw [receiveInto, if_neg]
    have hcast := sizeT_of_pos hpos
    rw [Int32.lt_iff_toInt_lt, Int32.toInt_zero] at hpos
    omega
  refine ⟨dump, ?_⟩
  rw [onSocketReadable, if_neg (not_not.mpr (writeHead_length head)), hread]
  simp only [evaluate, pure_bind, hresize, hinto]

theorem dispatch_handled (head : Packet Head) {buffer : Buffer}
    (hbuffer : (buffer.data.length : Int) = head.value.bodysize.toInt) (env : Environment F)
    (machine : Machine Mutex (World F)) :
    Handled head.value ((tryCatch (dispatch env buffer head) catchPoco).run ⟨machine, []⟩) := by
  rw [run_tryCatch]
  cases hmap : Receive.map head.value.opcode.toUInt32 with
  | none =>
    rw [dispatch_unknown hmap]
    exact ⟨.inr (.inl ⟨hmap, by simp [events]⟩), nofun⟩
  | some f =>
    rw [dispatch_known hmap]
    have hcalled : ∀ result : EStateM.Result Halt (Handling F) Unit,
        .called f buffer.data ∈ events result →
        (∀ e c, result = .error e c → ∃ fault, e = .undefined fault) →
        Handled head.value result :=
      fun result hevent hcaught => ⟨.inl ⟨f, buffer.data, hmap, hbuffer, hevent⟩, hcaught⟩
    rcases (invoke env f buffer head).run machine with fault | ⟨e | ok, machine⟩
    · exact hcalled _ (by simp [events, catchPoco]) fun e c h => by cases h; exact ⟨fault, rfl⟩
    · cases e with
      | outOfRange => exact hcalled _ (by simp [events]) nofun
      | notFound => exact hcalled _ (by simp [events, catchPoco]) nofun
      | nullPointer => exact hcalled _ (by simp [events, catchPoco]) nofun
      | poco => exact hcalled _ (by simp [events, catchPoco]) nofun
    · exact hcalled _ (by simp [events]) nofun

theorem receive_invoke {head : Packet Head} {f : ReceiveFunction}
    (h : Receive.map head.value.opcode.toUInt32 = some f) (env : Environment F) (buffer : Buffer)
    (s : Machine Mutex (World F)) :
    (receive env buffer head).run s = (do
      let ok ← invoke env f buffer head
      pure (.returned ok) : Run F Outcome).run s := by
  unfold receive invoke
  rw [h]
  simp only [bind_assoc, pure_bind]
  rfl

/-- The machine and the outcome are those of `Mutexes.handle`. -/
theorem dispatch_handle {env : Environment F} {buffer : Buffer} {head : Packet Head}
    {c : Handling F} {outcome : Outcome} {machine : Machine Mutex (World F)}
    (hopen : .ended ∉ c.events)
    (h : handle env c.machine buffer head = .ok (outcome, machine)) :
    ∃ events, (tryCatch (dispatch env buffer head) catchPoco).run c = .ok () ⟨machine, events⟩ ∧
      (.ended ∈ events ↔ outcome = .threw) := by
  rw [run_tryCatch]
  unfold handle Mutexes.dispatch at h
  rw [ProofKit.Depths.run_tryCatch] at h
  cases hmap : Receive.map head.value.opcode.toUInt32 with
  | none =>
    have hreceive : (receive env buffer head).run c.machine =
        .ok (.error .outOfRange, c.machine) := by
      rw [receive, hmap]
      rfl
    rw [hreceive] at h
    cases h
    rw [dispatch_unknown hmap]
    exact ⟨_, rfl, by simp [hopen]⟩
  | some f =>
    rw [receive_invoke hmap, run_bind] at h
    rw [dispatch_known hmap]
    generalize (invoke env f buffer head).run c.machine = ran at h ⊢
    rcases ran with fault | ⟨e | ok, mid⟩
    · cases h
    · cases e with
      | outOfRange =>
        cases h
        exact ⟨_, rfl, by simp [hopen]⟩
      | notFound =>
        cases h
        exact ⟨_, rfl, by simp⟩
      | nullPointer =>
        cases h
        exact ⟨_, rfl, by simp⟩
      | poco =>
        cases h
        exact ⟨_, rfl, by simp⟩
    · cases h
      exact ⟨_, rfl, by simp [hopen]⟩

/-- A size that is not positive gets to no receive function: `resize` throws what nothing catches,
or the address of the first byte of an empty buffer is taken. -/
theorem onSocketReadable_stopped {head : Head} {maxSize : Nat} (hlow : 2 ^ 31 ≤ maxSize + 1)
    (hhigh : maxSize < 2 ^ 64 - 2 ^ 31) (h : ¬0 < head.bodysize) (env : Environment F)
    (following : List UInt8) (c : Handling F) :
    (onSocketReadable env maxSize (writeHead head) following).run c =
      .error (if head.bodysize = 0 then .undefined (.outOfRange 0) else .lengthError) c := by
  obtain ⟨dump, rest, hread⟩ := readHead_writeHead head
  rw [onSocketReadable, if_neg (not_not.mpr (writeHead_length head)), hread]
  by_cases hzero : head.bodysize = 0
  · have hresize : resize maxSize head.bodysize = (pure 0 : Call F Nat) := by
      rw [resize, if_neg, hzero]
      · rfl
      · rw [lt_sizeT_iff hlow hhigh, hzero]
        decide
    have hinto : receiveInto 0 following =
        (throw (.undefined (.outOfRange 0)) : Call F Buffer) := rfl
    rw [if_pos hzero]
    simp only [evaluate, pure_bind, hresize, hinto]
    rfl
  · have hresize : resize maxSize head.bodysize = (throw .lengthError : Call F Nat) := by
      rw [resize, if_pos]
      rw [lt_sizeT_iff hlow hhigh]
      exact Int32.lt_of_le_of_ne (Int32.not_lt.mp h) hzero
    rw [if_neg hzero]
    simp only [evaluate, pure_bind, hresize]
    rfl

theorem not_handled {head : Head} {maxSize : Nat} (hlow : 2 ^ 31 ≤ maxSize + 1)
    (hhigh : maxSize < 2 ^ 64 - 2 ^ 31) (hpos : ¬0 < head.bodysize) (env : Environment F)
    (following : List UInt8) (machine : Machine Mutex (World F)) :
    ¬Handled head
      ((onSocketReadable env maxSize (writeHead head) following).run ⟨machine, []⟩) := by
  intro h
  rw [onSocketReadable_stopped hlow hhigh hpos] at h
  rcases h.event with ⟨_, _, _, _, hevent⟩ | ⟨-, hevent⟩ | hevent
  · exact List.not_mem_nil hevent
  · exact List.not_mem_nil hevent
  · exact List.not_mem_nil hevent

/-- A header is handled if and only if its size is positive, for vectors whose largest size is at
least that of an `int` and less than that of a negative `int`. -/
theorem handled_iff {maxSize : Nat} (hlow : 2 ^ 31 ≤ maxSize + 1)
    (hhigh : maxSize < 2 ^ 64 - 2 ^ 31) (env : Environment F) (head : Head)
    (following : List UInt8) (hfollowing : head.bodysize.toInt ≤ following.length)
    (machine : Machine Mutex (World F)) :
    Handled head ((onSocketReadable env maxSize (writeHead head) following).run ⟨machine, []⟩) ↔
      0 < head.bodysize := by
  constructor
  · intro h
    by_contra hpos
    exact not_handled hlow hhigh hpos env following machine h
  · intro hpos
    obtain ⟨dump, hreceived⟩ :=
      onSocketReadable_received hlow hhigh hpos env following ⟨machine, []⟩
    have hbuffer : ((following.take (sizeT head.bodysize)).length : Int) = head.bodysize.toInt := by
      have hsize := sizeT_of_pos hpos
      rw [List.length_take]
      omega
    rw [hreceived]
    exact dispatch_handled ⟨head, dump⟩ hbuffer env machine

end Receive

def silent : Environment UInt32 := ⟨[], fun _ => true, fun _ => true, fun _ => true,
  fun _ _ => .printed [], fun _ => ∅⟩

def idle : Machine Mutex (World UInt32) :=
  ⟨fun _ => 0, .open ⟨⟨0, 0, 0⟩, ⟨0, 0, 0, 1⟩⟩ 1, 0⟩

/-- A header with an opcode of the map and the size. -/
def sized (bodysize : Int32) : Head := ⟨-1, 2, bodysize, -1⟩

theorem positive_handled : Handled (sized 4)
    ((onSocketReadable silent (2 ^ 63 - 1) (writeHead (sized 4)) [0, 0, 0, 0]).run ⟨idle, []⟩) :=
  (handled_iff (by decide) (by decide) silent (sized 4) [0, 0, 0, 0] (by decide) idle).mpr
    (by decide)

/-- A negative size lets a `std::length_error` out, and with the size zero the address of a byte is
taken that is not there. -/
theorem sizes_notHandled :
    (onSocketReadable silent (2 ^ 63 - 1) (writeHead (sized (-1))) []).run ⟨idle, []⟩ =
        .error .lengthError ⟨idle, []⟩ ∧
      (onSocketReadable silent (2 ^ 63 - 1) (writeHead (sized 0)) []).run ⟨idle, []⟩ =
        .error (.undefined (.outOfRange 0)) ⟨idle, []⟩ ∧
      ∀ bodysize ∈ [-1, 0], ¬Handled (sized bodysize)
        ((onSocketReadable silent (2 ^ 63 - 1) (writeHead (sized bodysize)) []).run
          ⟨idle, []⟩) := by
  refine ⟨onSocketReadable_stopped (by decide) (by decide) (by decide) _ _ _,
    onSocketReadable_stopped (by decide) (by decide) (by decide) _ _ _, ?_⟩
  rw [List.forall_mem_cons, List.forall_mem_singleton]
  exact ⟨not_handled (by decide) (by decide) (by decide) _ _ _,
    not_handled (by decide) (by decide) (by decide) _ _ _⟩

end Starfall.Headers
