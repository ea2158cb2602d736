import Starfall.Common.RoundTrip

/-! Frames: the packets as they stand in a stream, each a header and a body.  The header counts the
bytes of the body with an `int`. -/

namespace Starfall

open ProofKit.Reading Buffer

/-- A packet for the stream. -/
structure Frame where
  begin : Int32
  opcode : UInt32
  end_ : Int32
  body : List UInt8
  fits : body.length < 2 ^ 31

namespace Frame

/-- The header, with the fields in the order of the stream. -/
def head (frame : Frame) : Head :=
  ⟨frame.begin, frame.opcode.toInt32, (UInt32.ofNat frame.body.length).toInt32, frame.end_⟩

def bytes (frame : Frame) : List UInt8 := writeHead frame.head ++ frame.body

/-- What a receiver looks up and passes on. -/
def packet (frame : Frame) : UInt32 × List UInt8 := (frame.opcode, frame.body)

theorem head_bodysize (frame : Frame) : frame.head.bodysize.toInt = frame.body.length :=
  Int32.toInt_ofNat_of_lt frame.fits

theorem head_bodysize_nonneg (frame : Frame) : ¬frame.head.bodysize < 0 := by
  rw [Int32.lt_iff_toInt_lt, frame.head_bodysize]
  simp

theorem head_bodysize_eq_zero (frame : Frame) : frame.head.bodysize = 0 ↔ frame.body = [] := by
  rw [← Int32.toInt_inj, frame.head_bodysize]
  simp

theorem head_bodysize_toNat (frame : Frame) :
    frame.head.bodysize.toNatClampNeg = frame.body.length := by
  rw [Int32.toNatClampNeg, frame.head_bodysize]
  rfl

theorem head_bodysize_pos (frame : Frame) : 0 < frame.head.bodysize ↔ frame.body ≠ [] := by
  rw [Int32.lt_iff_toInt_lt, frame.head_bodysize, ← List.length_pos_iff]
  simp

theorem take_bytes (frame : Frame) (suffix : List UInt8) :
    (frame.bytes ++ suffix).take Head.size = writeHead frame.head := by
  rw [bytes, List.append_assoc, ← writeHead_length frame.head, List.take_left]

theorem readHead_bytes (frame : Frame) :
    ∃ dump c, readHead (.start (writeHead frame.head)) = .ok (⟨frame.head, dump⟩, c) :=
  readHead_writeHead frame.head

end Frame

/-- Why a call does not come to an end that the code defines. -/
inductive Stop
  /-- The socket cannot deliver the given number of bytes. -/
  | notDelivered
  | undefined (fault : Fault)
  deriving DecidableEq, Repr

/-- A call that asks for `length` bytes and receives `n`: between 1 and `length` of the next bytes,
or 0 at the end of the stream. -/
def receiveBytes (unread : List UInt8) (length n : Nat) : Except Stop (List UInt8 × List UInt8) :=
  if n ≤ length ∧ n ≤ unread.length ∧ (0 < n ∨ unread = []) then
    .ok (unread.take n, unread.drop n)
  else
    .error .notDelivered

/-- The result of a reader or handler, as a part of a call. -/
def defined {α : Type} : Except Fault α → Except Stop α
  | .ok a => .ok a
  | .error fault => .error (.undefined fault)

@[simp] theorem defined_ok {α : Type} (a : α) : defined (.ok a) = .ok a := rfl

theorem defined_eq_ok {α : Type} {x : Except Fault α} {a : α} (h : defined x = .ok a) :
    x = .ok a := by
  cases x with
  | ok b =>
    cases h
    rfl
  | error fault => cases h

theorem receiveBytes_all {data : List UInt8} (suffix : List UInt8) (h : data ≠ []) :
    receiveBytes (data ++ suffix) data.length data.length = .ok (data, suffix) := by
  have hpos := List.length_pos_iff.mpr h
  rw [receiveBytes, if_pos ⟨Nat.le_refl _, by simp, .inl hpos⟩, List.take_left, List.drop_left]

theorem receiveBytes_sizes {unread data rest : List UInt8} {length n : Nat}
    (h : receiveBytes unread length n = .ok (data, rest)) :
    n ≤ unread.length ∧ data = unread.take n ∧ rest = unread.drop n := by
  unfold receiveBytes at h
  split at h
  · rename_i hn
    cases h
    exact ⟨hn.2.1, rfl, rfl⟩
  · cases h

theorem receiveBytes_head (frame : Frame) (suffix : List UInt8) :
    receiveBytes (frame.bytes ++ suffix) Head.size Head.size =
      .ok (writeHead frame.head, frame.body ++ suffix) := by
  rw [Frame.bytes, List.append_assoc, ← writeHead_length frame.head]
  exact receiveBytes_all _ (by simp [writeHead, writeUInt32])

/-- The first of the frames were dispatched, with their bodies and in order, and the others stand in
the stream from their first byte on. -/
def InOrder (frames : List Frame) (dispatched : List (UInt32 × List UInt8)) (unread : List UInt8) :
    Prop :=
  ∃ done rest, frames = done ++ rest ∧ dispatched = done.map Frame.packet ∧
    unread = rest.flatMap Frame.bytes

namespace InOrder

theorem start (frames : List Frame) : InOrder frames [] (frames.flatMap Frame.bytes) :=
  ⟨[], frames, rfl, rfl, rfl⟩

theorem isPrefix {frames dispatched unread} (h : InOrder frames dispatched unread) :
    dispatched <+: frames.map Frame.packet := by
  obtain ⟨done, rest, rfl, rfl, -⟩ := h
  exact ⟨rest.map Frame.packet, (List.map_append).symm⟩

/-- A frame has a header, so that all frames were dispatched when nothing is left. -/
theorem eq_of_nil {frames dispatched} (h : InOrder frames dispatched []) :
    dispatched = frames.map Frame.packet := by
  obtain ⟨done, rest, rfl, rfl, hrest⟩ := h
  cases rest with
  | nil => rw [List.append_nil]
  | cons frame rest => cases hrest

end InOrder

end Starfall
