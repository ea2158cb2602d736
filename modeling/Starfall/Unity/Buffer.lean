import Starfall.Common.RoundTrip
import Starfall.ProofKit.Writing

/-! `Network.js`: the class `Buffer` of the Unity client.  Its writers push bytes onto an `Array`,
and its readers take them from `rpos` on.  Each of them writes or reads what its counterpart in
`BufferBase.cpp` does. -/

namespace Starfall.Unity

open ProofKit.Reading ProofKit.Writing

/-- A `String`: its UTF-16 code units. -/
abbrev Text := List UInt16

def Text.Ascii (s : Text) : Prop := ∀ c ∈ s, c < 128

instance (s : Text) : Decidable s.Ascii := List.decidableBAll _ s

/-- `Encoding.ASCII.GetBytes`, with `?` for what is not ASCII. -/
def Text.getBytes (s : Text) : Str := s.map fun c => if c < 128 then c.toUInt8 else 63

/-- `Encoding.ASCII.GetChars` of one byte. -/
def getChar (byte : UInt8) : UInt16 := if byte < 128 then byte.toUInt16 else 63

/-- The characters of the bytes of a string. -/
def Text.ofBytes (s : Str) : Text := s.map UInt8.toUInt16

/-- What ends a call before it returns. -/
inductive Interrupt
  /-- The socket cannot deliver what the call receives. -/
  | notDelivered
  /-- An array of more than `2^31 - 1` elements. -/
  | overflow
  /-- An index that the array does not have. -/
  | outOfRange
  deriving DecidableEq, Repr

/-- The `data` of a buffer: an `Array` has fewer than `2^31` elements. -/
abbrev Bytes := Store (2 ^ 31 - 1) UInt8

abbrev Write := ProofKit.Writing.Writer (2 ^ 31 - 1) UInt8

abbrev Read (α : Type) := Reader UInt8 Interrupt α

/-- `System.BitConverter.GetBytes`, for a machine of either byte order. -/
def floatBytes {F : Type} [FloatBits F] (littleEndian : Bool) (f : F) :
    UInt8 × UInt8 × UInt8 × UInt8 :=
  let bits := FloatBits.toBits f
  if littleEndian then
    (bits.toUInt8, (bits >>> 8).toUInt8, (bits >>> 16).toUInt8, (bits >>> 24).toUInt8)
  else
    ((bits >>> 24).toUInt8, (bits >>> 16).toUInt8, (bits >>> 8).toUInt8, bits.toUInt8)

/-- `System.BitConverter.ToSingle`. -/
def toSingle {F : Type} [FloatBits F] (littleEndian : Bool) :
    UInt8 × UInt8 × UInt8 × UInt8 → F
  | (b0, b1, b2, b3) => FloatBits.ofBits <|
    if littleEndian then Buffer.word b3 b2 b1 b0 else Buffer.word b0 b1 b2 b3

namespace Buffer

variable {F : Type} [FloatBits F] (littleEndian : Bool)

def writeUInt8 (i : UInt32) : Write := push (i &&& 0xFF).toUInt8

def writeUInt32 (i : UInt32) : Write :=
  writeUInt8 (i >>> 24) >=> writeUInt8 (i >>> 16) >=> writeUInt8 (i >>> 8) >=> writeUInt8 i

def writeString (s : Text) : Write :=
  writeUInt32 (.ofNat s.length) >=> forEach push s.getBytes

def writeFloat (f : F) : Write :=
  let (b0, b1, b2, b3) := floatBytes littleEndian f
  if littleEndian then
    writeUInt8 b3.toUInt32 >=> writeUInt8 b2.toUInt32 >=> writeUInt8 b1.toUInt32 >=>
      writeUInt8 b0.toUInt32
  else
    writeUInt8 b0.toUInt32 >=> writeUInt8 b1.toUInt32 >=> writeUInt8 b2.toUInt32 >=>
      writeUInt8 b3.toUInt32

/-- `this.data[this.rpos]`, and `this.rpos++`. -/
def next : Read UInt8 := fun b =>
  match b.data[b.it]? with
  | some byte => .ok (byte, b.advance 1)
  | none => .error .outOfRange

def readUInt32 : Read UInt32 := do
  let buffer ← get
  if buffer.it + 4 - 1 < buffer.data.length then
    let a ← next
    let b ← next
    let c ← next
    let d ← next
    pure (Starfall.Buffer.word a b c d)
  else
    pure 0

def readUInt8 : Read UInt8 := do
  let buffer ← get
  if buffer.it + 1 - 1 < buffer.data.length then
    next
  else
    pure 0

def readString : Read Text := do
  let l ← readUInt32
  repeatRead (do let c ← next; pure (getChar c)) l.toNat

def readFloat : Read F :=
  if littleEndian then do
    let b3 ← readUInt8
    let b2 ← readUInt8
    let b1 ← readUInt8
    let b0 ← readUInt8
    pure (toSingle littleEndian (b0, b1, b2, b3))
  else do
    let b0 ← readUInt8
    let b1 ← readUInt8
    let b2 ← readUInt8
    let b3 ← readUInt8
    pure (toSingle littleEndian (b0, b1, b2, b3))

theorem writes_uint8 (i : UInt32) : Writes (writeUInt8 i) [i.toUInt8] := by
  have low : (i &&& 0xFF).toUInt8 = i.toUInt8 := by
    rw [← UInt8.toNat_inj]
    simp [Nat.and_two_pow_sub_one_eq_mod _ 8]
  intro s
  rw [writeUInt8, low]
  rfl

theorem writes_uint32 (i : UInt32) : Writes (writeUInt32 i) (Starfall.Buffer.writeUInt32 i) :=
  (writes_uint8 _).seq ((writes_uint8 _).seq ((writes_uint8 _).seq (writes_uint8 _)))

theorem getBytes_length (s : Text) : s.getBytes.length = s.length := by
  simp [Text.getBytes]

theorem writes_string (s : Text) :
    Writes (writeString s) (Starfall.Buffer.writeString s.getBytes) := by
  rw [Starfall.Buffer.writeString, getBytes_length]
  exact (writes_uint32 _).seq (.pushAll _)

theorem writes_float (f : F) :
    Writes (writeFloat littleEndian f) (Starfall.Buffer.writeFloat f) := by
  have bytes : Writes
      (writeUInt8 ((FloatBits.toBits f >>> 24).toUInt8).toUInt32 >=>
        writeUInt8 ((FloatBits.toBits f >>> 16).toUInt8).toUInt32 >=>
        writeUInt8 ((FloatBits.toBits f >>> 8).toUInt8).toUInt32 >=>
        writeUInt8 ((FloatBits.toBits f).toUInt8).toUInt32)
      (Starfall.Buffer.writeFloat f) := by
    have h := (writes_uint8 ((FloatBits.toBits f >>> 24).toUInt8).toUInt32).seq
      ((writes_uint8 ((FloatBits.toBits f >>> 16).toUInt8).toUInt32).seq
        ((writes_uint8 ((FloatBits.toBits f >>> 8).toUInt8).toUInt32).seq
          (writes_uint8 ((FloatBits.toBits f).toUInt8).toUInt32)))
    simp only [UInt8.toUInt8_toUInt32] at h
    exact h
  cases littleEndian
  · exact bytes
  · exact bytes

theorem get_apply (c : Cursor UInt8) : (get : Read (Cursor UInt8)) c = .ok (c, c) := rfl

theorem reads_next (byte : UInt8) : Reads next [byte] byte := by
  intro c suffix h
  have hbyte : c.data[c.it]? = some byte := by
    rw [← Nat.add_zero c.it, ← Cursor.rest_getElem?, h]
    rfl
  simp [next, hbyte]

/-- Four bytes, put together by `f`. -/
theorem reads_four {α : Type} {r : Read UInt8} (h : ∀ byte, Reads r [byte] byte)
    (f : UInt8 → UInt8 → UInt8 → UInt8 → α) (b0 b1 b2 b3 : UInt8) :
    Reads (do let a ← r; let b ← r; let c ← r; let d ← r; pure (f a b c d)) [b0, b1, b2, b3]
      (f b0 b1 b2 b3) := by
  have last : Reads (do let d ← r; pure (f b0 b1 b2 d)) [b3] (f b0 b1 b2 b3) := (h b3).bind_pure
  have third : Reads (do let c ← r; let d ← r; pure (f b0 b1 c d)) [b2, b3] (f b0 b1 b2 b3) :=
    (h b2).bind last
  have second : Reads (do let b ← r; let c ← r; let d ← r; pure (f b0 b c d)) [b1, b2, b3]
      (f b0 b1 b2 b3) := (h b1).bind third
  exact (h b0).bind second

theorem reads_uint32 (v : UInt32) : Reads readUInt32 (Starfall.Buffer.writeUInt32 v) v := by
  intro c suffix h
  have hlen : c.it + 4 - 1 < c.data.length := by
    have := c.length_rest
    rw [h] at this
    simp only [List.length_append, Starfall.Buffer.writeUInt32_length] at this
    omega
  have bytes := reads_four reads_next Starfall.Buffer.word (v >>> 24).toUInt8 (v >>> 16).toUInt8
    (v >>> 8).toUInt8 v.toUInt8
  rw [Starfall.Buffer.word_bytes] at bytes
  rw [readUInt32, bind_of_ok (get_apply c), if_pos hlen]
  exact bytes c suffix h

theorem reads_uint8 (byte : UInt8) : Reads readUInt8 [byte] byte := by
  intro c suffix h
  have hlen : c.it + 1 - 1 < c.data.length := by
    have := c.length_rest
    rw [h] at this
    simp only [List.length_append, List.length_singleton] at this
    omega
  rw [readUInt8, bind_of_ok (get_apply c), if_pos hlen]
  exact reads_next byte c suffix h

theorem reads_string {s : Str} (ascii : ∀ b ∈ s, b < 128) (hsize : s.length < 2 ^ 32) :
    Reads readString (Starfall.Buffer.writeString s) (Text.ofBytes s) := by
  have hcount : (UInt32.ofNat s.length).toNat = s.length := UInt32.toNat_ofNat_of_lt' hsize
  refine (reads_uint32 _).bind ?_
  rw [hcount]
  have chars : ∀ s : Str, (∀ b ∈ s, b < 128) →
      Reads (repeatRead (do let c ← next; pure (getChar c)) s.length) s (Text.ofBytes s) := by
    intro s ascii
    induction s with
    | nil => exact .pure []
    | cons b s ih =>
      have hb : getChar b = b.toUInt16 := if_pos (ascii b List.mem_cons_self)
      have head : Reads (do let c ← next; pure (getChar c)) [b] b.toUInt16 :=
        hb ▸ (reads_next b).bind_pure
      exact head.bind (ih fun b hb => ascii b (List.mem_cons_of_mem _ hb)).bind_pure
  exact chars s ascii

theorem reads_float [LawfulFloatBits F] (f : F) :
    Reads (readFloat littleEndian) (Starfall.Buffer.writeFloat f) f := by
  have bits : FloatBits.ofBits (Starfall.Buffer.word (FloatBits.toBits f >>> 24).toUInt8
      (FloatBits.toBits f >>> 16).toUInt8 (FloatBits.toBits f >>> 8).toUInt8
      (FloatBits.toBits f).toUInt8) = f := by
    rw [Starfall.Buffer.word_bytes, LawfulFloatBits.ofBits_toBits]
  cases littleEndian with
  | true =>
    have bytes := reads_four reads_uint8
      (fun b3 b2 b1 b0 => toSingle (F := F) true (b0, b1, b2, b3))
      (FloatBits.toBits f >>> 24).toUInt8 (FloatBits.toBits f >>> 16).toUInt8
      (FloatBits.toBits f >>> 8).toUInt8 (FloatBits.toBits f).toUInt8
    rw [toSingle, if_pos rfl, bits] at bytes
    exact bytes
  | false =>
    have bytes := reads_four reads_uint8
      (fun b0 b1 b2 b3 => toSingle (F := F) false (b0, b1, b2, b3))
      (FloatBits.toBits f >>> 24).toUInt8 (FloatBits.toBits f >>> 16).toUInt8
      (FloatBits.toBits f >>> 8).toUInt8 (FloatBits.toBits f).toUInt8
    rw [toSingle, if_neg Bool.false_ne_true, bits] at bytes
    exact bytes

end Buffer

end Starfall.Unity
