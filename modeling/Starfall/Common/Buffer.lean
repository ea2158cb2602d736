import Mathlib.Data.Nat.Bitwise
import Starfall.ProofKit.Reading

/-! `BufferBase.cpp`: a vector of bytes with an iterator `_it` from which the readers take words and
strings.  A read outside the vector and the overflow of an `int` loop counter are undefined in C++,
so a reader that does either fails with a `Fault`. -/

namespace Starfall

open ProofKit.Reading

/-- The bytes of a `std::string`. -/
abbrev Str := List UInt8

def Str.ofString (s : String) : Str := s.toList.map fun c => c.val.toUInt8

/-- What makes the behaviour of the C++ code undefined. -/
inductive Fault
  /-- An iterator is dereferenced at an index that the vector does not have. -/
  | outOfRange (index : Nat)
  /-- A counter that is incremented, or a difference, does not fit an `int`. -/
  | intOverflow
  deriving DecidableEq, Repr

/-- `Buffer`: the vector of bytes, and `_it` as an index into it. -/
abbrev Buffer := Cursor UInt8

abbrev Read (α : Type) := Reader UInt8 Fault α

namespace Buffer

/-- `*(_it + i)`. -/
def deref (i : Nat) : Read UInt8 := fun b =>
  match b.data[b.it + i]? with
  | some byte => .ok (byte, b)
  | none => .error (.outOfRange (b.it + i))

def skip (n : Nat) : Read Unit := fun b => .ok ((), b.advance n)

/-- The `UInt32` with the bytes `b0` to `b3`, the most significant byte first. -/
def word (b0 b1 b2 b3 : UInt8) : UInt32 :=
  b0.toUInt32 <<< 24 ||| b1.toUInt32 <<< 16 ||| b2.toUInt32 <<< 8 ||| b3.toUInt32

def readUInt32 : Read UInt32 := do
  let b ← get
  if b.it + 4 - 1 = b.data.length then
    pure 0
  else
    let b0 ← deref 0
    let b1 ← deref 1
    let b2 ← deref 2
    let b3 ← deref 3
    skip 4
    pure (word b0 b1 b2 b3)

/-- The loop of `readString` from its counter `i` on, with `n` rounds to go. -/
def readChars (i : Nat) : Nat → Read Str
  | 0 => pure []
  | n + 1 => do
    let c ← deref i
    if i + 1 = 2 ^ 31 then
      throw .intOverflow
    else
      let value ← readChars (i + 1) n
      pure (c :: value)

def readString : Read Str := do
  let length ← readUInt32
  let b ← get
  if 0 < length ∧ b.it + length.toNat - 1 ≠ b.data.length then
    let value ← readChars 0 length.toNat
    skip length.toNat
    pure value
  else
    pure []

def writeUInt32 (value : UInt32) : List UInt8 :=
  [(value >>> 24).toUInt8, (value >>> 16).toUInt8, (value >>> 8).toUInt8, value.toUInt8]

def writeString (value : Str) : List UInt8 :=
  writeUInt32 (.ofNat value.length) ++ value

def hexByte (byte : UInt8) : List Char :=
  let s := (Nat.toDigits 16 byte.toNat).map Char.toUpper
  if s.length = 1 then '0' :: s else s

/-- The loop of `hex` from its counter `i` on, for a vector of `size` bytes: rows of sixteen. -/
def hexRows (size : Nat) : Nat → List UInt8 → List Char
  | _, [] => []
  | i, byte :: bytes =>
    hexByte byte ++ (if (i + 1) % 16 = 0 ∨ i + 1 = size then ['\n'] else [' ']) ++
      hexRows size (i + 1) bytes

/-- `hex` counts the bytes with an `int`. -/
def hex : Read (List Char) := do
  let b ← get
  if 2 ^ 31 ≤ b.data.length then
    throw .intOverflow
  else
    pure (hexRows b.data.length 0 b.data)

theorem word_toNat (b0 b1 b2 b3 : UInt8) :
    (word b0 b1 b2 b3).toNat =
      ((b0.toNat * 256 + b1.toNat) * 256 + b2.toNat) * 256 + b3.toNat := by
  have digit : ∀ (x : Nat) (b : UInt8), x * 256 + b.toNat = x <<< 8 ||| b.toNat := fun x b => by
    rw [← Nat.shiftLeft_add_eq_or_of_lt (i := 8) b.toNat_lt, Nat.shiftLeft_eq]
  have h0 := b0.toNat_lt
  have h1 := b1.toNat_lt
  have h2 := b2.toNat_lt
  simp only [word, UInt32.toNat_or, UInt32.toNat_shiftLeft, UInt8.toNat_toUInt32]
  rw [digit, digit, digit]
  simp only [Nat.shiftLeft_or_distrib, ← Nat.shiftLeft_add]
  simp [Nat.shiftLeft_eq]
  rw [Nat.mod_eq_of_lt (by omega), Nat.mod_eq_of_lt (by omega), Nat.mod_eq_of_lt (by omega)]

theorem word_bytes (v : UInt32) :
    word (v >>> 24).toUInt8 (v >>> 16).toUInt8 (v >>> 8).toUInt8 v.toUInt8 = v := by
  have hv := v.toNat_lt
  apply UInt32.toNat_inj.mp
  rw [word_toNat]
  simp [Nat.shiftRight_eq_div_pow]
  omega

theorem writeUInt32_word (b0 b1 b2 b3 : UInt8) :
    writeUInt32 (word b0 b1 b2 b3) = [b0, b1, b2, b3] := by
  have h0 := b0.toNat_lt
  have h1 := b1.toNat_lt
  have h2 := b2.toNat_lt
  have h3 := b3.toNat_lt
  simp only [writeUInt32, List.cons.injEq, and_true, ← UInt8.toNat_inj, UInt32.toNat_toUInt8,
    UInt32.toNat_shiftRight, word_toNat, Nat.shiftRight_eq_div_pow]
  simp
  omega

@[simp] theorem writeUInt32_length (v : UInt32) : (writeUInt32 v).length = 4 := rfl

@[simp] theorem writeString_length (s : Str) : (writeString s).length = 4 + s.length := by
  simp [writeString]

theorem deref_of_some {c : Buffer} {i : Nat} {byte : UInt8} (h : c.rest[i]? = some byte) :
    deref i c = .ok (byte, c) := by
  rw [Cursor.rest_getElem?] at h
  simp [deref, h]

theorem deref_of_none {c : Buffer} {i : Nat} (h : c.rest[i]? = none) :
    deref i c = .error (.outOfRange (c.it + i)) := by
  rw [Cursor.rest_getElem?] at h
  simp [deref, h]

theorem skip_apply (n : Nat) (c : Buffer) : skip n c = .ok ((), c.advance n) := rfl

theorem get_apply (c : Buffer) : (get : Read Buffer) c = .ok (c, c) := rfl

/-- The test of `readUInt32` against `end()` is true exactly when three bytes are left. -/
theorem end_test (c : Buffer) : c.it + 4 - 1 = c.data.length ↔ c.rest.length = 3 := by
  rw [Cursor.length_rest]
  omega

theorem readUInt32_cons {c : Buffer} {b0 b1 b2 b3 : UInt8} {suffix : List UInt8}
    (h : c.rest = b0 :: b1 :: b2 :: b3 :: suffix) :
    readUInt32 c = .ok (word b0 b1 b2 b3, c.advance 4) := by
  have hend : ¬c.it + 4 - 1 = c.data.length := by rw [end_test, h]; simp
  have h0 : c.rest[0]? = some b0 := by simp [h]
  have h1 : c.rest[1]? = some b1 := by simp [h]
  have h2 : c.rest[2]? = some b2 := by simp [h]
  have h3 : c.rest[3]? = some b3 := by simp [h]
  rw [readUInt32, bind_of_ok (get_apply c), if_neg hend, bind_of_ok (deref_of_some h0),
    bind_of_ok (deref_of_some h1), bind_of_ok (deref_of_some h2), bind_of_ok (deref_of_some h3),
    bind_of_ok (skip_apply 4 c), pure_apply]

/-- With three bytes left, `readUInt32` returns 0 and does not move. -/
theorem readUInt32_three {c : Buffer} (h : c.rest.length = 3) : readUInt32 c = .ok (0, c) := by
  rw [readUInt32, bind_of_ok (get_apply c), if_pos ((end_test c).mpr h), pure_apply]

theorem readUInt32_few {c : Buffer} (h : c.rest.length < 3) :
    ∃ i, readUInt32 c = .error (.outOfRange i) := by
  have hend : ¬c.it + 4 - 1 = c.data.length := by rw [end_test]; omega
  refine ⟨c.it + c.rest.length, ?_⟩
  rw [readUInt32, bind_of_ok (get_apply c), if_neg hend]
  have hnone : c.rest[c.rest.length]? = none := by simp
  have hsome : ∀ i < c.rest.length, ∃ byte, c.rest[i]? = some byte := fun i hi =>
    ⟨c.rest[i], List.getElem?_eq_getElem hi⟩
  obtain hl | hl | hl : c.rest.length = 0 ∨ c.rest.length = 1 ∨ c.rest.length = 2 := by omega
  · rw [hl] at hnone ⊢
    rw [bind_of_error (deref_of_none hnone)]
  · obtain ⟨b0, h0⟩ := hsome 0 (by omega)
    rw [hl] at hnone ⊢
    rw [bind_of_ok (deref_of_some h0), bind_of_error (deref_of_none hnone)]
  · obtain ⟨b0, h0⟩ := hsome 0 (by omega)
    obtain ⟨b1, h1⟩ := hsome 1 (by omega)
    rw [hl] at hnone ⊢
    rw [bind_of_ok (deref_of_some h0), bind_of_ok (deref_of_some h1),
      bind_of_error (deref_of_none hnone)]

theorem reads_uint32 (v : UInt32) : Reads readUInt32 (writeUInt32 v) v := by
  intro c suffix h
  rw [readUInt32_cons (by simpa [writeUInt32] using h), word_bytes, writeUInt32_length]

theorem readChars_ok {c : Buffer} {i n : Nat} (hint : i + n < 2 ^ 31)
    (hlen : i + n ≤ c.rest.length) : readChars i n c = .ok ((c.rest.drop i).take n, c) := by
  induction n generalizing i with
  | zero => simp [readChars, pure_apply]
  | succ n ih =>
    have hi : i < c.rest.length := by omega
    rw [readChars, bind_of_ok (deref_of_some (List.getElem?_eq_getElem hi)), if_neg (by omega),
      bind_of_ok (ih (by omega) (by omega)), pure_apply, List.drop_eq_getElem_cons hi,
      List.take_succ_cons]

theorem readChars_few {c : Buffer} {i n : Nat} (hi : i ≤ c.rest.length)
    (hint : c.rest.length < 2 ^ 31) (hlen : c.rest.length < i + n) :
    readChars i n c = .error (.outOfRange (c.it + c.rest.length)) := by
  induction n generalizing i with
  | zero => omega
  | succ n ih =>
    by_cases hlast : i = c.rest.length
    · subst hlast
      rw [readChars, bind_of_error (deref_of_none (by simp))]
    · have hi' : i < c.rest.length := by omega
      rw [readChars, bind_of_ok (deref_of_some (List.getElem?_eq_getElem hi')),
        if_neg (by omega), bind_of_error (ih (by omega) (by omega))]

theorem reads_string {s : Str} (hs : s.length < 2 ^ 31) : Reads readString (writeString s) s := by
  have hsize : (UInt32.ofNat s.length).toNat = s.length :=
    UInt32.toNat_ofNat_of_lt' (by simp [UInt32.size]; omega)
  intro c suffix h
  rw [writeString, List.append_assoc] at h
  rw [readString, bind_of_ok (reads_uint32 _ c _ h), bind_of_ok (get_apply _), hsize]
  have hrest : (c.advance (writeUInt32 (.ofNat s.length)).length).rest = s ++ suffix := by
    rw [Cursor.rest_advance, h, List.drop_left]
  generalize hd : c.advance (writeUInt32 (.ofNat s.length)).length = d at hrest
  by_cases hpos : 0 < UInt32.ofNat s.length
  · have hne : d.it + s.length - 1 ≠ d.data.length := by
      have := d.length_rest
      have hn : 0 < s.length := by simpa [UInt32.lt_iff_toNat_lt, hsize] using hpos
      simp only [hrest, List.length_append] at this
      omega
    rw [if_pos ⟨hpos, hne⟩, bind_of_ok (readChars_ok (by omega) (by simp [hrest])),
      bind_of_ok (skip_apply _ d), pure_apply, hrest, ← hd]
    simp
  · have hnil : s = [] := by
      simpa [UInt32.lt_iff_toNat_lt, hsize] using hpos
    rw [if_neg (fun h => hpos h.1), pure_apply, ← hd]
    simp [hnil]

theorem hex_of_lt {c : Buffer} (h : c.data.length < 2 ^ 31) :
    hex c = .ok (hexRows c.data.length 0 c.data, c) := by
  rw [hex, bind_of_ok (get_apply c), if_neg (by omega), pure_apply]

theorem hex_overflow {c : Buffer} (h : 2 ^ 31 ≤ c.data.length) : hex c = .error .intOverflow := by
  rw [hex, bind_of_ok (get_apply c), if_pos h]
  rfl

end Buffer

end Starfall
