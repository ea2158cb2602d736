import Starfall.Common.BufferImpl

/-! How far the decoders look.  `readUInt32` tests for the end with `==`, which holds only when
exactly three bytes are left, and `readString` tests in the same way for the last byte of the
string.  So a decoder looks past the end unless the bytes that are left are enough, or run short by
just the right amount. -/

namespace Starfall.Buffer

open ProofKit.Reading

/-! ### Looking inside only -/

/-- From `c`, `r` looks only at bytes of the buffer and does not move past its end. -/
def Inside {α : Type} (r : Read α) (c : Buffer) : Prop :=
  (∀ i, r c ≠ .error (.outOfRange i)) ∧ ∀ a c', r c = .ok (a, c') → c'.it ≤ c.data.length

variable {α β : Type}

theorem inside_of_ok {r : Read α} {c : Buffer} {a : α} {n : Nat} (h : r c = .ok (a, c.advance n)) :
    Inside r c ↔ c.it + n ≤ c.data.length := by
  rw [Inside, h]
  constructor
  · intro hinside
    exact hinside.2 a (c.advance n) rfl
  · intro hn
    refine ⟨nofun, fun b c' hc => ?_⟩
    cases hc
    exact hn

theorem not_inside_of_fault {r : Read α} {c : Buffer} {i : Nat}
    (h : r c = .error (.outOfRange i)) : ¬Inside r c := fun hinside => hinside.1 i h

theorem inside_bind_of_ok {r : Read α} {f : α → Read β} {c : Buffer} {a : α} {n : Nat}
    (h : r c = .ok (a, c.advance n)) : Inside (r >>= f) c ↔ Inside (f a) (c.advance n) := by
  rw [Inside, bind_of_ok h]
  rfl

theorem not_inside_bind_of_fault {r : Read α} {f : α → Read β} {c : Buffer} {i : Nat}
    (h : r c = .error (.outOfRange i)) : ¬Inside (r >>= f) c :=
  not_inside_of_fault (bind_of_error h)

theorem inside_bind_pure {r : Read α} {f : α → β} {c : Buffer} :
    Inside (r >>= fun a => pure (f a)) c ↔ Inside r c := by
  cases h : r c with
  | error e =>
    rw [Inside, Inside, bind_of_error h, h]
    simp
  | ok p =>
    obtain ⟨a, c'⟩ := p
    rw [Inside, Inside, bind_of_ok h, h, pure_apply]
    simp

/-! ### Counts -/

/-- The count that stands at the front of the bytes, as `readUInt32` reads it. -/
def wordAt : List UInt8 → Nat
  | b0 :: b1 :: b2 :: b3 :: _ => (word b0 b1 b2 b3).toNat
  | _ => 0

theorem wordAt_few {bytes : List UInt8} (h : bytes.length < 4) : wordAt bytes = 0 := by
  match bytes, h with
  | [], _ | [_], _ | [_, _], _ | [_, _, _], _ => rfl

theorem readUInt32_full {c : Buffer} (h : 4 ≤ c.rest.length) :
    ∃ v : UInt32, readUInt32 c = .ok (v, c.advance 4) ∧ v.toNat = wordAt c.rest := by
  match hr : c.rest, h with
  | b0 :: b1 :: b2 :: b3 :: suffix, _ => exact ⟨_, readUInt32_cons hr, rfl⟩

/-! ### Words -/

/-- `r` takes `n` words.  It stops three bytes short of the end when it finds three bytes where it
needs a word, and faults when it finds fewer. -/
structure Words (n : Nat) (r : Read α) : Prop where
  full : ∀ {c : Buffer}, 4 * n ≤ c.rest.length → ∃ a, r c = .ok (a, c.advance (4 * n))
  short : ∀ {c : Buffer}, c.rest.length < 4 * n → c.rest.length % 4 = 3 →
    ∃ a, r c = .ok (a, c.advance (c.rest.length - 3))
  fault : ∀ {c : Buffer}, c.rest.length < 4 * n → c.rest.length % 4 ≠ 3 →
    ∃ i, r c = .error (.outOfRange i)

namespace Words

theorem uint32 : Words 1 readUInt32 where
  full := fun {c} h => by
    obtain ⟨v, hv, -⟩ := readUInt32_full (c := c) (by omega)
    exact ⟨v, hv⟩
  short := fun {c} h hmod => by
    have hthree : c.rest.length = 3 := by omega
    rw [hthree]
    exact ⟨0, readUInt32_three hthree⟩
  fault := fun h hmod => readUInt32_few (by omega)

theorem pure (a : α) : Words 0 (Pure.pure a : Read α) where
  full := fun _ => ⟨a, rfl⟩
  short := fun h => absurd h (by omega)
  fault := fun h => absurd h (by omega)

theorem bind {m n : Nat} {r : Read α} {f : α → Read β} (h1 : Words m r)
    (h2 : ∀ a, Words n (f a)) : Words (m + n) (r >>= f) where
  full := fun {c} h => by
    obtain ⟨a, ha⟩ := h1.full (c := c) (by omega)
    have hlen : (c.advance (4 * m)).rest.length = c.rest.length - 4 * m := by simp
    obtain ⟨b, hb⟩ := (h2 a).full (c := c.advance (4 * m)) (by omega)
    refine ⟨b, ?_⟩
    rw [bind_of_ok ha, hb, Cursor.advance_advance, Nat.mul_add]
  short := fun {c} h hmod => by
    by_cases hm : 4 * m ≤ c.rest.length
    · obtain ⟨a, ha⟩ := h1.full hm
      have hlen : (c.advance (4 * m)).rest.length = c.rest.length - 4 * m := by simp
      obtain ⟨b, hb⟩ := (h2 a).short (c := c.advance (4 * m)) (by omega) (by omega)
      refine ⟨b, ?_⟩
      rw [bind_of_ok ha, hb, Cursor.advance_advance, hlen]
      congr 3
      omega
    · obtain ⟨a, ha⟩ := h1.short (Nat.lt_of_not_le hm) hmod
      have hlen : (c.advance (c.rest.length - 3)).rest.length = 3 := by simp; omega
      rw [bind_of_ok ha]
      by_cases hn : 4 * n ≤ 3
      · obtain ⟨b, hb⟩ := (h2 a).full (c := c.advance (c.rest.length - 3)) (by omega)
        refine ⟨b, ?_⟩
        rw [hb, Cursor.advance_advance]
        congr 3
        omega
      · obtain ⟨b, hb⟩ := (h2 a).short (c := c.advance (c.rest.length - 3)) (by omega) (by omega)
        refine ⟨b, ?_⟩
        rw [hb, hlen, Cursor.advance_advance]
        rfl
  fault := fun {c} h hmod => by
    by_cases hm : 4 * m ≤ c.rest.length
    · obtain ⟨a, ha⟩ := h1.full hm
      have hlen : (c.advance (4 * m)).rest.length = c.rest.length - 4 * m := by simp
      obtain ⟨i, hi⟩ := (h2 a).fault (c := c.advance (4 * m)) (by omega) (by omega)
      refine ⟨i, ?_⟩
      rw [bind_of_ok ha, hi]
    · obtain ⟨i, hi⟩ := h1.fault (Nat.lt_of_not_le hm) hmod
      exact ⟨i, bind_of_error hi⟩

theorem repeatRead {m : Nat} {r : Read α} (h : Words m r) :
    ∀ n, Words (n * m) (ProofKit.Reading.repeatRead r n) := by
  intro n
  induction n with
  | zero =>
    rw [Nat.zero_mul]
    exact Words.pure []
  | succ n ih =>
    have step := h.bind fun a => ih.bind fun as => Words.pure (a :: as)
    rw [Nat.add_zero, Nat.add_comm, ← Nat.succ_mul] at step
    exact step

theorem inside_iff {n : Nat} {r : Read α} (h : Words n r) {c : Buffer}
    (hc : c.it ≤ c.data.length) :
    Inside r c ↔ 4 * n ≤ c.rest.length ∨ c.rest.length % 4 = 3 := by
  have hlen := c.length_rest
  by_cases hfull : 4 * n ≤ c.rest.length
  · obtain ⟨a, ha⟩ := h.full hfull
    rw [inside_of_ok ha]
    omega
  by_cases hmod : c.rest.length % 4 = 3
  · obtain ⟨a, ha⟩ := h.short (Nat.lt_of_not_le hfull) hmod
    rw [inside_of_ok ha]
    omega
  · obtain ⟨i, hi⟩ := h.fault (Nat.lt_of_not_le hfull) hmod
    exact iff_of_false (not_inside_of_fault hi) (by omega)

end Words

/-! ### Readers with three bytes left -/

/-- With three bytes left, `r` takes nothing. -/
def Idle (r : Read α) : Prop := ∀ c : Buffer, c.rest.length = 3 → ∃ a, r c = .ok (a, c)

theorem Words.idle {n : Nat} {r : Read α} (h : Words n r) : Idle r := by
  intro c hc
  by_cases hn : 4 * n ≤ 3
  · obtain ⟨a, ha⟩ := h.full (c := c) (by omega)
    have hzero : 4 * n = 0 := by omega
    rw [hzero] at ha
    exact ⟨a, ha⟩
  · obtain ⟨a, ha⟩ := h.short (c := c) (by omega) (by omega)
    rw [hc] at ha
    exact ⟨a, ha⟩

theorem Idle.bind {r : Read α} {f : α → Read β} (h1 : Idle r) (h2 : ∀ a, Idle (f a)) :
    Idle (r >>= f) := by
  intro c hc
  obtain ⟨a, ha⟩ := h1 c hc
  rw [bind_of_ok ha]
  exact h2 a c hc

theorem Idle.inside {r : Read α} (h : Idle r) {c : Buffer} (hc : c.rest.length = 3) :
    Inside r c := by
  obtain ⟨a, ha⟩ := h c hc
  have hlen := c.length_rest
  exact (inside_of_ok (n := 0) ha).mpr (by omega)

theorem Words.inside_bind_iff {n : Nat} {r : Read α} {f : α → Read β} (h : Words n r)
    (idle : ∀ a, Idle (f a)) {P : Prop} {c : Buffer}
    (hP : ∀ a, 4 * n ≤ c.rest.length → r c = .ok (a, c.advance (4 * n)) →
      (Inside (f a) (c.advance (4 * n)) ↔ P)) :
    Inside (r >>= f) c ↔
      c.rest.length < 4 * n ∧ c.rest.length % 4 = 3 ∨ 4 * n ≤ c.rest.length ∧ P := by
  by_cases hfull : 4 * n ≤ c.rest.length
  · obtain ⟨a, ha⟩ := h.full hfull
    rw [inside_bind_of_ok ha, hP a hfull ha, and_iff_right hfull, or_iff_right (by omega)]
  have hfew : c.rest.length < 4 * n := Nat.lt_of_not_le hfull
  by_cases hmod : c.rest.length % 4 = 3
  · obtain ⟨a, ha⟩ := h.short hfew hmod
    rw [inside_bind_of_ok ha]
    exact iff_of_true ((idle a).inside (by simp; omega)) (.inl ⟨hfew, hmod⟩)
  · obtain ⟨i, hi⟩ := h.fault hfew hmod
    exact iff_of_false (not_inside_bind_of_fault hi) (by omega)

/-! ### Vectors -/

theorem idle_vector {element : Read α} {m : Nat} (h : Words m element) :
    Idle (readVector element) :=
  Words.uint32.idle.bind fun size => (h.repeatRead size.toNat).idle

/-- A vector of elements of `m` words stays inside when the bytes are enough for its count, or when
three bytes are left where a word is needed. -/
theorem inside_vector_iff {element : Read α} {m : Nat} (h : Words m element) {c : Buffer} :
    Inside (readVector element) c ↔
      c.rest.length % 4 = 3 ∨ 4 + 4 * (wordAt c.rest * m) ≤ c.rest.length := by
  have hlen := c.length_rest
  have hadvance : (c.advance (4 * 1)).rest.length = c.rest.length - 4 := by simp
  have loop : ∀ size : UInt32, 4 * 1 ≤ c.rest.length →
      readUInt32 c = .ok (size, c.advance (4 * 1)) →
      (Inside (repeatRead element size.toNat) (c.advance (4 * 1)) ↔
        4 * (wordAt c.rest * m) ≤ c.rest.length - 4 ∨ (c.rest.length - 4) % 4 = 3) := by
    intro size hfull hsize
    obtain ⟨v, hv, hword⟩ := readUInt32_full hfull
    rw [hsize] at hv
    cases hv
    rw [(h.repeatRead size.toNat).inside_iff (by simp; omega), hadvance, hword]
  rw [readVector,
    Words.uint32.inside_bind_iff (fun size => (h.repeatRead size.toNat).idle) loop]
  by_cases hfew : c.rest.length < 4
  · rw [wordAt_few hfew]
    omega
  · omega

/-! ### Strings -/

/-- The string at the front of the bytes has all the bytes that it claims. -/
def StringFits (rest : List UInt8) : Prop := 4 ≤ rest.length ∧ 4 + wordAt rest ≤ rest.length

/-- The string at the front of the bytes has all the bytes that it claims but for one, or its length
is cut short by one byte. -/
def StringShort (rest : List UInt8) : Prop := wordAt rest + 3 = rest.length

instance (rest : List UInt8) : Decidable (StringFits rest) := inferInstanceAs (Decidable (_ ∧ _))

def stringAt (rest : List UInt8) : Str :=
  if StringFits rest then (rest.drop 4).take (wordAt rest) else []

/-- The number of bytes that `readString` takes. -/
def stringStep (rest : List UInt8) : Nat :=
  if StringFits rest then 4 + wordAt rest else if 4 ≤ rest.length then 4 else 0

/-- What `readString` does after it read the length. -/
theorem readString_length {c d : Buffer} {v : UInt32} (h : readUInt32 c = .ok (v, d))
    (hd : d.it ≤ d.data.length) :
    readString c = if 0 < v.toNat ∧ v.toNat ≠ d.rest.length + 1 then
      (readChars 0 v.toNat d).map fun r => (r.1, r.2.advance v.toNat) else .ok ([], d) := by
  have hlen := d.length_rest
  have htest : (0 < v ∧ d.it + v.toNat - 1 ≠ d.data.length) ↔
      0 < v.toNat ∧ v.toNat ≠ d.rest.length + 1 := by
    rw [UInt32.lt_iff_toNat_lt]
    simp only [UInt32.toNat_zero]
    omega
  rw [readString, bind_of_ok h, bind_of_ok (get_apply d)]
  by_cases hpos : 0 < v.toNat ∧ v.toNat ≠ d.rest.length + 1
  · rw [if_pos (htest.mpr hpos), if_pos hpos]
    cases hchars : readChars 0 v.toNat d with
    | error e => rw [bind_of_error hchars]; rfl
    | ok r =>
      obtain ⟨value, d'⟩ := r
      rw [bind_of_ok hchars, bind_of_ok (skip_apply _ d')]
      rfl
  · rw [if_neg (mt htest.mp hpos), if_neg hpos]
    rfl

theorem readString_fits {c : Buffer} (h : StringFits c.rest) (hint : c.rest.length < 2 ^ 31) :
    readString c = .ok (stringAt c.rest, c.advance (stringStep c.rest)) := by
  rw [stringAt, stringStep, if_pos h, if_pos h]
  obtain ⟨hfour, hall⟩ := h
  obtain ⟨v, hv, hword⟩ := readUInt32_full hfour
  have hlen := c.length_rest
  have hrest : (c.advance 4).rest = c.rest.drop 4 := Cursor.rest_advance c 4
  rw [readString_length hv (by simp; omega), hword]
  by_cases hzero : wordAt c.rest = 0
  · rw [if_neg (by omega), hzero, List.take_zero]
  · rw [if_pos ⟨Nat.pos_of_ne_zero hzero, by rw [hrest, List.length_drop]; omega⟩,
      readChars_ok (by omega) (by rw [hrest, List.length_drop]; omega), hrest]
    simp [Except.map]

theorem readString_short {c : Buffer} (h : StringShort c.rest) :
    readString c = .ok (stringAt c.rest, c.advance (stringStep c.rest)) := by
  have hnot : ¬StringFits c.rest := fun hfits => by
    unfold StringFits at hfits
    unfold StringShort at h
    omega
  have hlen := c.length_rest
  unfold StringShort at h
  rw [stringAt, if_neg hnot, stringStep, if_neg hnot]
  by_cases hfour : 4 ≤ c.rest.length
  · obtain ⟨v, hv, hword⟩ := readUInt32_full hfour
    rw [readString_length hv (by simp; omega), if_neg (by simp; omega), if_pos hfour]
  · have hzero := wordAt_few (Nat.lt_of_not_le hfour)
    have hthree : c.rest.length = 3 := by omega
    rw [readString_length (readUInt32_three hthree) (by omega), if_neg (by simp), if_neg hfour]
    rfl

theorem readString_fault {c : Buffer} (hfits : ¬StringFits c.rest) (hshort : ¬StringShort c.rest)
    (hint : c.rest.length < 2 ^ 31) : ∃ i, readString c = .error (.outOfRange i) := by
  unfold StringFits at hfits
  unfold StringShort at hshort
  have hlen := c.length_rest
  by_cases hfour : 4 ≤ c.rest.length
  · obtain ⟨v, hv, hword⟩ := readUInt32_full hfour
    have hadvance : (c.advance 4).rest.length = c.rest.length - 4 := by simp
    rw [readString_length hv (by simp; omega), if_pos (by omega),
      readChars_few (by omega) (by omega) (by omega)]
    exact ⟨_, rfl⟩
  · have hzero := wordAt_few (Nat.lt_of_not_le hfour)
    obtain ⟨i, hi⟩ := readUInt32_few (c := c) (by omega)
    exact ⟨i, bind_of_error hi⟩

/-- The bytes of the string at the front of the bytes are there, or all but one. -/
def StringStays (rest : List UInt8) : Prop := StringFits rest ∨ StringShort rest

theorem stringStep_le {rest : List UInt8} : stringStep rest ≤ rest.length := by
  unfold stringStep
  split
  · rename_i h
    exact h.2
  · split
    · assumption
    · omega

theorem readString_stays {c : Buffer} (h : StringStays c.rest) (hint : c.rest.length < 2 ^ 31) :
    readString c = .ok (stringAt c.rest, c.advance (stringStep c.rest)) := by
  rcases h with h | h
  · exact readString_fits h hint
  · exact readString_short h

theorem not_inside_string {c : Buffer} (h : ¬StringStays c.rest) (hint : c.rest.length < 2 ^ 31) :
    ∃ i, readString c = .error (.outOfRange i) :=
  readString_fault (fun hfits => h (.inl hfits)) (fun hshort => h (.inr hshort)) hint

theorem inside_string_iff {c : Buffer} (hc : c.it ≤ c.data.length)
    (hint : c.rest.length < 2 ^ 31) : Inside readString c ↔ StringStays c.rest := by
  by_cases h : StringStays c.rest
  · have hlen := c.length_rest
    have hstep : stringStep c.rest ≤ c.rest.length := stringStep_le
    rw [inside_of_ok (readString_stays h hint)]
    exact iff_of_true (by omega) h
  · obtain ⟨i, hi⟩ := not_inside_string h hint
    exact iff_of_false (not_inside_of_fault hi) h

theorem inside_string_bind {f : Str → Read β} {c : Buffer} (hint : c.rest.length < 2 ^ 31) :
    Inside (readString >>= f) c ↔
      StringStays c.rest ∧ Inside (f (stringAt c.rest)) (c.advance (stringStep c.rest)) := by
  by_cases h : StringStays c.rest
  · rw [inside_bind_of_ok (readString_stays h hint), and_iff_right h]
  · obtain ⟨i, hi⟩ := not_inside_string h hint
    exact iff_of_false (not_inside_bind_of_fault hi) fun hboth => h hboth.1

theorem idle_string : Idle readString := by
  intro c hc
  have hshort : StringShort c.rest := by
    rw [StringShort, wordAt_few (by omega), hc]
  have hread := readString_short hshort
  have hfits : ¬StringFits c.rest := fun h => by
    have := h.1
    omega
  rw [stringStep, if_neg hfits, if_neg (by omega)] at hread
  exact ⟨_, hread⟩

/-! ### Packets -/

/-- The body of a packet, whose size is an `int`. -/
structure Body where
  bytes : List UInt8
  fits : bytes.length < 2 ^ 31

theorem inside_packet_iff {fields : Read α} (body : Body) :
    Inside (readPacket fields) (.start body.bytes) ↔ Inside fields (.start body.bytes) := by
  have hdump := hex_of_lt (c := .start body.bytes) body.fits
  rw [readPacket, inside_bind_of_ok (n := 0) hdump, inside_bind_pure]
  rfl

/-- What is left after the three words of a login. -/
def loginStrings (bytes : List UInt8) : List UInt8 := bytes.drop 12

def loginPassword (bytes : List UInt8) : List UInt8 :=
  (loginStrings bytes).drop (stringStep (loginStrings bytes))

/-- The words and strings of a login are there, or run short in a way that the decoder notices. -/
def LoginStays (bytes : List UInt8) : Prop :=
  bytes.length < 12 ∧ bytes.length % 4 = 3 ∨
    12 ≤ bytes.length ∧ StringStays (loginStrings bytes) ∧ StringStays (loginPassword bytes)

theorem inside_login_iff (body : Body) :
    Inside readLoginStruct (.start body.bytes) ↔ LoginStays body.bytes := by
  have hfits := body.fits
  have idle : ∀ f : Str → Str → LoginStruct, Idle (do
      let username ← readString
      let password ← readString
      pure (f username password)) := fun f =>
    idle_string.bind fun _ => idle_string.bind fun _ => (Words.pure _).idle
  have strings : ∀ f : Str → Str → LoginStruct, 12 ≤ body.bytes.length → (Inside (do
        let username ← readString
        let password ← readString
        pure (f username password)) ((Cursor.start body.bytes).advance 12) ↔
      StringStays (loginStrings body.bytes) ∧ StringStays (loginPassword body.bytes)) := by
    intro f hlen
    have hstep : stringStep (loginStrings body.bytes) ≤ (loginStrings body.bytes).length :=
      stringStep_le
    have hlength : (loginStrings body.bytes).length = body.bytes.length - 12 := by
      simp [loginStrings]
    have hrest : ((Cursor.start body.bytes).advance 12).rest = loginStrings body.bytes :=
      Cursor.rest_advance _ 12
    rw [inside_string_bind (by rw [hrest]; omega), hrest, inside_bind_pure,
      inside_string_iff (by simp; omega) (by rw [Cursor.rest_advance, hrest]; simp; omega),
      Cursor.rest_advance, hrest]
    rfl
  rw [readLoginStruct, inside_packet_iff, readLoginFields,
    Words.uint32.inside_bind_iff (fun _ => Words.uint32.idle.bind fun _ =>
      Words.uint32.idle.bind fun _ => idle _) fun _ h1 _ =>
    Words.uint32.inside_bind_iff (fun _ => Words.uint32.idle.bind fun _ => idle _) fun _ h2 _ =>
    Words.uint32.inside_bind_iff (fun _ => idle _) fun _ h3 _ =>
      strings _ (by simp at h1 h2 h3; omega)]
  simp only [Cursor.rest_advance, Cursor.rest_start, List.length_drop, LoginStays]
  by_cases h : StringStays (loginStrings body.bytes) ∧ StringStays (loginPassword body.bytes)
  · simp only [h, and_self, and_true]
    omega
  · simp only [h, and_false, or_false]
    omega

section Floats

variable {F : Type} [FloatBits F]

theorem words_float : Words 1 (readFloat : Read F) := Words.uint32.bind fun _ => Words.pure _

theorem words_transform : Words 7 (readTransform : Read (Transform F)) :=
  words_float.bind fun _ => words_float.bind fun _ => words_float.bind fun _ =>
    words_float.bind fun _ => words_float.bind fun _ => words_float.bind fun _ =>
      words_float.bind fun _ => Words.pure _

theorem words_transformStruct : Words 8 (readTransformStruct : Read (TransformStruct F)) :=
  Words.uint32.bind fun _ => words_transform.bind fun _ => Words.pure _

theorem inside_transforms_iff (body : Body) :
    Inside (readTransformsPacket (F := F)) (.start body.bytes) ↔
      body.bytes.length % 4 = 3 ∨ 4 + 32 * wordAt body.bytes ≤ body.bytes.length := by
  rw [readTransformsPacket, inside_packet_iff, readTransformStructs,
    inside_vector_iff words_transformStruct, Cursor.rest_start]
  omega

theorem inside_ids_iff (bytes : List UInt8) :
    Inside readIds (.start bytes) ↔
      bytes.length % 4 = 3 ∨ 4 + 4 * wordAt bytes ≤ bytes.length := by
  rw [readIds, inside_vector_iff Words.uint32, Cursor.rest_start]
  omega

theorem inside_objects_iff (bytes : List UInt8) :
    Inside (readObjectsStruct (F := F)) (.start bytes) ↔
      bytes.length % 4 = 3 ∨ 12 + 4 * wordAt (bytes.drop 8) ≤ bytes.length := by
  have idle : ∀ f : List UInt32 → ObjectsStruct F, Idle (do
      let ids ← readIds
      pure (f ids)) := fun f => (idle_vector Words.uint32).bind fun _ => (Words.pure _).idle
  rw [readObjectsStruct, Words.uint32.inside_bind_iff (fun _ => words_float.idle.bind fun _ =>
      idle _) fun _ _ _ =>
    words_float.inside_bind_iff (fun _ => idle _) fun _ _ _ => by
      rw [inside_bind_pure, readIds, inside_vector_iff Words.uint32]]
  simp only [Cursor.rest_advance, Cursor.rest_start, List.length_drop, List.drop_drop,
    Nat.reduceMul, Nat.reduceAdd]
  by_cases hfew : bytes.length < 12
  · rw [wordAt_few (by simp; omega)]
    omega
  · omega

end Floats

end Starfall.Buffer
