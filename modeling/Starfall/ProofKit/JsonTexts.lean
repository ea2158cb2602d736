import Starfall.ProofKit.Json

/-! Texts of JSON that are put together from texts of values: arrays and objects with commas between
their parts, and space around them. -/

namespace ProofKit.Json

/-- What may stand between the quotes of a string. -/
def IsSpelling (s : List UInt8) : Prop := readString .plain (s ++ [34]) = some (s, [])

instance (s : List UInt8) : Decidable (IsSpelling s) := inferInstanceAs (Decidable (_ = _))

theorem IsSpelling.read {s : List UInt8} (h : IsSpelling s) (t : List UInt8) :
    readString .plain (s ++ 34 :: t) = some (s, t) := by
  have happend := readString_append h t
  rwa [List.append_assoc] at happend

/-- A character before the last quote leads from one mode to another. -/
theorem readString_cons {mode : Mode} {c : UInt8} {s : List UInt8}
    (h : readString mode (c :: s ++ [34]) = some (c :: s, [])) :
    ∃ next, mode.next c = some (some next) ∧ readString next (s ++ [34]) = some (s, []) := by
  rw [List.cons_append, readString] at h
  cases hnext : mode.next c with
  | none =>
    rw [hnext] at h
    cases h
  | some next =>
    rw [hnext] at h
    cases next with
    | none => cases h
    | some next =>
      obtain ⟨⟨x, rest⟩, hrest, heq⟩ := Option.map_eq_some_iff.mp h
      cases heq
      exact ⟨next, rfl, hrest⟩

theorem plain_of_read {mode : Mode} (h : readString mode [34] = some ([], [])) : mode = .plain := by
  cases mode with
  | plain => rfl
  | escape => cases h
  | hex more => cases more <;> cases h

/-- A string is spelled piece by piece. -/
theorem IsSpelling.append {s t : List UInt8} (h : IsSpelling s) (ht : IsSpelling t) :
    IsSpelling (s ++ t) := by
  have hread : ∀ {mode : Mode} {s : List UInt8}, readString mode (s ++ [34]) = some (s, []) →
      readString mode (s ++ (t ++ [34])) = some (s ++ t, []) := by
    intro mode s h
    induction s generalizing mode with
    | nil =>
      rw [plain_of_read h]
      exact ht
    | cons c s ih =>
      obtain ⟨next, hnext, hrest⟩ := readString_cons h
      rw [List.cons_append, readString, hnext]
      dsimp only
      rw [ih hrest]
      rfl
  rw [IsSpelling, List.append_assoc]
  exact hread h

theorem le_of_next {mode mode' : Mode} {c : UInt8} (h : mode.next c = some (some mode')) :
    32 ≤ c := by
  have hhex : isHex c = true → 32 ≤ c := by
    simp only [isHex, isDigit, Bool.or_eq_true, Bool.and_eq_true, decide_eq_true_eq,
      UInt8.le_iff_toNat_le, UInt8.reduceToNat]
    omega
  cases mode with
  | plain =>
    simp only [Mode.next] at h
    split at h
    · cases h
    split at h
    · rename_i hslash
      rw [hslash]
      decide
    split at h
    · assumption
    · cases h
  | escape =>
    simp only [Mode.next] at h
    split at h
    · rename_i hu
      rw [hu]
      decide
    split at h
    · rename_i hescape
      simp only [isEscape, Bool.or_eq_true, beq_iff_eq] at hescape
      rcases hescape with ((((((rfl | rfl) | rfl) | rfl) | rfl) | rfl) | rfl) | rfl <;> decide
    · cases h
  | hex more =>
    cases more with
    | zero =>
      simp only [Mode.next] at h
      split at h
      · exact hhex ‹_›
      · cases h
    | succ more =>
      simp only [Mode.next] at h
      split at h
      · exact hhex ‹_›
      · cases h

/-- No character of a spelling is a control character. -/
theorem IsSpelling.le_of_mem {s : List UInt8} (h : IsSpelling s) {c : UInt8} (hc : c ∈ s) :
    32 ≤ c := by
  have hread : ∀ {mode : Mode} {s : List UInt8}, readString mode (s ++ [34]) = some (s, []) →
      ∀ c ∈ s, 32 ≤ c := by
    intro mode s h
    induction s generalizing mode with
    | nil => exact nofun
    | cons a s ih =>
      obtain ⟨next, hnext, hrest⟩ := readString_cons h
      exact List.forall_mem_cons.mpr ⟨le_of_next hnext, ih hrest⟩
  exact hread h c hc

theorem isSpelling_flatMap {f : UInt8 → List UInt8} {s : List UInt8}
    (h : ∀ c ∈ s, IsSpelling (f c)) : IsSpelling (s.flatMap f) := by
  induction s with
  | nil => rfl
  | cons c s ih =>
    rw [List.flatMap_cons]
    exact (h c List.mem_cons_self).append (ih fun a ha => h a (List.mem_cons_of_mem _ ha))

theorem isSpelling_plain {s : List UInt8} (h : ∀ c ∈ s, 32 ≤ c ∧ c ≠ 34 ∧ c ≠ 92) :
    IsSpelling s := by
  rw [← List.flatMap_singleton' s]
  refine isSpelling_flatMap fun c hc => ?_
  obtain ⟨hle, hquote, hslash⟩ := h c hc
  have hnext : Mode.plain.next c = some (some .plain) := by
    rw [Mode.next, if_neg hquote, if_neg hslash, if_pos hle]
  rw [IsSpelling, List.singleton_append, readString, hnext]
  rfl

def hexValue (c : UInt8) : UInt8 := if c ≤ 57 then c - 48 else if c ≤ 70 then c - 55 else c - 87

/-- What a character after a backslash stands for, apart from `u`. -/
def escapeValue (c : UInt8) : UInt8 :=
  if c = 98 then 8
  else if c = 102 then 12
  else if c = 110 then 10
  else if c = 114 then 13
  else if c = 116 then 9
  else c

/-- The bytes that a spelling stands for, if its `u` escapes are of bytes. -/
def decode : List UInt8 → Option (List UInt8)
  | [] => some []
  | 92 :: 117 :: 48 :: 48 :: h :: l :: s =>
    (decode s).map fun t => (16 * hexValue h + hexValue l) :: t
  | 92 :: 117 :: _ => none
  | 92 :: c :: s => (decode s).map fun t => escapeValue c :: t
  | c :: s => (decode s).map fun t => c :: t

theorem decode_plain {c : UInt8} (h : c ≠ 92) (s : List UInt8) :
    decode (c :: s) = (decode s).map fun t => c :: t := by
  rw [decode] <;> (intros; contradiction)

/-- A string that is spelled piece by piece is read back piece by piece. -/
theorem decode_flatMap {f : UInt8 → List UInt8} {s : List UInt8}
    (h : ∀ c ∈ s, ∀ t, decode (f c ++ t) = (decode t).map fun t => c :: t) :
    decode (s.flatMap f) = some s := by
  induction s with
  | nil => rfl
  | cons c s ih =>
    rw [List.flatMap_cons, h c List.mem_cons_self, ih fun a ha => h a (List.mem_cons_of_mem _ ha)]
    rfl

theorem decode_literal {s : List UInt8} (h : 92 ∉ s) : decode s = some s := by
  induction s with
  | nil => rfl
  | cons c s ih =>
    rw [List.mem_cons, not_or] at h
    rw [decode_plain (Ne.symm h.1), ih h.2]
    rfl

mutual

/-- The value with what its strings and keys stand for. -/
def Value.decoded : Value → Option Value
  | .null => some .null
  | .boolean b => some (.boolean b)
  | .number n => some (.number n)
  | .string s => (decode s).map .string
  | .array elements => (decodedElements elements).map .array
  | .object members => (decodedMembers members).map .object

def decodedElements : List Value → Option (List Value)
  | [] => some []
  | v :: vs => do
    let v ← v.decoded
    let vs ← decodedElements vs
    pure (v :: vs)

def decodedMembers : List (List UInt8 × Value) → Option (List (List UInt8 × Value))
  | [] => some []
  | (k, v) :: ms => do
    let k ← decode k
    let v ← v.decoded
    let ms ← decodedMembers ms
    pure ((k, v) :: ms)

end

theorem decodedElements_map {α : Type*} {f g : α → Value} {items : List α}
    (h : ∀ a ∈ items, (f a).decoded = some (g a)) :
    decodedElements (items.map f) = some (items.map g) := by
  induction items with
  | nil => rfl
  | cons a items ih =>
    rw [List.forall_mem_cons] at h
    rw [List.map_cons, decodedElements, h.1, ih h.2]
    rfl

theorem decodedMembers_map {α : Type*} {key : α → List UInt8} {f g : α → Value} {items : List α}
    (hkeys : ∀ a ∈ items, decode (key a) = some (key a))
    (h : ∀ a ∈ items, (f a).decoded = some (g a)) :
    decodedMembers (items.map fun a => (key a, f a)) = some (items.map fun a => (key a, g a)) := by
  induction items with
  | nil => rfl
  | cons a items ih =>
    rw [List.forall_mem_cons] at hkeys h
    rw [List.map_cons, decodedMembers, hkeys.1, h.1, ih hkeys.2 h.2]
    rfl

/-- Nothing but space. -/
def Blank (w : List UInt8) : Prop := ∀ c ∈ w, isSpace c = true

instance (w : List UInt8) : Decidable (Blank w) := List.decidableBAll _ w

/-- What no number goes on with. -/
def Apart (r : List UInt8) : Prop := ∀ c ∈ r.head?, isNumeric c = false

/-- The text spells the value and nothing else, whatever stands apart behind it. -/
def Fills (v : Value) (text : List UInt8) : Prop :=
  ∀ fuel, text.length < fuel → ∀ r, Apart r →
    ∃ rest, readValue fuel (skip (text ++ r)) = some (v, rest) ∧ skip rest = skip r

theorem skip_blank {w : List UInt8} (h : Blank w) (t : List UInt8) : skip (w ++ t) = skip t := by
  induction w with
  | nil => rfl
  | cons c w ih =>
    have hc := List.forall_mem_cons.mp h
    rw [List.cons_append, skip, List.dropWhile_cons_of_pos hc.1]
    exact ih hc.2

theorem skip_of_not_space {c : UInt8} (h : isSpace c = false) (t : List UInt8) :
    skip (c :: t) = c :: t :=
  List.dropWhile_cons_of_neg (by simp [h])

theorem apart_blank {w r : List UInt8} (h : Blank w) (hr : Apart r) : Apart (w ++ r) := by
  cases w with
  | nil => exact hr
  | cons c w =>
    rintro a ⟨⟩
    have hspace : ∀ c : UInt8, isSpace c = true → isNumeric c = false := by
      intro c hc
      simp only [isSpace, Bool.or_eq_true, beq_iff_eq] at hc
      rcases hc with ((rfl | rfl) | rfl) | rfl <;> rfl
    exact hspace c (List.forall_mem_cons.mp h).1

namespace Fills

variable {v : Value} {text : List UInt8}

theorem pad_left (h : Fills v text) {w : List UInt8} (hw : Blank w) : Fills v (w ++ text) := by
  intro fuel hfuel r hr
  rw [List.length_append] at hfuel
  rw [List.append_assoc, skip_blank hw]
  exact h fuel (by omega) r hr

theorem pad_right (h : Fills v text) {w : List UInt8} (hw : Blank w) : Fills v (text ++ w) := by
  intro fuel hfuel r hr
  rw [List.length_append] at hfuel
  obtain ⟨rest, hread, hrest⟩ := h fuel (by omega) (w ++ r) (apart_blank hw hr)
  rw [skip_blank hw] at hrest
  rw [List.append_assoc]
  exact ⟨rest, hread, hrest⟩

theorem parse (h : Fills v text) : Json.parse text = some v := by
  obtain ⟨rest, hread, hrest⟩ := h (text.length + 1) (by omega) [] nofun
  rw [List.append_nil] at hread
  rw [Json.parse, hread]
  exact if_pos hrest

end Fills

theorem fills_string {s : List UInt8} (h : IsSpelling s) :
    Fills (.string s) (34 :: (s ++ [34])) := by
  intro fuel hfuel r hr
  obtain ⟨fuel, rfl⟩ : ∃ n, fuel = n + 1 := ⟨fuel - 1, by omega⟩
  refine ⟨r, ?_, rfl⟩
  rw [List.cons_append, List.append_assoc, skip_of_not_space (by decide), readValue,
    if_neg (by decide), if_neg (by decide), if_pos rfl]
  exact (congrArg _ (h.read r)).trans rfl

theorem fills_number {s : List UInt8} (hall : ∀ c ∈ s, isNumeric c = true)
    (h : isNumber s = true) : Fills (.number s) s := by
  intro fuel hfuel r hr
  obtain ⟨fuel, rfl⟩ : ∃ n, fuel = n + 1 := ⟨fuel - 1, by omega⟩
  have htake : (s ++ r).takeWhile isNumeric = s := by
    rw [List.takeWhile_append_of_pos hall]
    cases r with
    | nil => simp
    | cons c r => rw [List.takeWhile_cons_of_neg (by simp [hr c rfl]), List.append_nil]
  have hdrop : (s ++ r).dropWhile isNumeric = r := by
    rw [List.dropWhile_append_of_pos hall]
    cases r with
    | nil => rfl
    | cons c r => exact List.dropWhile_cons_of_neg (by simp [hr c rfl])
  refine ⟨r, ?_, rfl⟩
  cases s with
  | nil => cases h
  | cons c s =>
    have hc := hall c List.mem_cons_self
    have hne : ∀ a : UInt8, isNumeric a = false → c ≠ a := by
      rintro a ha rfl
      rw [hc] at ha
      cases ha
    have hspace : isSpace c = false := by
      by_contra hspace
      simp only [isSpace, Bool.not_eq_false, Bool.or_eq_true, beq_iff_eq] at hspace
      rcases hspace with ((rfl | rfl) | rfl) | rfl <;> cases hc
    have hnumber : readNumber (c :: (s ++ r)) = some (c :: s, r) := by
      rw [List.cons_append] at htake hdrop
      rw [readNumber, htake, hdrop, if_pos h]
    rw [List.cons_append, skip_of_not_space hspace, readValue, if_neg (hne _ rfl),
      if_neg (hne _ rfl), if_neg (hne _ rfl), if_neg (hne _ rfl), if_neg (hne _ rfl),
      if_neg (hne _ rfl), hnumber]
    rfl

section Entries

variable {α : Type*} {entries : List α} {view : α → Value} {name text : α → List UInt8}
  {sep close : List UInt8}

theorem intercalate_pair (sep a b : List UInt8) (l : List (List UInt8)) :
    List.intercalate (44 :: sep) (a :: b :: l) =
      a ++ 44 :: (sep ++ List.intercalate (44 :: sep) (b :: l)) := by
  simp [List.intercalate_cons_cons]

theorem apart_of_not_numeric {c : UInt8} (h : isNumeric c = false) (t : List UInt8) :
    Apart (c :: t) := by
  rintro _ ⟨⟩
  exact h

/-- Elements with commas between them, and with space after the commas and around them. -/
theorem readElements_texts (hsep : Blank sep) (hclose : Blank close)
    (h : ∀ a ∈ entries, Fills (view a) (text a)) (hne : entries ≠ []) {fuel : Nat}
    {front : List UInt8} (hfront : Blank front) (t : List UInt8)
    (hfuel : (front ++ (List.intercalate (44 :: sep) (entries.map text) ++ close)).length + 1 <
      fuel) :
    readElements fuel
        (front ++ (List.intercalate (44 :: sep) (entries.map text) ++ (close ++ 93 :: t))) =
      some (entries.map view, t) := by
  induction entries generalizing fuel front with
  | nil => exact absurd rfl hne
  | cons a entries ih =>
    rw [List.forall_mem_cons] at h
    obtain ⟨fuel, rfl⟩ : ∃ n, fuel = n + 1 := ⟨fuel - 1, by omega⟩
    have hfirst := h.1.pad_left hfront
    cases entries with
    | nil =>
      rw [List.map_singleton, List.intercalate_singleton] at hfuel ⊢
      have hlast := hfirst.pad_right hclose
      rw [List.append_assoc] at hlast
      obtain ⟨rest, hread, hrest⟩ := hlast fuel (by omega) (93 :: t) (apart_of_not_numeric rfl t)
      rw [skip_of_not_space (by decide)] at hrest
      rw [readElements, ← List.append_assoc (text a), ← List.append_assoc front, hread,
        Option.bind_some]
      dsimp only
      rw [hrest]
      rfl
    | cons b entries =>
      rw [List.map_cons, List.map_cons, intercalate_pair, ← List.map_cons] at hfuel ⊢
      simp only [List.length_append, List.length_cons] at hfuel
      simp only [List.append_assoc, List.cons_append]
      obtain ⟨rest, hread, hrest⟩ := hfirst fuel (by simp only [List.length_append]; omega)
        (44 :: _) (apart_of_not_numeric rfl _)
      rw [skip_of_not_space (by decide)] at hrest
      rw [readElements, ← List.append_assoc, hread, Option.bind_some]
      dsimp only
      rw [hrest]
      show (readElements fuel _).map _ = _
      rw [ih h.2 (List.cons_ne_nil b entries) hsep (by simp only [List.length_append]; omega)]
      rfl

/-- An array whose elements fill the texts between its commas. -/
theorem fills_array {front : List UInt8} (hfront : Blank front) (hsep : Blank sep)
    (hclose : Blank close) (h : ∀ a ∈ entries, Fills (view a) (text a)) (hne : entries ≠ []) :
    Fills (.array (entries.map view))
      (91 :: (front ++ (List.intercalate (44 :: sep) (entries.map text) ++ (close ++ [93])))) := by
  intro fuel hfuel r _
  simp only [List.length_cons, List.length_append] at hfuel
  obtain ⟨fuel, rfl⟩ : ∃ n, fuel = n + 1 := ⟨fuel - 1, by omega⟩
  have hlength : (front ++ (List.intercalate (44 :: sep) (entries.map text) ++ close)).length + 1 <
      fuel := by
    simp only [List.length_append]
    omega
  have hread := readElements_texts hsep hclose h hne hfront r hlength
  have hopen : (skip (front ++ (List.intercalate (44 :: sep) (entries.map text) ++
      (close ++ 93 :: r)))).head? ≠ some 93 := by
    intro hend
    obtain ⟨after, hafter⟩ := List.head?_eq_some_iff.mp hend
    obtain ⟨fuel, rfl⟩ : ∃ n, fuel = n + 2 := ⟨fuel - 2, by omega⟩
    rw [readElements, hafter] at hread
    cases hread
  refine ⟨r, ?_, rfl⟩
  simp only [List.cons_append, List.append_assoc, List.nil_append]
  rw [skip_of_not_space (by decide), readValue, if_neg (by decide), if_pos rfl, if_neg hopen,
    hread]
  rfl

theorem fills_array_nil {w : List UInt8} (hw : Blank w) :
    Fills (.array []) (91 :: (w ++ [93])) := by
  intro fuel hfuel r _
  obtain ⟨fuel, rfl⟩ : ∃ n, fuel = n + 1 := ⟨fuel - 1, by omega⟩
  refine ⟨r, ?_, rfl⟩
  rw [List.cons_append, List.append_assoc, List.singleton_append, skip_of_not_space (by decide),
    readValue, if_neg (by decide), if_pos rfl, skip_blank hw, skip_of_not_space (by decide)]
  exact if_pos List.head?_cons

/-- A name in quotes, a colon, and a text that the value fills, with space before the name and
before the colon. -/
def FillsMember (name : List UInt8) (v : Value) (member : List UInt8) : Prop :=
  ∃ w w' text, Blank w ∧ Blank w' ∧ IsSpelling name ∧ Fills v text ∧
    member = w ++ 34 :: (name ++ 34 :: (w' ++ 58 :: text))

namespace FillsMember

variable {name member w : List UInt8} {v : Value}

theorem pad_left (h : FillsMember name v member) (hw : Blank w) :
    FillsMember name v (w ++ member) := by
  obtain ⟨front, colon, text, hfront, hcolon, hname, hv, rfl⟩ := h
  exact ⟨w ++ front, colon, text, List.forall_mem_append.mpr ⟨hw, hfront⟩, hcolon, hname, hv,
    by rw [List.append_assoc]⟩

theorem pad_right (h : FillsMember name v member) (hw : Blank w) :
    FillsMember name v (member ++ w) := by
  obtain ⟨front, colon, text, hfront, hcolon, hname, hv, rfl⟩ := h
  exact ⟨front, colon, text ++ w, hfront, hcolon, hname, hv.pad_right hw, by simp⟩

/-- The member at the front, before a character that no number goes on with. -/
theorem read (h : FillsMember name v member) {fuel : Nat} (hfuel : member.length < fuel) :
    ∀ {r : List UInt8}, Apart r → skip r = r → readMembers (fuel + 1) (member ++ r) =
      match r with
      | 44 :: s => (readMembers fuel s).map fun more => ((name, v) :: more.1, more.2)
      | 125 :: s => some ([(name, v)], s)
      | _ => none := by
  intro r hr hskip
  obtain ⟨w, w', text, hw, hw', hname, hv, rfl⟩ := h
  simp only [List.length_append, List.length_cons] at hfuel
  obtain ⟨rest, hread, hrest⟩ := hv fuel (by omega) r hr
  rw [hskip] at hrest
  have hquoted := hname.read (w' ++ 58 :: (text ++ r))
  have hcolon : skip (w' ++ 58 :: (text ++ r)) = 58 :: (text ++ r) := by
    rw [skip_blank hw', skip_of_not_space (by decide)]
  have hfront : skip (w ++ 34 :: (name ++ 34 :: (w' ++ 58 :: text)) ++ r) =
      34 :: (name ++ 34 :: (w' ++ 58 :: (text ++ r))) := by
    rw [List.append_assoc, skip_blank hw, List.cons_append, skip_of_not_space (by decide)]
    simp only [List.append_assoc, List.cons_append]
  rw [readMembers, hfront]
  show (readString .plain (name ++ 34 :: (w' ++ 58 :: (text ++ r)))).bind _ = _
  rw [hquoted, Option.bind_some]
  dsimp only
  rw [hcolon]
  show (readValue fuel (skip (text ++ r))).bind _ = _
  rw [hread, Option.bind_some]
  exact hrest ▸ rfl

end FillsMember

theorem readMembers_texts (hsep : Blank sep) (hclose : Blank close)
    (h : ∀ a ∈ entries, FillsMember (name a) (view a) (text a)) (hne : entries ≠ []) {fuel : Nat}
    {front : List UInt8} (hfront : Blank front) (t : List UInt8)
    (hfuel : (front ++ (List.intercalate (44 :: sep) (entries.map text) ++ close)).length + 1 <
      fuel) :
    readMembers fuel
        (front ++ (List.intercalate (44 :: sep) (entries.map text) ++ (close ++ 125 :: t))) =
      some (entries.map fun a => (name a, view a), t) := by
  induction entries generalizing fuel front with
  | nil => exact absurd rfl hne
  | cons a entries ih =>
    rw [List.forall_mem_cons] at h
    obtain ⟨fuel, rfl⟩ : ∃ n, fuel = n + 1 := ⟨fuel - 1, by omega⟩
    have hfirst := h.1.pad_left hfront
    cases entries with
    | nil =>
      rw [List.map_singleton, List.intercalate_singleton] at hfuel ⊢
      have hlast := hfirst.pad_right hclose
      rw [List.append_assoc] at hlast
      rw [← List.append_assoc (text a), ← List.append_assoc front]
      exact hlast.read (by omega) (apart_of_not_numeric rfl t) (skip_of_not_space (by decide) t)
    | cons b entries =>
      rw [List.map_cons, List.map_cons, intercalate_pair, ← List.map_cons] at hfuel ⊢
      simp only [List.length_append, List.length_cons] at hfuel
      simp only [List.append_assoc, List.cons_append]
      rw [← List.append_assoc, hfirst.read (by simp only [List.length_append]; omega)
        (apart_of_not_numeric rfl _) (skip_of_not_space (by decide) _)]
      show (readMembers fuel _).map _ = _
      rw [ih h.2 (List.cons_ne_nil b entries) hsep (by simp only [List.length_append]; omega)]
      rfl

/-- An object whose members fill the texts between its commas. -/
theorem fills_object {front : List UInt8} (hfront : Blank front) (hsep : Blank sep)
    (hclose : Blank close) (h : ∀ a ∈ entries, FillsMember (name a) (view a) (text a))
    (hne : entries ≠ []) :
    Fills (.object (entries.map fun a => (name a, view a)))
      (123 :: (front ++
        (List.intercalate (44 :: sep) (entries.map text) ++ (close ++ [125])))) := by
  intro fuel hfuel r _
  simp only [List.length_cons, List.length_append] at hfuel
  obtain ⟨fuel, rfl⟩ : ∃ n, fuel = n + 1 := ⟨fuel - 1, by omega⟩
  have hlength : (front ++ (List.intercalate (44 :: sep) (entries.map text) ++ close)).length + 1 <
      fuel := by
    simp only [List.length_append]
    omega
  have hread := readMembers_texts hsep hclose h hne hfront r hlength
  have hopen : (skip (front ++ (List.intercalate (44 :: sep) (entries.map text) ++
      (close ++ 125 :: r)))).head? ≠ some 125 := by
    intro hend
    obtain ⟨after, hafter⟩ := List.head?_eq_some_iff.mp hend
    obtain ⟨fuel, rfl⟩ : ∃ n, fuel = n + 1 := ⟨fuel - 1, by omega⟩
    rw [readMembers, hafter] at hread
    cases hread
  refine ⟨r, ?_, rfl⟩
  simp only [List.cons_append, List.append_assoc, List.nil_append]
  rw [skip_of_not_space (by decide), readValue, if_pos rfl, if_neg hopen, hread]
  rfl

theorem fills_object_nil {w : List UInt8} (hw : Blank w) :
    Fills (.object []) (123 :: (w ++ [125])) := by
  intro fuel hfuel r _
  obtain ⟨fuel, rfl⟩ : ∃ n, fuel = n + 1 := ⟨fuel - 1, by omega⟩
  refine ⟨r, ?_, rfl⟩
  rw [List.cons_append, List.append_assoc, List.singleton_append, skip_of_not_space (by decide),
    readValue, if_pos rfl, skip_blank hw, skip_of_not_space (by decide)]
  exact if_pos List.head?_cons

end Entries

end ProofKit.Json
