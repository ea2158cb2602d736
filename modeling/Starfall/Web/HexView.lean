import Mathlib.Algebra.Order.BigOperators.Group.List
import Mathlib.Algebra.Order.Group.Nat
import Starfall.Web.ByteMap

/-! The table of a dump.  Labels are put around the bytes of each field, and where a row ends inside
of a field, its name moves from the end of the field to the end of its first row.  The search for
the field of a byte goes down to the byte 1 and never looks at the byte 0. -/

namespace Starfall.Components

open Console ProofKit.Tilings

def HexMap.interval (map : HexMap) : Interval := ⟨map.beginIdx, map.endIdx⟩

/-- `hexValues` when it is flat, from the tokens on. -/
def hexTable (idString : Str) (tokens : List Str) (maps : List HexMap) : Option (List Cell) := do
  let cells ← label idString maps 0 ["#FF0000".toList, "#00FF00".toList]
    (tokens.map fun value => [.hex value, .whitespace])
  some (formatLines (surround cells)).flatten

theorem renderFoot_eq (idString hex : Str) (maps : List HexMap) :
    renderFoot idString (some hex) maps =
      (hexTable idString (hexTokens hex) maps).map fun cells =>
        "<li data-role='list-divider'>Hexadecimal</li><li>".toList ++ cellsMarkup cells ++
          "</li>".toList := by
  rw [renderFoot, hexTable, hexValues_eq]
  cases label idString maps 0 ["#FF0000".toList, "#00FF00".toList]
    ((hexTokens hex).map fun value => [.hex value, .whitespace]) with
  | none => rfl
  | some cells => rfl

/-- The token of a cell, or `none` where a new row begins. -/
def Cell.mark : Cell → Option (Option Str)
  | .hex value => some (some value)
  | .newRowInsideLabel _ _ | .newRowOutsideLabel => some none
  | _ => none

/-- The text of the end of a label or of a row in it. -/
def Cell.labelName : Cell → Option Str
  | .endLabel name => some name
  | .newRowInsideLabel name _ => some name
  | _ => none

def elided : Str := "...".toList

/-- A row ends behind the byte. -/
def Breaks (size i : Nat) : Prop := (i + 1) % 16 = 0 ∧ i + 1 < size

instance (size i : Nat) : Decidable (Breaks size i) := inferInstanceAs (Decidable (_ ∧ _))

/-- The tokens, and `none` behind each 16th but the last one. -/
def rowed (tokens : List Str) : List (Option Str) :=
  tokens.zipIdx.flatMap fun (token, i) =>
    some token :: if Breaks tokens.length i then [none] else []

/-- The tokens stand in their order in rows of sixteen, and each name stands at one label. -/
structure Shows (tokens : List Str) (maps : List HexMap) (cells : List Cell) : Prop where
  rows : cells.filterMap Cell.mark = rowed tokens
  names : ∃ n, (cells.filterMap Cell.labelName).Perm
    (maps.map (·.name) ++ List.replicate n elided)

def tabulate (size : Nat) (cells : Nat → List Cell) : List (List Cell) :=
  (List.range size).map cells

@[simp] theorem tabulate_length (size : Nat) (cells : Nat → List Cell) :
    (tabulate size cells).length = size := by
  rw [tabulate, List.length_map, List.length_range]

theorem tabulate_getD {size i : Nat} (h : i < size) (cells : Nat → List Cell) :
    (tabulate size cells).getD i [] = cells i := by
  simp [tabulate, h]

theorem tabulate_modify (size i : Nat) (cells : Nat → List Cell) (f : List Cell → List Cell) :
    (tabulate size cells).modify i f = tabulate size (Function.update cells i (f (cells i))) := by
  refine List.ext_getElem (by simp) fun j hj hj' => ?_
  rw [List.getElem_modify]
  simp only [tabulate, List.getElem_map, List.getElem_range]
  by_cases h : i = j
  · rw [if_pos h, ← h, Function.update_self]
  · rw [if_neg h, Function.update_of_ne (Ne.symm h)]

theorem tabulate_tokens (tokens : List Str) (f : Str → List Cell) :
    tokens.map f = tabulate tokens.length fun i => f (tokens.getD i []) := by
  refine List.ext_getElem (by simp) fun i hi hi' => ?_
  rw [List.length_map] at hi
  simp [tabulate, hi]

/-- The cells of the byte `i` before rows are inserted. -/
def labelled (tokens : List Str) (begins ends : Nat → List Cell) (i : Nat) : List Cell :=
  begins i ++ [.hex (tokens.getD i []), .whitespace] ++ ends i

/-- The labels of a map stand around its bytes, and no others are among them. -/
structure Labels (begins ends : Nat → List Cell) (map : HexMap) : Prop where
  first : ∃ id color, begins map.beginIdx = [.beginLabel id color map.endIdx]
  noBegin : ∀ i, map.beginIdx < i → i ≤ map.endIdx → begins i = []
  noEnd : ∀ i, map.beginIdx ≤ i → i < map.endIdx → ends i = []
  last : ends map.endIdx = [.endLabel map.name]

theorem labelled_begin (tokens : List Str) (begins ends : Nat → List Cell) (i : Nat) (cell : Cell) :
    Function.update (labelled tokens begins ends) i (cell :: labelled tokens begins ends i) =
      labelled tokens (Function.update begins i (cell :: begins i)) ends := by
  funext j
  by_cases h : j = i
  · subst h
    simp [labelled]
  · simp [labelled, h]

theorem labelled_end (tokens : List Str) (begins ends : Nat → List Cell) (i : Nat) (cell : Cell) :
    Function.update (labelled tokens begins ends) i (labelled tokens begins ends i ++ [cell]) =
      labelled tokens begins (Function.update ends i (ends i ++ [cell])) := by
  funext j
  by_cases h : j = i
  · subst h
    simp [labelled]
  · simp [labelled, h]

/-- The loop over the maps labels each of them, and leaves the bytes before them as they were. -/
theorem label_labels {tokens : List Str} {maps : List HexMap} {start : Nat}
    (tiles : Tiles HexMap.interval start maps tokens.length)
    (long : ∀ map ∈ maps, map.beginIdx < map.endIdx) (begins ends : Nat → List Cell)
    (empty : ∀ i, start ≤ i → begins i = [] ∧ ends i = []) (idString : Str) (subCounter : Nat)
    (colors : List Str) :
    ∃ begins' ends', label idString maps subCounter colors
        (tabulate tokens.length (labelled tokens begins ends)) =
          some (tabulate tokens.length (labelled tokens begins' ends')) ∧
      (∀ i < start, begins' i = begins i ∧ ends' i = ends i) ∧
      ∀ map ∈ maps, Labels begins' ends' map := by
  induction maps generalizing start subCounter colors begins ends with
  | nil => exact ⟨begins, ends, rfl, fun _ _ => ⟨rfl, rfl⟩, by simp⟩
  | cons map maps ih =>
    obtain ⟨hfirst, -, hrest⟩ := tiles
    rw [List.forall_mem_cons] at long
    have hlt := long.1
    have hstop : map.endIdx + 1 ≤ tokens.length := hrest.le
    obtain rfl : map.beginIdx = start := hfirst
    obtain ⟨hbegin, -⟩ := empty map.beginIdx (Nat.le_refl _)
    obtain ⟨-, hend⟩ := empty map.endIdx (Nat.le_of_lt hlt)
    have hempty : ∀ first last i, map.endIdx + 1 ≤ i →
        Function.update begins map.beginIdx first i = [] ∧
          Function.update ends map.endIdx last i = [] := by
      intro first last i hi
      rw [Function.update_of_ne (by omega), Function.update_of_ne (by omega)]
      exact empty i (by omega)
    obtain ⟨begins', ends', hlabel, hbefore, hlabels⟩ := ih hrest long.2 _ _
      (hempty [.beginLabel (idString ++ '_' :: decimal subCounter) (colors.headD []) map.endIdx]
        [.endLabel map.name]) (subCounter + 1) (colors.tail ++ [colors.headD []])
    refine ⟨begins', ends', ?_, ?_, List.forall_mem_cons.mpr ⟨?_, hlabels⟩⟩
    · have hsize : map.beginIdx < (tabulate tokens.length (labelled tokens begins ends)).length ∧
          map.endIdx < (tabulate tokens.length (labelled tokens begins ends)).length := by
        rw [tabulate_length]
        omega
      rw [label, if_pos hsize, tabulate_modify, labelled_begin]
      dsimp only
      rw [tabulate_modify, labelled_end, hbegin, hend]
      exact hlabel
    · intro i hi
      obtain ⟨hbegins, hends⟩ := hbefore i (show i < map.endIdx + 1 by omega)
      rw [hbegins, hends, Function.update_of_ne (by omega), Function.update_of_ne (by omega)]
      exact ⟨rfl, rfl⟩
    · have hinside : ∀ i, i ≤ map.endIdx → begins' i = _ ∧ ends' i = _ := fun i hi =>
        hbefore i (Nat.lt_succ_of_le hi)
      refine ⟨⟨idString ++ '_' :: decimal subCounter, colors.headD [], ?_⟩, ?_, ?_, ?_⟩
      · rw [(hinside _ (Nat.le_of_lt hlt)).1, Function.update_self]
      · intro i hi hle
        rw [(hinside i hle).1, Function.update_of_ne (by omega)]
        exact (empty i (by omega)).1
      · intro i hle hi
        rw [(hinside i (by omega)).2, Function.update_of_ne (by omega)]
        exact (empty i hle).2
      · rw [(hinside _ (Nat.le_refl _)).2, Function.update_self]

/-- The text at the end of the label of a map, when the bytes before `i` are through. -/
def named (map : HexMap) (i : Nat) : Str :=
  if 0 < map.beginIdx ∧ map.beginIdx / 16 < min i map.endIdx / 16 then elided else map.name

/-- The color of a label that begins with the cells. -/
def labelColor : List Cell → Str
  | .beginLabel _ color _ :: _ => color
  | _ => []

section Rows

variable (tokens : List Str) (begins : Nat → List Cell)

/-- What is inserted behind the byte `i`, which is one of the map. -/
def newRow (map : HexMap) (i : Nat) : List Cell :=
  if Breaks tokens.length i then
    if i = map.endIdx then [.newRowOutsideLabel]
    else if 0 < map.beginIdx then
      [.newRowInsideLabel (named map i) (labelColor (begins map.beginIdx))]
    else []
  else []

/-- The cells of the byte `i`, which is one of the map, when the bytes before `k` are through. -/
def stage (k : Nat) (map : HexMap) (i : Nat) : List Cell :=
  (if i = 0 then [.beginTable] else []) ++ begins i ++
    [.hex (tokens.getD i []), .whitespace] ++
    (if i = map.endIdx then [.endLabel (named map k)] else []) ++
    (if i = tokens.length - 1 then [.endTable] else []) ++
    (if i < k then newRow tokens begins map i else [])

def Staged (maps : List HexMap) (k : Nat) (cells : Nat → List Cell) : Prop :=
  ∀ map ∈ maps, ∀ i, map.interval.Contains i → cells i = stage tokens begins k map i

end Rows

theorem named_zero (map : HexMap) : named map 0 = map.name := by
  rw [named, if_neg]
  rw [Nat.zero_min, Nat.zero_div]
  omega

/-- The text changes at the first row that ends inside of the map. -/
theorem named_succ {map : HexMap} {k : Nat}
    (h : ¬((k + 1) % 16 = 0 ∧ 0 < map.beginIdx ∧ map.beginIdx ≤ k ∧ k < map.endIdx)) :
    named map (k + 1) = named map k := by
  have hiff : (0 < map.beginIdx ∧ map.beginIdx / 16 < min (k + 1) map.endIdx / 16) ↔
      0 < map.beginIdx ∧ map.beginIdx / 16 < min k map.endIdx / 16 := by
    omega
  rw [named, named, if_congr hiff rfl rfl]

theorem named_of_break {map : HexMap} {k : Nat} (hbreak : (k + 1) % 16 = 0)
    (hbegin : 0 < map.beginIdx) (hle : map.beginIdx ≤ k) (hlt : k < map.endIdx) :
    named map (k + 1) = elided := by
  rw [named, if_pos]
  omega

/-- The search goes on while a byte has no label. -/
theorem insertFrom_skip {cells : List (List Cell)} {idx low high : Nat} (hle : low ≤ high)
    (h : ∀ j, low < j → j ≤ high → (cells.getD j []).find? Cell.isLabel = none) :
    insertFrom cells idx high = insertFrom cells idx low := by
  induction high with
  | zero =>
    obtain rfl : low = 0 := by omega
    rfl
  | succ high ih =>
    by_cases heq : low = high + 1
    · rw [heq]
    · rw [insertFrom, h (high + 1) (by omega) (Nat.le_refl _)]
      exact ih (by omega) fun j hlow hhigh => h j hlow (by omega)

section Rows

variable {tokens : List Str} {begins ends : Nat → List Cell} {map : HexMap}

theorem newRow_find (i : Nat) : (newRow tokens begins map i).find? Cell.isLabel = none := by
  unfold newRow
  split_ifs
  all_goals rfl

theorem stage_find (k i : Nat) : (stage tokens begins k map i).find? Cell.isLabel =
    ((begins i).find? Cell.isLabel).or
      (if i = map.endIdx then some (.endLabel (named map k)) else none) := by
  have htable : (if i = 0 then [Cell.beginTable] else []).find? Cell.isLabel = none := by
    split_ifs
    all_goals rfl
  have hlabel : (if i = map.endIdx then [Cell.endLabel (named map k)] else []).find? Cell.isLabel =
      if i = map.endIdx then some (.endLabel (named map k)) else none := by
    split_ifs
    all_goals rfl
  have hend : (if i = tokens.length - 1 then [Cell.endTable] else []).find? Cell.isLabel =
      none := by
    split_ifs
    all_goals rfl
  have hrow : (if i < k then newRow tokens begins map i else []).find? Cell.isLabel = none := by
    split_ifs
    · exact newRow_find i
    · rfl
  have hbyte : [Cell.hex (tokens.getD i []), .whitespace].find? Cell.isLabel = none := rfl
  rw [stage]
  simp only [List.find?_append, htable, hlabel, hend, hrow, hbyte, Option.none_or, Option.or_none]

/-- Behind the byte `k` its row is inserted. -/
theorem stage_self (k : Nat) :
    stage tokens begins (k + 1) map k =
      stage tokens begins k map k ++ newRow tokens begins map k := by
  have hnamed : k = map.endIdx → named map (k + 1) = named map k := fun h =>
    named_succ (by omega)
  rw [stage, stage, if_pos (Nat.lt_succ_self k), if_neg (Nat.lt_irrefl k), List.append_nil]
  by_cases h : k = map.endIdx
  · rw [if_pos h, if_pos h, hnamed h]
  · rw [if_neg h, if_neg h]

theorem stage_succ {k i : Nat} (hne : i ≠ k)
    (hnamed : i = map.endIdx → named map (k + 1) = named map k) :
    stage tokens begins (k + 1) map i = stage tokens begins k map i := by
  have hiff : i < k + 1 ↔ i < k := by omega
  rw [stage, stage, if_congr hiff rfl rfl]
  by_cases h : i = map.endIdx
  · rw [if_pos h, if_pos h, hnamed h]
  · rw [if_neg h, if_neg h]

theorem lastName_stage (labels : Labels begins ends map) (hlt : map.beginIdx < map.endIdx)
    {k : Nat} (hk : k < map.endIdx) :
    lastName (stage tokens begins k map map.endIdx) = named map k := by
  rw [stage, labels.noBegin _ hlt (Nat.le_refl _), if_pos rfl,
    if_neg (show ¬map.endIdx < k by omega)]
  split_ifs
  all_goals rfl

theorem elide_stage (labels : Labels begins ends map) (hbegin : 0 < map.beginIdx) {k : Nat}
    (hle : map.beginIdx ≤ k) (hk : k < map.endIdx) (hbreak : (k + 1) % 16 = 0) :
    (stage tokens begins k map map.endIdx).map Cell.elide =
      stage tokens begins (k + 1) map map.endIdx := by
  rw [stage, stage, labels.noBegin _ (by omega) (Nat.le_refl _), if_pos rfl, if_pos rfl,
    if_neg (show ¬map.endIdx < k by omega), if_neg (show ¬map.endIdx < k + 1 by omega),
    named_of_break hbreak hbegin hle hk]
  split_ifs
  all_goals rfl

variable {maps : List HexMap} {cells : Nat → List Cell} {k : Nat}

/-- A step behind the byte `k` of a map inserts its row, and leaves all but the end of the map as it
was. -/
theorem staged_succ (tiles : Tiles HexMap.interval 0 maps tokens.length)
    (staged : Staged tokens begins maps k cells) (hmap : map ∈ maps)
    (hk : map.interval.Contains k) {cells' : Nat → List Cell}
    (hself : cells' k = cells k ++ newRow tokens begins map k)
    (hend : k < map.endIdx → cells' map.endIdx = stage tokens begins (k + 1) map map.endIdx)
    (hother : ∀ i, i ≠ k → i ≠ map.endIdx → cells' i = cells i) :
    Staged tokens begins maps (k + 1) cells' := by
  have hlast : k ≤ map.endIdx := hk.2
  have hmapend : map.interval.Contains map.endIdx := ⟨Nat.le_trans hk.1 hk.2, Nat.le_refl _⟩
  intro m hm i hi
  by_cases hik : i = k
  · subst hik
    obtain rfl := tiles.unique hm hmap hi hk
    rw [hself, staged m hm i hi, stage_self]
  by_cases hie : i = map.endIdx
  · subst hie
    obtain rfl := tiles.unique hm hmap hi hmapend
    exact hend (by omega)
  · rw [hother i hik hie, staged m hm i hi, stage_succ hik]
    intro him
    refine named_succ fun hbreak => hie ?_
    obtain rfl := tiles.unique hm hmap ⟨hbreak.2.2.1, Nat.le_of_lt hbreak.2.2.2⟩ hk
    exact him

/-- Where no row ends, nothing changes. -/
theorem staged_skip (tiles : Tiles HexMap.interval 0 maps tokens.length)
    (staged : Staged tokens begins maps k cells) (hmap : map ∈ maps)
    (hk : map.interval.Contains k) (hrow : newRow tokens begins map k = [])
    (hnamed : k < map.endIdx → named map (k + 1) = named map k) :
    Staged tokens begins maps (k + 1) cells := by
  refine staged_succ tiles staged hmap hk (by rw [hrow, List.append_nil]) ?_ fun _ _ _ => rfl
  intro hlt
  have hend : map.interval.Contains map.endIdx := ⟨Nat.le_trans hk.1 hk.2, Nat.le_refl _⟩
  rw [staged map hmap _ hend, stage_succ (by omega)]
  exact fun _ => hnamed hlt

theorem insertFrom_staged (tiles : Tiles HexMap.interval 0 maps tokens.length)
    (labels : ∀ map ∈ maps, Labels begins ends map)
    (long : ∀ map ∈ maps, map.beginIdx < map.endIdx)
    (staged : Staged tokens begins maps k cells) (hbreak : Breaks tokens.length k) :
    ∃ cells', insertFrom (tabulate tokens.length cells) k k = tabulate tokens.length cells' ∧
      Staged tokens begins maps (k + 1) cells' := by
  have hsize : k < tokens.length := by have := hbreak.2; omega
  obtain ⟨map, hmap, hk⟩ := tiles.exists_contains (Nat.zero_le k) hsize
  have hfirst : map.beginIdx ≤ k := hk.1
  have hlast : k ≤ map.endIdx := hk.2
  have hlt := long map hmap
  have hendsize : map.endIdx < tokens.length := (tiles.bounds hmap).2
  have hlabels := labels map hmap
  have hmapend : map.interval.Contains map.endIdx := ⟨Nat.le_of_lt hlt, Nat.le_refl _⟩
  -- what the search finds at a byte of the map
  have hfind : ∀ j, map.beginIdx ≤ j → j ≤ map.endIdx →
      ((tabulate tokens.length cells).getD j []).find? Cell.isLabel =
        ((begins j).find? Cell.isLabel).or
          (if j = map.endIdx then some (.endLabel (named map k)) else none) := by
    intro j hlow hhigh
    rw [tabulate_getD (by omega), staged map hmap j ⟨hlow, hhigh⟩, stage_find]
  by_cases hend : k = map.endIdx
  · obtain ⟨j, rfl⟩ : ∃ j, k = j + 1 := ⟨k - 1, by omega⟩
    refine ⟨Function.update cells (j + 1) (cells (j + 1) ++ [.newRowOutsideLabel]), ?_, ?_⟩
    · rw [insertFrom, hfind _ hfirst hlast, hlabels.noBegin _ (by omega) hlast, if_pos hend]
      exact tabulate_modify _ (j + 1) cells (· ++ [.newRowOutsideLabel])
    · refine staged_succ tiles staged hmap hk ?_ (fun h => absurd hend (Nat.ne_of_lt h)) ?_
      · rw [Function.update_self, newRow, if_pos hbreak, if_pos hend]
      · exact fun i hi _ => Function.update_of_ne hi _ _
  have hskip : ∀ j, map.beginIdx < j → j ≤ k →
      ((tabulate tokens.length cells).getD j []).find? Cell.isLabel = none := by
    intro j hlow hhigh
    rw [hfind j (Nat.le_of_lt hlow) (by omega), hlabels.noBegin j hlow (by omega),
      if_neg (by omega)]
    rfl
  rw [insertFrom_skip hfirst hskip]
  by_cases hzero : map.beginIdx = 0
  · rw [hzero]
    refine ⟨cells, rfl, staged_skip tiles staged hmap hk ?_ fun _ => named_succ (by omega)⟩
    rw [newRow, if_pos hbreak, if_neg hend, if_neg (by omega)]
  · obtain ⟨id, color, hcolor⟩ := hlabels.first
    obtain ⟨b, hb⟩ : ∃ b, map.beginIdx = b + 1 := ⟨map.beginIdx - 1, by omega⟩
    have hlabel := hfind _ (Nat.le_refl _) (Nat.le_of_lt hlt)
    rw [hcolor] at hlabel
    refine ⟨Function.update (Function.update cells map.endIdx ((cells map.endIdx).map Cell.elide)) k
      (cells k ++ [.newRowInsideLabel (named map k) color]), ?_, ?_⟩
    · have hname : lastName ((tabulate tokens.length cells).getD map.endIdx []) = named map k := by
        rw [tabulate_getD hendsize, staged map hmap _ hmapend,
          lastName_stage hlabels hlt (by omega)]
      rw [hb] at hlabel ⊢
      rw [insertFrom, hlabel]
      show ((tabulate tokens.length cells).modify map.endIdx (·.map Cell.elide)).modify k
        (· ++ [.newRowInsideLabel (lastName ((tabulate tokens.length cells).getD map.endIdx []))
          color]) = _
      rw [hname, tabulate_modify, tabulate_modify, Function.update_of_ne hend]
    · refine staged_succ tiles staged hmap hk ?_ ?_ ?_
      · rw [Function.update_self, newRow, if_pos hbreak, if_neg hend, if_pos (by omega), hcolor]
        rfl
      · intro hk
        rw [Function.update_of_ne (by omega), Function.update_self, staged map hmap _ hmapend]
        exact elide_stage hlabels (by omega) hfirst hk hbreak.1
      · exact fun i hi hie => by rw [Function.update_of_ne hi, Function.update_of_ne hie]

/-- The loop of `formatLines` inserts the rows of all bytes. -/
theorem formatLines_staged (tiles : Tiles HexMap.interval 0 maps tokens.length)
    (labels : ∀ map ∈ maps, Labels begins ends map)
    (long : ∀ map ∈ maps, map.beginIdx < map.endIdx)
    (staged : Staged tokens begins maps 0 cells) :
    ∃ cells', formatLines (tabulate tokens.length cells) = tabulate tokens.length cells' ∧
      Staged tokens begins maps tokens.length cells' := by
  have hrun : ∀ k ≤ tokens.length, ∃ cells', (List.range k).foldl (fun cells i =>
      if 0 < i ∧ i < cells.length - 1 ∧ (i + 1) % 16 = 0 then insertFrom cells i i else cells)
      (tabulate tokens.length cells) = tabulate tokens.length cells' ∧
        Staged tokens begins maps k cells' := by
    intro k
    induction k with
    | zero => exact fun _ => ⟨cells, rfl, staged⟩
    | succ k ih =>
      intro hk
      obtain ⟨cells', hcells, hstaged⟩ := ih (by omega)
      have hbreaks : (0 < k ∧ k < tokens.length - 1 ∧ (k + 1) % 16 = 0) ↔
          Breaks tokens.length k := by
        rw [Breaks]
        omega
      rw [List.range_succ, List.foldl_append, hcells, List.foldl_cons, List.foldl_nil,
        tabulate_length, if_congr hbreaks rfl rfl]
      by_cases hbreak : Breaks tokens.length k
      · rw [if_pos hbreak]
        exact insertFrom_staged tiles labels long hstaged hbreak
      · rw [if_neg hbreak]
        obtain ⟨map, hmap, hcontains⟩ := tiles.exists_contains (Nat.zero_le k) hk
        have hendsize : map.endIdx < tokens.length := (tiles.bounds hmap).2
        refine ⟨cells', rfl, staged_skip tiles hstaged hmap hcontains ?_ fun hlt => ?_⟩
        · rw [newRow, if_neg hbreak]
        · exact named_succ fun h => hbreak ⟨h.1, by omega⟩
  obtain ⟨cells', hcells, hstaged⟩ := hrun tokens.length (Nat.le_refl _)
  refine ⟨cells', ?_, hstaged⟩
  rw [formatLines, tabulate_length]
  exact hcells

/-- Before rows are inserted, all names stand at the ends of their labels. -/
theorem surround_staged (tokens : List Str) (labels : ∀ map ∈ maps, Labels begins ends map) :
    ∃ cells, surround (tabulate tokens.length (labelled tokens begins ends)) =
        tabulate tokens.length cells ∧ Staged tokens begins maps 0 cells := by
  refine ⟨_, by rw [surround, tabulate_length, tabulate_modify, tabulate_modify], ?_⟩
  intro map hmap i hi
  have hends : ends i = if i = map.endIdx then [.endLabel (named map 0)] else [] := by
    by_cases hend : i = map.endIdx
    · rw [if_pos hend, hend, named_zero]
      exact (labels map hmap).last
    · rw [if_neg hend]
      exact (labels map hmap).noEnd i hi.1 (Nat.lt_of_le_of_ne hi.2 hend)
  have hfirst : Function.update (labelled tokens begins ends) 0
      (.beginTable :: labelled tokens begins ends 0) i =
        (if i = 0 then [.beginTable] else []) ++ labelled tokens begins ends i := by
    by_cases hzero : i = 0
    · rw [hzero, Function.update_self, if_pos rfl, List.singleton_append]
    · rw [Function.update_of_ne hzero, if_neg hzero, List.nil_append]
  rw [stage, if_neg (Nat.not_lt_zero i), List.append_nil, ← hends]
  by_cases hlast : i = tokens.length - 1
  · subst hlast
    rw [Function.update_self, hfirst, if_pos rfl, labelled]
    simp only [List.append_assoc]
  · rw [Function.update_of_ne hlast, hfirst, if_neg hlast, List.append_nil, labelled]
    simp only [List.append_assoc]

/-- The cells of the table. -/
theorem hexTable_staged (idString : Str) (tiles : Tiles HexMap.interval 0 maps tokens.length)
    (long : ∀ map ∈ maps, map.beginIdx < map.endIdx) :
    ∃ begins ends cells, hexTable idString tokens maps =
        some ((List.range tokens.length).flatMap cells) ∧
      (∀ map ∈ maps, Labels begins ends map) ∧
      Staged tokens begins maps tokens.length cells := by
  obtain ⟨begins, ends, hlabel, -, hlabels⟩ := label_labels tiles long (fun _ => [])
    (fun _ => []) (fun _ _ => ⟨rfl, rfl⟩) idString 0 ["#FF0000".toList, "#00FF00".toList]
  obtain ⟨surrounded, hsurround, hstaged⟩ := surround_staged tokens hlabels
  obtain ⟨cells, hformat, hstaged⟩ := formatLines_staged tiles hlabels long hstaged
  refine ⟨begins, ends, cells, ?_, hlabels, hstaged⟩
  have htokens : (tokens.map fun value => [Cell.hex value, .whitespace]) =
      tabulate tokens.length (labelled tokens (fun _ => []) fun _ => []) := tabulate_tokens _ _
  rw [hexTable, htokens, hlabel]
  show some (formatLines (surround _)).flatten = _
  rw [hsurround, hformat, tabulate, List.flatMap_def]

theorem begins_filterMap {A : Type} (f : Cell → Option A)
    (hf : ∀ id color endIdx, f (.beginLabel id color endIdx) = none)
    (labels : Labels begins ends map) {i : Nat} (hi : map.interval.Contains i) :
    (begins i).filterMap f = [] := by
  by_cases hfirst : i = map.beginIdx
  · obtain ⟨id, color, hbegin⟩ := labels.first
    rw [hfirst, hbegin, List.filterMap_cons_none (hf _ _ _), List.filterMap_nil]
  · rw [labels.noBegin i (Nat.lt_of_le_of_ne hi.1 (Ne.symm hfirst)) hi.2, List.filterMap_nil]

theorem filterMap_optional {A : Type} {f : Cell → Option A} {cell : Cell} (hf : f cell = none)
    (p : Prop) [Decidable p] : (if p then [cell] else []).filterMap f = [] := by
  split_ifs
  · exact List.filterMap_cons_none hf
  · rfl

theorem newRow_mark (i : Nat) : (newRow tokens begins map i).filterMap Cell.mark =
    if Breaks tokens.length i ∧ (i = map.endIdx ∨ 0 < map.beginIdx) then [none] else [] := by
  rw [newRow]
  by_cases hbreak : Breaks tokens.length i
  · by_cases hend : i = map.endIdx
    · rw [if_pos hbreak, if_pos hend, if_pos ⟨hbreak, .inl hend⟩]
      rfl
    · rw [if_pos hbreak, if_neg hend]
      by_cases hbegin : 0 < map.beginIdx
      · rw [if_pos hbegin, if_pos ⟨hbreak, .inr hbegin⟩]
        rfl
      · rw [if_neg hbegin, if_neg (by tauto)]
        rfl
  · rw [if_neg hbreak, if_neg (by tauto)]
    rfl

theorem newRow_labelName (i : Nat) : (newRow tokens begins map i).filterMap Cell.labelName =
    if Breaks tokens.length i ∧ i ≠ map.endIdx ∧ 0 < map.beginIdx then [named map i] else [] := by
  rw [newRow]
  by_cases hbreak : Breaks tokens.length i
  · by_cases hend : i = map.endIdx
    · rw [if_pos hbreak, if_pos hend, if_neg (by tauto)]
      rfl
    · rw [if_pos hbreak, if_neg hend]
      by_cases hbegin : 0 < map.beginIdx
      · rw [if_pos hbegin, if_pos ⟨hbreak, hend, hbegin⟩]
        rfl
      · rw [if_neg hbegin, if_neg (by tauto)]
        rfl
  · rw [if_neg hbreak, if_neg (by tauto)]
    rfl

/-- A row ends behind a byte that is the last of its map, or whose map does not begin at 0. -/
theorem stage_mark (labels : Labels begins ends map) {i : Nat} (hi : map.interval.Contains i)
    (hsize : i < tokens.length) :
    (stage tokens begins tokens.length map i).filterMap Cell.mark =
      some (tokens.getD i []) ::
        if Breaks tokens.length i ∧ (i = map.endIdx ∨ 0 < map.beginIdx) then [none] else [] := by
  rw [stage, if_pos hsize]
  simp only [List.filterMap_append]
  rw [filterMap_optional rfl, begins_filterMap _ (fun _ _ _ => rfl) labels hi,
    filterMap_optional rfl, filterMap_optional rfl, newRow_mark]
  rfl

theorem stage_labelName (labels : Labels begins ends map) {i : Nat}
    (hi : map.interval.Contains i) (hsize : i < tokens.length) :
    (stage tokens begins tokens.length map i).filterMap Cell.labelName =
      (if i = map.endIdx then [named map tokens.length] else []) ++
        if Breaks tokens.length i ∧ i ≠ map.endIdx ∧ 0 < map.beginIdx then [named map i]
        else [] := by
  have hlabel : (if i = map.endIdx then [Cell.endLabel (named map tokens.length)] else []).filterMap
      Cell.labelName = if i = map.endIdx then [named map tokens.length] else [] := by
    split_ifs
    all_goals rfl
  rw [stage, if_pos hsize]
  simp only [List.filterMap_append, hlabel]
  rw [filterMap_optional rfl, begins_filterMap _ (fun _ _ _ => rfl) labels hi,
    filterMap_optional rfl, newRow_labelName]
  simp only [List.append_nil]
  rfl

/-- The texts at the labels of a map. -/
def texts (size : Nat) (map : HexMap) (i : Nat) : List Str :=
  (if i = map.endIdx then [named map size] else []) ++
    if Breaks size i ∧ i ≠ map.endIdx ∧ 0 < map.beginIdx then [named map i] else []

/-- The rows that end inside of a map before the byte `k` take its name, and leave `elided`. -/
theorem rows_named {size : Nat} {map : HexMap} (hsize : map.endIdx < size)
    (hbegin : 0 < map.beginIdx) {n : Nat} (hn : map.beginIdx + n ≤ map.endIdx) :
    (List.range' map.beginIdx n).flatMap (texts size map) ++ [named map (map.beginIdx + n)] =
      map.name ::
        List.replicate ((map.beginIdx + n) / 16 - map.beginIdx / 16) elided := by
  induction n with
  | zero =>
    rw [Nat.add_zero, Nat.sub_self, named, if_neg (by omega)]
    rfl
  | succ n ih =>
    have hprevious := ih (by omega)
    have htext : texts size map (map.beginIdx + n) =
        if (map.beginIdx + n + 1) % 16 = 0 then [named map (map.beginIdx + n)] else [] := by
      have hiff : (Breaks size (map.beginIdx + n) ∧ map.beginIdx + n ≠ map.endIdx ∧
          0 < map.beginIdx) ↔ (map.beginIdx + n + 1) % 16 = 0 := by
        rw [Breaks]
        omega
      rw [texts, if_neg (by omega), List.nil_append, if_congr hiff rfl rfl]
    rw [List.range'_1_concat, List.flatMap_append, List.flatMap_singleton, htext, ← Nat.add_assoc]
    by_cases hbreak : (map.beginIdx + n + 1) % 16 = 0
    · have hcount : (map.beginIdx + n + 1) / 16 - map.beginIdx / 16 =
          (map.beginIdx + n) / 16 - map.beginIdx / 16 + 1 := by omega
      rw [if_pos hbreak, hprevious, named_of_break hbreak hbegin (by omega) (by omega), hcount,
        List.replicate_succ', List.cons_append]
    · have hcount : (map.beginIdx + n + 1) / 16 = (map.beginIdx + n) / 16 := by omega
      rw [if_neg hbreak, List.append_nil, hcount, named_succ (fun h => hbreak h.1), hprevious]

/-- All texts of a map are its name, once, and then `elided`. -/
theorem texts_map {size : Nat} {map : HexMap} (hsize : map.endIdx < size)
    (hlt : map.beginIdx < map.endIdx) :
    ∃ n, map.interval.positions.flatMap (texts size map) = map.name :: List.replicate n elided := by
  have hpositions : map.interval.positions =
      List.range' map.beginIdx (map.endIdx - map.beginIdx) ++ [map.endIdx] := by
    have hcount : map.endIdx + 1 - map.beginIdx = map.endIdx - map.beginIdx + 1 := by omega
    show List.range' map.beginIdx (map.endIdx + 1 - map.beginIdx) = _
    rw [hcount, List.range'_1_concat, Nat.add_sub_cancel' (Nat.le_of_lt hlt)]
  have hend : texts size map map.endIdx = [named map map.endIdx] := by
    rw [texts, if_pos rfl, if_neg (by tauto), List.append_nil, named, named,
      Nat.min_eq_right (Nat.le_of_lt hsize), Nat.min_self]
  rw [hpositions, List.flatMap_append, List.flatMap_singleton, hend]
  by_cases hbegin : 0 < map.beginIdx
  · have hrows := rows_named hsize hbegin (n := map.endIdx - map.beginIdx) (by omega)
    rw [Nat.add_sub_cancel' (Nat.le_of_lt hlt)] at hrows
    exact ⟨_, hrows⟩
  · refine ⟨0, ?_⟩
    have hnone : ∀ i ∈ List.range' map.beginIdx (map.endIdx - map.beginIdx),
        texts size map i = [] := by
      intro i hi
      rw [List.mem_range'_1] at hi
      rw [texts, if_neg (by omega), if_neg (fun h => hbegin h.2.2), List.nil_append]
    rw [List.flatMap_eq_nil_iff.mpr hnone, named, if_neg (fun h => hbegin h.1)]
    rfl

theorem texts_perm {size : Nat} {maps : List HexMap} (h : ∀ map ∈ maps, ∃ n,
      map.interval.positions.flatMap (texts size map) = map.name :: List.replicate n elided) :
    ∃ n, (maps.flatMap fun map => map.interval.positions.flatMap (texts size map)).Perm
      (maps.map (·.name) ++ List.replicate n elided) := by
  induction maps with
  | nil => exact ⟨0, .nil⟩
  | cons map maps ih =>
    rw [List.forall_mem_cons] at h
    obtain ⟨n, hmap⟩ := h.1
    obtain ⟨n', hmaps⟩ := ih h.2
    refine ⟨n + n', ?_⟩
    rw [List.flatMap_cons, hmap, List.map_cons, List.cons_append, List.cons_append,
      List.replicate_add]
    refine .cons _ ((hmaps.append_left _).trans ?_)
    rw [← List.append_assoc, ← List.append_assoc]
    exact List.perm_append_comm.append_right _

theorem rowed_eq (tokens : List Str) : rowed tokens =
    (List.range tokens.length).flatMap fun i =>
      some (tokens.getD i []) :: if Breaks tokens.length i then [none] else [] := by
  have hzip : tokens.zipIdx = (List.range tokens.length).map fun i => (tokens.getD i [], i) := by
    refine List.ext_getElem (by simp) fun i hi hi' => ?_
    rw [List.length_zipIdx] at hi
    simp [hi]
  rw [rowed, hzip, List.flatMap_map]

/-- The rows behind the byte `i` in the table of the page. -/
theorem cells_mark (tiles : Tiles HexMap.interval 0 maps tokens.length)
    (labels : ∀ map ∈ maps, Labels begins ends map)
    (staged : Staged tokens begins maps tokens.length cells) {i : Nat} (hi : i < tokens.length) :
    ∃ map ∈ maps, map.interval.Contains i ∧ (cells i).filterMap Cell.mark =
      some (tokens.getD i []) ::
        if Breaks tokens.length i ∧ (i = map.endIdx ∨ 0 < map.beginIdx) then [none] else [] := by
  obtain ⟨map, hmap, hcontains⟩ := tiles.exists_contains (Nat.zero_le i) hi
  refine ⟨map, hmap, hcontains, ?_⟩
  rw [staged map hmap i hcontains, stage_mark (labels map hmap) hcontains hi]

/-- The texts of the labels, map by map. -/
theorem cells_labelName (tiles : Tiles HexMap.interval 0 maps tokens.length)
    (labels : ∀ map ∈ maps, Labels begins ends map)
    (staged : Staged tokens begins maps tokens.length cells) :
    ((List.range tokens.length).flatMap cells).filterMap Cell.labelName =
      maps.flatMap fun map => map.interval.positions.flatMap (texts tokens.length map) := by
  have hpositions := tiles.positions_eq
  rw [Nat.sub_zero, ← List.range_eq_range'] at hpositions
  rw [List.filterMap_flatMap, ← hpositions, List.flatMap_assoc]
  refine List.flatMap_congr fun map hmap => List.flatMap_congr fun i hi => ?_
  have hcontains : map.interval.Contains i := by
    rw [Interval.positions, List.mem_range'_1] at hi
    exact ⟨hi.1, by omega⟩
  have hsize : i < tokens.length := Nat.lt_of_le_of_lt hcontains.2 (tiles.bounds hmap).2
  rw [staged map hmap i hcontains, stage_labelName (labels map hmap) hcontains hsize, texts]

theorem rowed_length_lt {map : HexMap} (tiles : Tiles HexMap.interval 0 maps tokens.length)
    (labels : ∀ map ∈ maps, Labels begins ends map)
    (staged : Staged tokens begins maps tokens.length cells) (hmap : map ∈ maps)
    (hbegin : map.beginIdx = 0) (hend : 16 ≤ map.endIdx) :
    (((List.range tokens.length).flatMap cells).filterMap Cell.mark).length <
      (rowed tokens).length := by
  have hsize : map.endIdx < tokens.length := (tiles.bounds hmap).2
  rw [List.filterMap_flatMap, rowed_eq, List.length_flatMap, List.length_flatMap]
  refine List.sum_lt_sum _ _ ?_ ⟨15, List.mem_range.mpr (by omega), ?_⟩
  · intro i hi
    obtain ⟨m, -, -, hmark⟩ := cells_mark tiles labels staged (List.mem_range.mp hi)
    rw [hmark]
    by_cases hbreak : Breaks tokens.length i
    · rw [if_pos hbreak]
      split_ifs
      all_goals simp
    · rw [if_neg hbreak, if_neg (fun h => hbreak h.1)]
  · obtain ⟨m, hm, hcontains, hmark⟩ := cells_mark tiles labels staged (i := 15) (by omega)
    have hfirst : map.beginIdx ≤ 15 := by omega
    have hlast : 15 ≤ map.endIdx := by omega
    obtain rfl := tiles.unique hmap hm ⟨hfirst, hlast⟩ hcontains
    rw [hmark, if_neg (by omega), if_pos ⟨rfl, by omega⟩]
    simp

end Rows

/-- The table shows each token once, each row of sixteen and each name once, if and only if the
first map has at most sixteen bytes. -/
theorem shows_iff (idString : Str) {tokens : List Str} {maps : List HexMap}
    (tiles : Tiles HexMap.interval 0 maps tokens.length)
    (long : ∀ map ∈ maps, map.beginIdx < map.endIdx) :
    (∃ cells, hexTable idString tokens maps = some cells ∧ Shows tokens maps cells) ↔
      ∀ map ∈ maps.head?, map.endIdx < 16 := by
  obtain ⟨begins, ends, cells, htable, labels, staged⟩ := hexTable_staged idString tiles long
  constructor
  · rintro ⟨flat, hflat, hshows⟩ map hhead
    rw [htable, Option.some_inj] at hflat
    subst hflat
    by_contra hend
    have hmap := List.mem_of_mem_head? hhead
    have hbegin : map.beginIdx = 0 := by
      cases maps with
      | nil => cases hhead
      | cons head maps =>
        cases hhead
        exact tiles.1
    exact absurd (congrArg List.length hshows.rows)
      (Nat.ne_of_lt (rowed_length_lt tiles labels staged hmap hbegin (by omega)))
  · intro hfirst
    refine ⟨_, htable, ?_, ?_⟩
    · rw [List.filterMap_flatMap, rowed_eq]
      refine List.flatMap_congr fun i hi => ?_
      obtain ⟨map, hmap, hcontains, hmark⟩ := cells_mark tiles labels staged (List.mem_range.mp hi)
      have hrow : Breaks tokens.length i → i = map.endIdx ∨ 0 < map.beginIdx := by
        intro hbreak
        have hmod := hbreak.1
        have hle : i ≤ map.endIdx := hcontains.2
        by_contra hneither
        have hhead : map.endIdx < 16 := by
          cases maps with
          | nil => cases hmap
          | cons head maps =>
            have hzero : head.beginIdx = 0 := tiles.1
            have hlt := long head List.mem_cons_self
            have hcontains : head.interval.Contains 0 := ⟨Nat.le_of_eq hzero, Nat.zero_le _⟩
            have hmapzero : map.beginIdx ≤ 0 := by omega
            have hcontains' : map.interval.Contains 0 := ⟨hmapzero, Nat.zero_le _⟩
            obtain rfl := tiles.unique List.mem_cons_self hmap hcontains hcontains'
            exact hfirst head rfl
        omega
      rw [hmark, if_congr (and_iff_left_of_imp hrow) rfl rfl]
    · rw [cells_labelName tiles labels staged]
      exact texts_perm fun map hmap => texts_map (tiles.bounds hmap).2 (long map hmap)

def zeros (n : Nat) : List Str := List.replicate n ['0', '0']

def wholeMap (n : Nat) : HexMap := ⟨['x'], 0, n - 1⟩

/-- The fields of a header, and one of thirty bytes behind them. -/
def rowMaps : List HexMap :=
  [⟨['b'], 0, 3⟩, ⟨['o'], 4, 7⟩, ⟨['s'], 8, 11⟩, ⟨['e'], 12, 15⟩, ⟨['x'], 16, 45⟩]

/-- Five fields over three rows. -/
theorem rowMaps_shows : ∃ cells, hexTable [] (zeros 46) rowMaps = some cells ∧
    Shows (zeros 46) rowMaps cells := by
  have tiles : Tiles HexMap.interval 0 rowMaps (zeros 46).length :=
    ⟨rfl, by decide, rfl, by decide, rfl, by decide, rfl, by decide, rfl, by decide, rfl⟩
  exact (shows_iff [] tiles (by decide)).mpr (by decide)

/-- A field of twenty bytes at the beginning stands in one row. -/
theorem wholeMap_oneRow :
    (hexTable [] (zeros 20) [wholeMap 20]).map (·.filterMap Cell.mark) =
        some (List.replicate 20 (some ['0', '0'])) ∧
      ¬∃ cells, hexTable [] (zeros 20) [wholeMap 20] = some cells ∧
        Shows (zeros 20) [wholeMap 20] cells := by
  have hmarks : (hexTable [] (zeros 20) [wholeMap 20]).map (·.filterMap Cell.mark) =
      some (List.replicate 20 (some ['0', '0'])) := by decide +kernel
  refine ⟨hmarks, ?_⟩
  rintro ⟨cells, hcells, hshows⟩
  rw [hcells, Option.map_some, Option.some_inj, hshows.rows] at hmarks
  exact absurd hmarks (by decide +kernel)

end Starfall.Components
