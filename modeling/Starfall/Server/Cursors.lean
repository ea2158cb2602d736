import Mathlib.Order.Interval.Finset.Nat
import Starfall.Server.Console

/-! The cursors of `LoginHTTPRequest::Console`, when rows are added between the three statements of
a request: the two that select the maximum, and the one that selects the rows.  `TryConsole` does
not trust its offset, but `Console` trusts the `upper` of the request, and neither is prepared for
rows that are added in between. -/

namespace Starfall.Console

/-- The number of rows at each statement of a request.  The ids fit the `Poco::UInt32` of a
`FormattedConsoleStruct`. -/
structure Tables where
  first : Nat
  second : Nat
  third : Nat
  nonempty : 1 ≤ first
  first_le : first ≤ second
  second_le : second ≤ third
  fits : third < 2 ^ 32

/-- `TryConsole`, when the maximum is selected from `second` rows and the rows from `third`. -/
def tryConsoleAt (second third : Nat) (nRows offset : UInt32) : Except Fault (Option Page) :=
  let maxID := maxConsoleID second
  if maxID = 0 then
    pure none
  else
    let difference := maxID.toInt32.toInt - offset.toInt32.toInt
    if difference < -2 ^ 31 ∨ 2 ^ 31 ≤ difference then
      throw .intOverflow
    else if difference < 0 then
      pure none
    else
      let consoles := select third nRows offset
      if consoles = [] then
        pure none
      else
        pure (some ⟨consoles, maxID - minID consoles + 1, maxID⟩)

/-- `LoginHTTPRequest::Console` for the parameters `offset` and `upper`, as far as they were sent.
-/
def consoleAt (first second third : Nat) (uri : Uri) (offset upper : Option UInt32) :
    Except Fault (Option Page) :=
  let offset := offset.getD 0
  let upperID := upper.getD 0
  let maxID := maxConsoleID first
  if upperID ≠ 0 ∧ maxID ≠ 0 then
    if uri = .new then
      tryConsoleAt second third (maxID - upperID) 0
    else
      tryConsoleAt second third 10 (offset + (maxID - upperID))
  else
    tryConsoleAt second third 10 offset

/-- The offset of a page is computed without a wrap, and is the number of ids from the smallest one
of the page up to its upper bound. -/
structure Page.Counted (page : Page) (second : Nat) : Prop where
  difference : ((maxConsoleID second - minID page.messages).toNat : Int) =
    (maxConsoleID second).toNat - (minID page.messages).toNat
  sum : (maxConsoleID second - minID page.messages + 1).toNat =
    (maxConsoleID second - minID page.messages).toNat + 1
  count : ∀ id, IsLeast {id | id ∈ page.messages} id →
    page.offset.toNat = (Finset.Icc id page.upper.toNat).card

/-- No computation of a request wraps, the rows of `new` are those above `upper`, and the offset of
a page counts its ids. -/
structure Unwrapped (t : Tables) (uri : Uri) (offset upper : UInt32) : Prop where
  difference : ((maxConsoleID t.first - upper).toNat : Int) =
    (maxConsoleID t.first).toNat - upper.toNat
  sum : uri ≠ .new → (offset + (maxConsoleID t.first - upper)).toNat =
    offset.toNat + (maxConsoleID t.first - upper).toNat
  page : ∀ page, consoleAt t.first t.second t.third uri (some offset) (some upper) =
    .ok (some page) → page.Counted t.second
  new : uri = .new → ∃ obj,
    consoleAt t.first t.second t.third uri (some offset) (some upper) = .ok obj ∧
      ∀ id, id ∈ (obj.map Page.messages).getD [] ↔ upper.toNat < id ∧ id ≤ t.third

/-- `TryConsole` finds the maximum of `rows` rows not below the offset. -/
def Passes (rows offset : Nat) : Prop :=
  if rows < 2 ^ 31 then
    offset ≤ rows ∨ rows + 2 ^ 31 < offset
  else
    2 ^ 31 ≤ offset ∧ offset ≤ rows

/-- The `upper` of the request is no id to come.  For `new`, no row is added during the request, and
an `int` holds the maximum or nothing is new.  For other requests the offset fits, and a page that
is returned begins among the rows that the second statement found. -/
def Ordered (t : Tables) (uri : Uri) (offset upper : UInt32) : Prop :=
  upper.toNat ≤ t.first ∧
    if uri = .new then
      t.third = t.first ∧ (t.first < 2 ^ 31 ∨ upper.toNat = t.first)
    else
      offset.toNat + (t.first - upper.toNat) < 2 ^ 32 ∧
        (Passes t.second (offset.toNat + (t.first - upper.toNat)) →
          offset.toNat + (t.first - upper.toNat) < t.third →
            t.third < t.second + (offset.toNat + (t.first - upper.toNat)) + 10)

theorem toNat_sub_iff (a b : UInt32) :
    ((a - b).toNat : Int) = a.toNat - b.toNat ↔ b.toNat ≤ a.toNat := by
  rw [UInt32.toNat_sub]
  have ha := a.toNat_lt
  have hb := b.toNat_lt
  omega

theorem toNat_add_iff (a b : UInt32) :
    (a + b).toNat = a.toNat + b.toNat ↔ a.toNat + b.toNat < 2 ^ 32 := by
  rw [UInt32.toNat_add]
  omega

theorem maxConsoleID_toNat {rows : Nat} (hrows : rows < 2 ^ 32) :
    (maxConsoleID rows).toNat = rows := toNat_ofNat hrows

theorem maxConsoleID_ne {rows : Nat} (hrows : rows < 2 ^ 32) (hpos : 1 ≤ rows) :
    maxConsoleID rows ≠ 0 := by
  rw [← UInt32.toNat_inj.ne, maxConsoleID_toNat hrows]
  exact Nat.ne_of_gt hpos

theorem mem_select {rows id : Nat} {nRows offset : UInt32} :
    id ∈ select rows nRows offset ↔
      rows - offset.toNat - nRows.toNat < id ∧ id ≤ rows - offset.toNat := by
  rw [select, drop_descending]
  exact mem_of_append (take_append_descending _ _)

theorem select_eq_nil_iff {rows : Nat} {nRows offset : UInt32} :
    select rows nRows offset = [] ↔ rows ≤ offset.toNat ∨ nRows.toNat = 0 := by
  rw [List.eq_nil_iff_forall_not_mem]
  simp only [mem_select]
  constructor
  · intro h
    have := h (rows - offset.toNat)
    omega
  · intro h id
    omega

theorem minID_select {rows : Nat} {nRows offset : UInt32} (hrows : rows < 2 ^ 32)
    (h : select rows nRows offset ≠ []) :
    (minID (select rows nRows offset)).toNat = rows - offset.toNat - nRows.toNat + 1 := by
  rw [ne_eq, select_eq_nil_iff, not_or] at h
  rw [select, drop_descending, minID_take (by omega) (by omega) (by omega),
    toNat_ofNat (by omega)]

theorem isLeast_select {rows : Nat} {nRows offset : UInt32}
    (h : select rows nRows offset ≠ []) :
    IsLeast {id | id ∈ select rows nRows offset} (rows - offset.toNat - nRows.toNat + 1) := by
  rw [ne_eq, select_eq_nil_iff, not_or] at h
  refine ⟨?_, fun id hid => ?_⟩
  · show _ ∈ select _ _ _
    rw [mem_select]
    omega
  · have := mem_select.mp hid
    omega

theorem passes_iff {rows : Nat} {offset : UInt32} (hrows : rows < 2 ^ 32) :
    Passes rows offset.toNat ↔
      0 ≤ (maxConsoleID rows).toInt32.toInt - offset.toInt32.toInt ∧
        (maxConsoleID rows).toInt32.toInt - offset.toInt32.toInt < 2 ^ 31 := by
  have hoffset := offset.toNat_lt
  rw [difference_eq offset hrows, Passes]
  split
  · split <;> omega
  · split <;> omega

theorem tryConsoleAt_passes {second third : Nat} {nRows offset : UInt32} (hpos : 1 ≤ second)
    (hsecond : second < 2 ^ 32) (h : Passes second offset.toNat) :
    tryConsoleAt second third nRows offset =
      if select third nRows offset = [] then .ok none
      else .ok (some ⟨select third nRows offset,
        maxConsoleID second - minID (select third nRows offset) + 1, maxConsoleID second⟩) := by
  rw [passes_iff hsecond] at h
  unfold tryConsoleAt
  dsimp only
  rw [if_neg (maxConsoleID_ne hsecond hpos), if_neg (by omega), if_neg (by omega)]
  rfl

theorem tryConsoleAt_not_passes {second third : Nat} {nRows offset : UInt32} (hpos : 1 ≤ second)
    (hsecond : second < 2 ^ 32) (h : ¬Passes second offset.toNat) :
    tryConsoleAt second third nRows offset = .ok none ∨
      offset ≠ 0 ∧ tryConsoleAt second third nRows offset = .error .intOverflow := by
  rw [passes_iff hsecond] at h
  unfold tryConsoleAt
  dsimp only
  rw [if_neg (maxConsoleID_ne hsecond hpos)]
  split
  · rename_i hoverflow
    refine .inr ⟨?_, rfl⟩
    -- the difference of an `int` and 0 is that `int`
    rintro rfl
    have hzero : (0 : UInt32).toNat < 2 ^ 31 := by decide
    rw [difference_eq 0 hsecond, if_pos hzero, UInt32.toNat_zero] at hoverflow
    split at hoverflow <;> omega
  · rw [if_pos (by omega)]
    exact .inl rfl

/-- What a page counts is right when it begins among the rows of the second statement. -/
theorem counted_iff {second third : Nat} {nRows offset : UInt32} (hsecond : second < 2 ^ 32)
    (hthird : third < 2 ^ 32) (hrows : select third nRows offset ≠ []) :
    (Page.mk (select third nRows offset)
        (maxConsoleID second - minID (select third nRows offset) + 1)
        (maxConsoleID second)).Counted second ↔
      third - offset.toNat - nRows.toNat < second := by
  have hmin := minID_select hthird hrows
  have hmax := maxConsoleID_toNat hsecond
  constructor
  · intro h
    have := (toNat_sub_iff _ _).mp h.difference
    dsimp only at this
    omega
  · intro h
    have hle : (minID (select third nRows offset)).toNat ≤ (maxConsoleID second).toNat := by omega
    have hsub := (toNat_sub_iff _ _).mpr hle
    have hadd : (maxConsoleID second - minID (select third nRows offset) + 1).toNat =
        (maxConsoleID second - minID (select third nRows offset)).toNat + 1 := by
      refine (toNat_add_iff _ 1).mpr ?_
      rw [show (1 : UInt32).toNat = 1 from rfl]
      omega
    refine ⟨hsub, hadd, fun id hid => ?_⟩
    rw [hid.unique (isLeast_select hrows)]
    dsimp only
    rw [hadd, Nat.card_Icc]
    omega

/-- Every page that `TryConsole` returns counts its ids exactly when no page begins above the rows
of the second statement. -/
theorem pages_counted_iff {second third : Nat} {nRows offset : UInt32} (hpos : 1 ≤ second)
    (hsecond : second < 2 ^ 32) (hthird : third < 2 ^ 32) :
    (∀ page, tryConsoleAt second third nRows offset = .ok (some page) → page.Counted second) ↔
      (Passes second offset.toNat → select third nRows offset ≠ [] →
        third - offset.toNat - nRows.toNat < second) := by
  constructor
  · intro h hpasses hrows
    refine (counted_iff hsecond hthird hrows).mp (h _ ?_)
    rw [tryConsoleAt_passes hpos hsecond hpasses, if_neg hrows]
  · intro h page hpage
    by_cases hpasses : Passes second offset.toNat
    · rw [tryConsoleAt_passes hpos hsecond hpasses] at hpage
      split at hpage
      · cases hpage
      · rename_i hrows
        cases hpage
        exact (counted_iff hsecond hthird hrows).mpr (h hpasses hrows)
    · rcases tryConsoleAt_not_passes hpos hsecond hpasses with hnone | ⟨-, herror⟩
      · rw [hnone] at hpage
        cases hpage
      · rw [herror] at hpage
        cases hpage

/-- A request for new rows gets the newest `nRows`, as long as an `int` holds the maximum. -/
theorem tryConsoleAt_new {second third : Nat} (nRows : UInt32) (hpos : 1 ≤ second)
    (hsecond : second < 2 ^ 32) :
    ∃ obj, tryConsoleAt second third nRows 0 = .ok obj ∧
      (obj.map Page.messages).getD [] = if second < 2 ^ 31 then select third nRows 0 else [] := by
  have hpasses : Passes second (0 : UInt32).toNat ↔ second < 2 ^ 31 := by
    rw [UInt32.toNat_zero, Passes]
    split <;> omega
  by_cases hsmall : second < 2 ^ 31
  · rw [tryConsoleAt_passes hpos hsecond (hpasses.mpr hsmall), if_pos hsmall]
    split
    · rename_i hnil
      exact ⟨none, rfl, hnil.symm⟩
    · exact ⟨_, rfl, rfl⟩
  · rw [if_neg hsmall]
    rcases tryConsoleAt_not_passes hpos hsecond (mt hpasses.mp hsmall) with hnone | ⟨hzero, -⟩
    · exact ⟨none, hnone, rfl⟩
    · exact absurd rfl hzero

section Request

variable (t : Tables) {uri : Uri} {offset upper : UInt32}

theorem difference_iff :
    ((maxConsoleID t.first - upper).toNat : Int) = (maxConsoleID t.first).toNat - upper.toNat ↔
      upper.toNat ≤ t.first := by
  have hfirst := t.first_le.trans t.second_le
  rw [toNat_sub_iff, maxConsoleID_toNat (hfirst.trans_lt t.fits)]

theorem toNat_difference (hle : upper.toNat ≤ t.first) :
    (maxConsoleID t.first - upper).toNat = t.first - upper.toNat := by
  have hfirst := t.first_le.trans t.second_le
  have hdifference := (difference_iff t).mpr hle
  rw [maxConsoleID_toNat (hfirst.trans_lt t.fits)] at hdifference
  omega

theorem consoleAt_eq (hupper : upper ≠ 0) :
    consoleAt t.first t.second t.third uri (some offset) (some upper) =
      if uri = .new then tryConsoleAt t.second t.third (maxConsoleID t.first - upper) 0
      else tryConsoleAt t.second t.third 10 (offset + (maxConsoleID t.first - upper)) :=
  if_pos ⟨hupper, maxConsoleID_ne ((t.first_le.trans t.second_le).trans_lt t.fits) t.nonempty⟩

/-- The rows of `new` are those above `upper` exactly when no row was added during the request, and
they can be asked for or there are none. -/
theorem new_iff (hle : upper.toNat ≤ t.first) :
    (∃ obj, tryConsoleAt t.second t.third (maxConsoleID t.first - upper) 0 = .ok obj ∧
      ∀ id, id ∈ (obj.map Page.messages).getD [] ↔ upper.toNat < id ∧ id ≤ t.third) ↔
      t.third = t.first ∧ (t.first < 2 ^ 31 ∨ upper.toNat = t.first) := by
  have hnRows := toNat_difference t hle
  obtain ⟨first, second, third, hpos, hfirst, hsecond, hthird⟩ := t
  dsimp only at hle hnRows ⊢
  obtain ⟨obj, hobj, hmessages⟩ :=
    @tryConsoleAt_new second third (maxConsoleID first - upper) (by omega) (by omega)
  have hmem (id : Nat) : id ∈ (obj.map Page.messages).getD [] ↔
      second < 2 ^ 31 ∧ third - (first - upper.toNat) < id ∧ id ≤ third := by
    rw [hmessages]
    split
    · rename_i hsmall
      rw [mem_select, hnRows, UInt32.toNat_zero, Nat.sub_zero]
      exact (and_iff_right hsmall).symm
    · rename_i hlarge
      exact iff_of_false List.not_mem_nil fun h => hlarge h.1
  constructor
  · rintro ⟨obj', hobj', h⟩
    rw [hobj] at hobj'
    cases hobj'
    simp only [hmem] at h
    -- the newest row, and the rows next to the two bounds
    have htop := h third
    have hupper := h (upper.toNat + 1)
    have hlower := h (third - (first - upper.toNat) + 1)
    omega
  · rintro ⟨rfl, h⟩
    refine ⟨obj, hobj, fun id => ?_⟩
    rw [hmem]
    omega

/-- When no row was added, the page of `new` begins among the rows of the second statement. -/
theorem new_counted (hsame : t.third = t.first) (page : Page)
    (hpage : tryConsoleAt t.second t.third (maxConsoleID t.first - upper) 0 = .ok (some page)) :
    page.Counted t.second := by
  have hpos := t.nonempty
  have hfirst := t.first_le
  have hsecond := t.second_le
  have hthird := t.fits
  refine (pages_counted_iff (by omega) (by omega) hthird).mpr (fun _ hrows => ?_) page hpage
  rw [ne_eq, select_eq_nil_iff] at hrows
  omega

theorem offset_iff (hle : upper.toNat ≤ t.first) :
    (offset + (maxConsoleID t.first - upper)).toNat =
        offset.toNat + (maxConsoleID t.first - upper).toNat ↔
      offset.toNat + (t.first - upper.toNat) < 2 ^ 32 := by
  rw [toNat_add_iff, toNat_difference t hle]

/-- The pages of the other requests count their ids exactly when they begin among the rows of the
second statement. -/
theorem more_counted_iff (hle : upper.toNat ≤ t.first)
    (hfits : offset.toNat + (t.first - upper.toNat) < 2 ^ 32) :
    (∀ page, tryConsoleAt t.second t.third 10 (offset + (maxConsoleID t.first - upper)) =
        .ok (some page) → page.Counted t.second) ↔
      (Passes t.second (offset.toNat + (t.first - upper.toNat)) →
        offset.toNat + (t.first - upper.toNat) < t.third →
          t.third < t.second + (offset.toNat + (t.first - upper.toNat)) + 10) := by
  have hpos := t.nonempty
  have hfirst := t.first_le
  have hsecond := t.second_le
  have hthird := t.fits
  have hoffset := (offset_iff t hle).mpr hfits
  rw [toNat_difference t hle] at hoffset
  have hten : (10 : UInt32).toNat = 10 := rfl
  rw [pages_counted_iff (by omega) (by omega) hthird, hoffset, ne_eq, select_eq_nil_iff, hoffset,
    hten]
  refine forall_congr' fun _ => ?_
  omega

/-- No computation of a request wraps, and its answer is right, exactly when the request is
ordered. -/
theorem unwrapped_iff (uri : Uri) (offset upper : UInt32) (hupper : upper ≠ 0) :
    Unwrapped t uri offset upper ↔ Ordered t uri offset upper := by
  have hconsole := @consoleAt_eq t uri offset upper hupper
  unfold Ordered
  by_cases huri : uri = .new
  · rw [if_pos huri] at hconsole ⊢
    constructor
    · intro h
      have hle := (difference_iff t).mp h.difference
      exact ⟨hle, (new_iff t hle).mp (hconsole ▸ h.new huri)⟩
    · rintro ⟨hle, hnew⟩
      refine ⟨(difference_iff t).mpr hle, fun h => absurd huri h, ?_, fun _ => ?_⟩
      · rw [hconsole]
        exact new_counted t hnew.1
      · rw [hconsole]
        exact (new_iff t hle).mpr hnew
  · rw [if_neg huri] at hconsole ⊢
    constructor
    · intro h
      have hle := (difference_iff t).mp h.difference
      have hfits := (offset_iff t hle).mp (h.sum huri)
      exact ⟨hle, hfits, (more_counted_iff t hle hfits).mp (hconsole ▸ h.page)⟩
    · rintro ⟨hle, hfits, hrows⟩
      refine ⟨(difference_iff t).mpr hle, fun _ => (offset_iff t hle).mpr hfits, ?_,
        fun h => absurd h huri⟩
      rw [hconsole]
      exact (more_counted_iff t hle hfits).mpr hrows

end Request

/-- A table of thirty rows that nobody adds to, and one to which rows are added during a request. -/
def thirtyRows : Tables := ⟨30, 30, 30, by decide, by decide, by decide, by decide⟩

def growing : Tables := ⟨30, 31, 33, by decide, by decide, by decide, by decide⟩

/-- Five new rows, and the page of the ten rows behind the first ten. -/
theorem thirtyRows_unwrapped :
    (Unwrapped thirtyRows .new 0 25 ∧ consoleAt 30 30 30 .new (some 0) (some 25) =
      .ok (some ⟨[30, 29, 28, 27, 26], 5, 30⟩)) ∧
    Unwrapped growing .more 10 25 ∧ consoleAt 30 31 33 .more (some 10) (some 25) =
      .ok (some ⟨[18, 17, 16, 15, 14, 13, 12, 11, 10, 9], 23, 31⟩) := by
  refine ⟨⟨(unwrapped_iff thirtyRows .new 0 25 (by decide)).mpr ?_, by decide +kernel⟩,
    (unwrapped_iff growing .more 10 25 (by decide)).mpr ?_, by decide +kernel⟩
  · exact ⟨by decide, rfl, .inl (by decide)⟩
  · exact ⟨by decide, by decide, fun _ _ => by decide⟩

/-- A table of one row that nobody adds to. -/
def oneRow : Tables := ⟨1, 1, 1, Nat.le_refl _, Nat.le_refl _, Nat.le_refl _, by decide⟩

/-- A request for the rows above 5 gets the only row, whose id is 1. -/
theorem oneRow_wraps :
    consoleAt oneRow.first oneRow.second oneRow.third .new (some 0) (some 5) =
        .ok (some ⟨[1], 1, 1⟩) ∧ ¬Unwrapped oneRow .new 0 5 := by
  refine ⟨by decide +kernel, fun h => ?_⟩
  have := (difference_iff oneRow).mp h.difference
  exact absurd this (by decide)

end Starfall.Console
