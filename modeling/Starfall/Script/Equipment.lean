import Starfall.ProofKit.Admission
import Starfall.Script.Inventory

/-! Which items of an inventory are equipped.  `equip` takes an item as soon as one of its slots is
free, where a slot that has no entry in the record is never taken. -/

namespace Starfall.Script

open Components (Value Numbers)
open ProofKit.Admission ProofKit.Folds

variable {N : Type} (num : Numbers N) (defaults : List Str)

/-- Whether `equip` takes a slot for free beside items with the slots `worn`. -/
def free (worn : List (List Str)) (name : Str) : Bool :=
  if Tracked defaults name then !worn.any (·.contains name) else !objectPrototype.contains name

theorem truthy_marked (worn : List (List Str)) (name : Str) :
    (marked defaults fun name => worn.any (·.contains name)).truthy name =
      !free defaults worn name := by
  rw [States.truthy, marked, free]
  split <;> simp

def admits (worn : List (List Str)) (slots : List Str) : Bool := slots.any (free defaults worn)

theorem worn_append (items rest : List (Item N)) :
    worn num (items ++ rest) = worn num items ++ worn num rest := by
  simp [worn]

theorem worn_unequipped {items : List (Item N)} (h : ∀ item ∈ items, item.equipped = false) :
    worn num items = [] := by
  rw [worn, List.filter_eq_nil_iff.mpr fun item hitem => by simp [h item hitem], List.map_nil]

theorem worn_dress (before : List (Item N)) {rest : List (Item N)} {item : Item N}
    {slots : List Str} (e : Bool) (hslots : item.slots num = some slots)
    (hrest : ∀ other ∈ rest, other.equipped = false) :
    worn num (before ++ item.dress e :: rest) =
      worn num before ++ if e then [slots] else [] := by
  rw [worn_append, ← List.singleton_append, worn_append, worn_unequipped num hrest,
    List.append_nil]
  cases e with
  | true => simp [worn, List.filter_cons, hslots]
  | false => simp [worn]

theorem modify_length {α : Type*} (before rest : List α) (a : α) (f : α → α) :
    (before ++ a :: rest).modify before.length f = before ++ f a :: rest := by
  induction before with
  | nil => rfl
  | cons first before ih =>
    rw [List.cons_append, List.length_cons, List.modify_succ_cons, ih, List.cons_append]

/-- What `equip` does with an item, with none equipped behind it: it ends equipped when it began so
or one of the slots is free. -/
theorem equip_slots {before rest : List (Item N)} {item : Item N} {slots : List Str}
    (hothers : ∀ other ∈ before ++ rest, (other.slots num).isSome)
    (hslots : item.slots num = some slots) (hrest : ∀ other ∈ rest, other.equipped = false)
    {slotNames : List (Value N)} {texts : List Str}
    (htexts : List.Forall₂ (fun slotName text => slotName.toText num = some text) slotNames texts)
    (e : Bool) :
    slotNames.foldlM (fun items slotName => do
      let states ← equipped num defaults items
      let name ← slotName.toText num
      some (if states.truthy name then items
        else items.modify before.length fun item => { item with equipped := true }))
      (before ++ item.dress e :: rest) =
      some (before ++ item.dress (e || admits defaults (worn num before) texts) :: rest) := by
  induction htexts generalizing e with
  | nil => simp [admits]
  | @cons slotName text slotNames texts htext _ ih =>
    have hall : ∀ other ∈ before ++ item.dress e :: rest, (other.slots num).isSome := by
      intro other hother
      rcases List.mem_append.mp hother with hother | hother
      · exact hothers other (List.mem_append_left _ hother)
      · rcases List.mem_cons.mp hother with rfl | hother
        · rw [dress_slots, hslots]
          rfl
        · exact hothers other (List.mem_append_right _ hother)
    have hstep : (do
        let states ← equipped num defaults (before ++ item.dress e :: rest)
        let name ← slotName.toText num
        some (if states.truthy name then before ++ item.dress e :: rest
          else (before ++ item.dress e :: rest).modify before.length fun item =>
            { item with equipped := true })) =
        some (before ++ item.dress (e || free defaults (worn num before) text) :: rest) := by
      rw [equipped_eq num defaults hall, htext, modify_length]
      show some (ite (States.truthy _ text) _ _) = _
      rw [truthy_marked, worn_dress num before e hslots hrest]
      cases e with
      | true => simp [Item.dress]
      | false => cases hfree : free defaults (worn num before) text <;> simp [hfree, Item.dress]
    rw [List.foldlM_cons, hstep]
    exact (ih _).trans (by rw [admits, admits, List.any_cons, Bool.or_assoc])

/-- An item beside those in front of it, with none equipped behind it. -/
theorem equip_eq {before rest : List (Item N)} {item : Item N} {slots : List Str}
    (hothers : ∀ other ∈ before ++ rest, (other.slots num).isSome)
    (hslots : item.slots num = some slots) (hitem : item.equipped = false)
    (hrest : ∀ other ∈ rest, other.equipped = false) :
    equip num defaults before.length (before ++ item :: rest) =
      some (before ++ item.dress (admits defaults (worn num before) slots) :: rest) := by
  obtain ⟨slotNames, hnames, htexts⟩ := Option.bind_eq_some_iff.mp hslots
  have h := equip_slots num defaults hothers hslots hrest (mapM_eq_some.mp htexts) false
  rw [dress_self hitem, Bool.false_or] at h
  rw [equip, List.getElem?_append_right (Nat.le_refl _), Nat.sub_self]
  show (names num (item.get _) >>= _) = _
  rw [hnames]
  exact h

/-- An item as `load` leaves it, whose slots can be read. -/
structure Item.Fresh (item : Item N) : Prop where
  type : isText (item.get "type".toList) "apparel".toList
  unequipped : item.equipped = false
  slots : (item.slots num).isSome

/-- The decision of `equip` on an item beside those that are equipped. -/
def admitsItem (chosen : List (Item N)) (item : Item N) : Bool :=
  admits defaults (chosen.map fun other => (other.slots num).getD []) ((item.slots num).getD [])

def dressed (ds : List (Item N × Bool)) : List (Item N) := ds.map fun d => d.1.dress d.2

theorem worn_dressed (ds : List (Item N × Bool)) :
    worn num (dressed ds) =
      ((ds.filter (·.2)).map (·.1)).map fun item => (item.slots num).getD [] := by
  simp [worn, dressed, List.filter_map, Function.comp_def]

/-- What `findEquipment` does with the item at `i`. -/
def equipAt (items : List (Item N)) (i : Nat) : Option (List (Item N)) :=
  if isText (items[i]?.bind fun item => item.get "type".toList) "apparel".toList then
    equip num defaults i items
  else some items

theorem equipAt_eq {before rest : List (Item N)} {item : Item N} (h : item.Fresh num)
    (hbefore : ∀ other ∈ before, (other.slots num).isSome)
    (hrest : ∀ other ∈ rest, other.Fresh num) :
    equipAt num defaults (before ++ item :: rest) before.length =
      some (before ++ item.dress
        (admits defaults (worn num before) ((item.slots num).getD [])) :: rest) := by
  obtain ⟨slots, hslots⟩ := Option.isSome_iff_exists.mp h.slots
  have hothers : ∀ other ∈ before ++ rest, (other.slots num).isSome := by
    intro other hother
    rcases List.mem_append.mp hother with hother | hother
    · exact hbefore other hother
    · exact (hrest other hother).slots
  rw [equipAt, List.getElem?_append_right (Nat.le_refl _), Nat.sub_self]
  refine (if_pos h.type).trans ?_
  rw [equip_eq num defaults hothers hslots h.unequipped fun other hother =>
    (hrest other hother).unequipped, hslots, Option.getD_some]

/-- The items of `done` are decided on one after the other, and those behind them stay as they
are. -/
theorem findEquipment_prefix (done todo : List (Item N))
    (h : ∀ item ∈ done ++ todo, item.Fresh num) :
    (List.range done.length).foldlM (equipAt num defaults) (done ++ todo) =
      some (dressed (decisions (admitsItem num defaults) done) ++ todo) := by
  induction done using List.reverseRecOn generalizing todo with
  | nil => rfl
  | append_singleton done item ih =>
    rw [List.append_assoc, List.forall_mem_append] at h
    have hbefore : ∀ other ∈ dressed (decisions (admitsItem num defaults) done),
        (other.slots num).isSome := by
      intro other hother
      obtain ⟨d, hd, rfl⟩ := List.mem_map.mp hother
      rw [dress_slots]
      rw [← decisions_fst (admitsItem num defaults) done] at h
      exact (h.1 d.1 (List.mem_map_of_mem hd)).slots
    have hlength : (dressed (decisions (admitsItem num defaults) done)).length = done.length := by
      conv_rhs => rw [← decisions_fst (admitsItem num defaults) done]
      rw [dressed, List.length_map, List.length_map]
    have htodo : ∀ other ∈ todo, other.Fresh num := fun other hother =>
      h.2 other (List.mem_append_right _ hother)
    have hstep := equipAt_eq num defaults (h.2 item (by simp)) hbefore htodo
    rw [worn_dressed, hlength] at hstep
    rw [List.length_append, List.length_singleton, List.range_succ, List.foldlM_append,
      List.append_assoc, ih _ (List.forall_mem_append.mpr h), decisions_append]
    show (equipAt num defaults (_ ++ item :: todo) done.length >>= fun items =>
      List.foldlM (equipAt num defaults) items []) = _
    rw [hstep]
    simp [dressed, admitsItem, admitted]

/-- The items of `findEquipment` are the decisions of `equip`. -/
theorem findEquipment_eq {items : List (Item N)} (h : ∀ item ∈ items, item.Fresh num) :
    findEquipment num defaults items =
      some (dressed (decisions (admitsItem num defaults) items)) := by
  have hrun := findEquipment_prefix num defaults items [] (by simpa using h)
  rw [List.append_nil, List.append_nil] at hrun
  exact hrun

/-- The slots of the items, each with whether it ended equipped, are the decisions on their
slots. -/
theorem outfits_dressed (items : List (Item N)) :
    (dressed (decisions (admitsItem num defaults) items)).map
      (fun item => ((item.slots num).getD [], item.equipped)) =
      decisions (admits defaults) (items.map fun item => (item.slots num).getD []) := by
  rw [← decisions_map, dressed, List.map_map]
  rfl

/-- Two lists of slots with a name in common. -/
def Shares (a b : List Str) : Prop := ∃ name ∈ a, name ∈ b

/-- Whether `equip` takes a slot for taken beside items with the slots `worn`. -/
def Taken (worn : List (List Str)) (name : Str) : Prop :=
  (Tracked defaults name ∧ ∃ other ∈ worn, name ∈ other) ∨
    (¬Tracked defaults name ∧ name ∈ objectPrototype)

theorem free_iff {worn : List (List Str)} {name : Str} :
    free defaults worn name ↔ ¬Taken defaults worn name := by
  rw [free, Taken]
  split
  · rename_i h
    simp [h]
  · rename_i h
    simp [h]

/-- An item beside items with the slots `worn`: when it shares a slot with one of them all its slots
are taken, and when it shares none not all of them are. -/
structure Settled (worn : List (List Str)) (names : List Str) : Prop where
  clash : (∃ other ∈ worn, Shares other names) → ∀ name ∈ names, Taken defaults worn name
  clear : names ≠ [] → (∀ other ∈ worn, ¬Shares other names) →
    ∃ name ∈ names, ¬Taken defaults worn name

/-- An item with slots is equipped first come, first served. -/
def firstCome (worn : List (List Str)) (names : List Str) : Bool :=
  !names.isEmpty && worn.all fun other => !other.any names.contains

theorem firstCome_iff {worn : List (List Str)} {names : List Str} :
    firstCome worn names ↔ Greedy Shares (· ≠ []) worn names := by
  simp [firstCome, Greedy, Shares]

theorem settled_iff {worn : List (List Str)} {names : List Str} :
    admits defaults worn names = firstCome worn names ↔ Settled defaults worn names := by
  rw [Bool.eq_iff_iff, firstCome_iff, admits, List.any_eq_true]
  simp only [free_iff]
  constructor
  · intro h
    constructor
    · rintro ⟨other, hother, hshares⟩ name hname
      by_contra hfree
      exact (h.mp ⟨name, hname, hfree⟩).2 other hother hshares
    · intro hnonempty hclear
      exact h.mpr ⟨hnonempty, hclear⟩
  · rintro ⟨hclash, hclear⟩
    constructor
    · rintro ⟨name, hname, hfree⟩
      refine ⟨List.ne_nil_of_mem hname, fun other hother hshares => ?_⟩
      exact hfree (hclash ⟨other, hother, hshares⟩ name hname)
    · rintro ⟨hnonempty, hapart⟩
      exact hclear hnonempty hapart

/-- An entry of an apparel item that lists the slots `names`. -/
structure Lists (entry : Value N) (names : List Str) : Prop where
  type : registered entry
  slots : slotNames num (has (some entry) "data".toList).join = some names

/-- The slots of the items of a constructed inventory, each with whether it is equipped. -/
def outfits (inventory : Value N) : Option (List (List Str × Bool)) := do
  (← construct num defaults inventory).mapM fun item => do
    some (← item.slots num, item.equipped)

theorem type_apparel {entry : Value N} (h : registered entry) :
    isText ((Apparel entry).get "type".toList) "apparel".toList := by
  obtain ⟨type, htype, rfl⟩ := Option.bind_eq_some_iff.mp (isText_iff.mp h)
  rw [Apparel_get htype (by decide) (by decide)]
  exact isText_iff.mpr rfl

theorem fresh_apparel {entry : Value N} (h : registered entry)
    (hslots : ((Apparel entry).slots num).isSome) : (Apparel entry).Fresh num :=
  ⟨type_apparel h, rfl, hslots⟩

variable {num} in
theorem Lists.fresh {entry : Value N} {names : List Str} (h : Lists num entry names) :
    (Apparel entry).Fresh num := by
  apply fresh_apparel num h.type
  rw [Apparel_slots num h.slots]
  rfl

theorem load_registered {entries : List (Value N)} (h : ∀ entry ∈ entries, registered entry) :
    load (.array entries) = some (entries.map Apparel) := by
  rw [load_eq fun entry hentry => loadItem_iff.mpr (.inr (h entry hentry)),
    List.filter_eq_self.mpr h]

theorem registered_fresh {entries : List (Value N)} {slots : List (List Str)}
    (h : List.Forall₂ (Lists num) entries slots) :
    ∀ entry ∈ entries, registered entry ∧ (Apparel entry).Fresh num := by
  induction h with
  | nil => simp
  | cons hlists _ ih =>
    rw [List.forall_mem_cons]
    exact ⟨⟨hlists.type, hlists.fresh⟩, ih⟩

theorem slots_map {entries : List (Value N)} {slots : List (List Str)}
    (h : List.Forall₂ (Lists num) entries slots) :
    (entries.map Apparel).map (fun item => (item.slots num).getD []) = slots := by
  induction h with
  | nil => rfl
  | cons hlists _ ih =>
    rw [List.map_cons, List.map_cons, ih, Apparel_slots num hlists.slots, Option.getD_some]

/-- The outfits are the decisions of `equip` on the slots of the entries. -/
theorem outfits_eq {entries : List (Value N)} {slots : List (List Str)}
    (h : List.Forall₂ (Lists num) entries slots) :
    outfits num defaults (.array entries) = some (decisions (admits defaults) slots) := by
  have hentries := registered_fresh num h
  have hfresh : ∀ item ∈ entries.map Apparel, item.Fresh num := by
    intro item hitem
    obtain ⟨entry, hentry, rfl⟩ := List.mem_map.mp hitem
    exact (hentries entry hentry).2
  rw [outfits, construct, load_registered fun entry hentry => (hentries entry hentry).1]
  show (findEquipment num defaults (entries.map Apparel) >>= _) = _
  rw [findEquipment_eq num defaults hfresh, ← slots_map num h, ← outfits_dressed]
  show List.mapM _ _ = _
  rw [mapM_eq_some, List.forall₂_map_right_iff, List.forall₂_same]
  intro item hitem
  obtain ⟨d, hd, rfl⟩ := List.mem_map.mp hitem
  have hmem : d.1 ∈ entries.map Apparel := by
    rw [← decisions_fst (admitsItem num defaults) (entries.map Apparel)]
    exact List.mem_map_of_mem hd
  obtain ⟨names, hnames⟩ := Option.isSome_iff_exists.mp (hfresh _ hmem).slots
  rw [dress_slots, hnames]
  rfl

/-- Equipped items share no slot, and an item with slots is left unequipped only for an equipped
one in front of it, exactly when each item is settled beside those that come first. -/
theorem exclusive_iff {entries : List (Value N)} {slots : List (List Str)}
    (h : List.Forall₂ (Lists num) entries slots) :
    (∃ ds, outfits num defaults (.array entries) = some ds ∧ Fair Shares (· ≠ []) ds) ↔
      Each (fun before names => Settled defaults (admitted firstCome before) names) slots := by
  have hadmits : ∀ worn names, admits defaults worn names = true → names ≠ [] := by
    intro worn names hadmitted
    obtain ⟨name, hname, -⟩ := List.any_eq_true.mp hadmitted
    exact List.ne_nil_of_mem hname
  have hfair := fair_decisions_iff hadmits (fun _ _ => firstCome_iff) slots
  simp only [settled_iff] at hfair
  rw [← hfair, outfits_eq num defaults h]
  constructor
  · rintro ⟨ds, hds, hfair⟩
    obtain rfl := Option.some.inj hds
    exact hfair
  · intro hfair
    exact ⟨_, rfl, hfair⟩

/-- An apparel item with the given slots. -/
def apparel (slots : List (Str × Value Int)) : Value Int :=
  .object [("type".toList, .string "apparel".toList),
    ("data".toList, .object [("slots".toList, .object slots)])]

def slot (name : Str) : Str × Value Int :=
  ("slot".toList, .object [("name".toList, .string name)])

/-- An item for each of two slots. -/
theorem helmetAndTop_exclusive :
    ∃ ds, outfits Components.integers ["Head".toList, "Top".toList]
      (.array [apparel [slot "Head".toList], apparel [slot "Top".toList]]) = some ds ∧
        Fair Shares (· ≠ []) ds := by
  have hlists : List.Forall₂ (Lists Components.integers)
      [apparel [slot "Head".toList], apparel [slot "Top".toList]]
      [["Head".toList], ["Top".toList]] :=
    .cons ⟨by decide +kernel, by decide +kernel⟩
      (.cons ⟨by decide +kernel, by decide +kernel⟩ .nil)
  refine (exclusive_iff Components.integers _ hlists).mpr ?_
  have hhead : Settled ["Head".toList, "Top".toList] [] ["Head".toList] :=
    (settled_iff _).mp (by decide +kernel)
  have htop : Settled ["Head".toList, "Top".toList] [["Head".toList]] ["Top".toList] :=
    (settled_iff _).mp (by decide +kernel)
  show Each _ (([] ++ [["Head".toList]]) ++ [["Top".toList]])
  rw [each_append, each_append]
  exact ⟨⟨each_nil _, hhead⟩, htop⟩

/-- A helmet and a suit for two slots, of which the helmet takes the first. -/
theorem helmetAndSuit_conflict :
    ¬∃ ds, outfits Components.integers ["Head".toList, "Top".toList]
      (.array [apparel [slot "Head".toList],
        apparel [("0".toList, .object [slot "Head".toList]),
          ("1".toList, .object [slot "Top".toList])]]) = some ds ∧
        Fair Shares (· ≠ []) ds := by
  rintro ⟨ds, hds, hfair⟩
  have hboth : outfits Components.integers ["Head".toList, "Top".toList]
      (.array [apparel [slot "Head".toList],
        apparel [("0".toList, .object [slot "Head".toList]),
          ("1".toList, .object [slot "Top".toList])]]) =
      some [(["Head".toList], true), (["Head".toList, "Top".toList], true)] := by
    decide +kernel
  obtain rfl := Option.some.inj (hds.symm.trans hboth)
  have happart := List.rel_of_pairwise_cons hfair.exclusive (List.mem_singleton_self _) rfl rfl
  exact happart ⟨"Head".toList, List.mem_singleton_self _, List.mem_cons_self⟩

end Starfall.Script
