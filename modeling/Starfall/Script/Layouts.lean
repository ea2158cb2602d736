import Starfall.Script.Xml2Json

/-! Where `Xml2Json` puts the children of an element: under the tag, under the number of the child,
or as the prototype of the object. -/

namespace Starfall.Xml2Json

open Components (Named Properties decimal)

/-- What stands in an object after some of the children: those that repeat a tag are under their
numbers, before the attributes and the first child of each tag, and what is tagged `__proto__` is
inherited. -/
structure Stored (attr done : List (Str × Value)) (obj : Properties Value)
    (repeats : List (Nat × Str × Value)) (firsts protos : List (Str × Value)) : Prop where
  own : obj.own = repeats.map (fun r => (decimal r.1, wrap r.2.1 r.2.2)) ++ (attr ++ firsts)
  inherited : obj.inherited = (protos.getLast?.bind fun p => p.2.prototype).getD []
  perm : (repeats.map Prod.snd ++ (firsts ++ protos)).Perm done
  indices : ∀ r ∈ repeats, 0 < r.1 ∧ r.1 < done.length
  named : ∀ f ∈ firsts, Named f.1
  again : ∀ r ∈ repeats, r.2.1 ≠ "__proto__".toList
  proto : ∀ p ∈ protos, p.1 = "__proto__".toList
  names : ∀ name, name ∈ firsts.map Prod.fst ↔
    name ∈ done.map Prod.fst ∧ name ≠ "__proto__".toList
  nodup : (firsts.map Prod.fst).Nodup
  parts : ∀ tag, tag ≠ "__proto__".toList →
    firsts.filter (·.1 = tag) ++ (repeats.map Prod.snd).filter (·.1 = tag) =
      done.filter (·.1 = tag)
  same : (∀ a ∈ done, ∀ b ∈ done, a.1 = b.1) → protos = [] →
    done = firsts ++ repeats.map Prod.snd

theorem Stored.start (attr : List (Str × Value)) :
    Stored attr [] ⟨attr, []⟩ [] [] [] where
  own := (List.append_nil attr).symm
  inherited := rfl
  perm := .nil
  indices := by simp
  named := by simp
  again := by simp
  proto := by simp
  names := by simp
  nodup := .nil
  parts := fun _ _ => rfl
  same := fun _ _ => rfl

/-- The children without attributes of their tags, whose tags are no numbers. -/
structure Child (attr : List (Str × Value)) (item : Str × Value) : Prop where
  named : Named item.1
  new : item.1 ∉ attr.map Prod.fst
  object : item.2.isObject

theorem perm_push {A : Type} {as bs done : List A} (h : (as ++ bs).Perm done) (a : A) :
    (as ++ [a] ++ bs).Perm (done ++ [a]) := calc
  (as ++ [a] ++ bs).Perm (as ++ (bs ++ [a])) := by
    rw [List.append_assoc]
    exact List.perm_append_comm.append_left as
  _ = as ++ bs ++ [a] := (List.append_assoc as bs [a]).symm
  List.Perm _ (done ++ [a]) := h.append_right [a]

/-- A tag that is new where all children have the same one is the first. -/
theorem eq_nil_of_new {done : List (Str × Value)} {item : Str × Value}
    (hsame : ∀ a ∈ done ++ [item], ∀ b ∈ done ++ [item], a.1 = b.1)
    (hnew : item.1 ∉ done.map Prod.fst) : done = [] := by
  rw [List.eq_nil_iff_forall_not_mem]
  intro other hother
  apply hnew
  rw [hsame item (by simp) other (List.mem_append_left _ hother)]
  exact List.mem_map_of_mem hother

theorem filter_tag_nil {items : List (Str × Value)} {tag : Str} (h : tag ∉ items.map Prod.fst) :
    items.filter (·.1 = tag) = [] := by
  rw [List.filter_eq_nil_iff]
  intro item hitem
  rw [decide_eq_true_iff]
  rintro rfl
  exact h (List.mem_map_of_mem hitem)

/-- Among distinct tags, one is not beside itself. -/
theorem tag_not_mem {before after : List (Str × Value)} {item : Str × Value}
    (h : ((before ++ item :: after).map Prod.fst).Nodup) :
    item.1 ∉ (before ++ after).map Prod.fst := by
  rw [List.map_append, List.map_cons, List.nodup_middle, List.nodup_cons, ← List.map_append] at h
  exact h.1

section Step

variable {attr done : List (Str × Value)} {obj : Properties Value}
  {repeats : List (Nat × Str × Value)} {firsts protos : List (Str × Value)}

theorem Stored.has_iff (h : Stored attr done obj repeats firsts protos) {item : Str × Value}
    (hitem : Child attr item) :
    obj.has item.1 = true ↔ item.1 ∈ done.map Prod.fst ∧ item.1 ≠ "__proto__".toList := by
  rw [Properties.has_iff, h.own, ← h.names, List.map_append, List.map_append, List.mem_append,
    List.mem_append, or_iff_right, or_iff_right hitem.new]
  intro hdecimal
  simp only [List.map_map, List.mem_map] at hdecimal
  obtain ⟨r, -, hr⟩ := hdecimal
  exact hitem.named r.1 hr.symm

theorem Stored.indices_append (h : Stored attr done obj repeats firsts protos)
    (item : Str × Value) : ∀ r ∈ repeats, 0 < r.1 ∧ r.1 < (done ++ [item]).length := by
  intro r hr
  rw [List.length_append]
  exact (h.indices r hr).imp_right fun hlt => Nat.lt_add_right _ hlt

/-- A child that is not the first of its tag leaves the names as they are. -/
theorem Stored.names_append (h : Stored attr done obj repeats firsts protos)
    {item : Str × Value} (hitem : item.1 ≠ "__proto__".toList → item.1 ∈ done.map Prod.fst)
    (name : Str) : name ∈ firsts.map Prod.fst ↔
      name ∈ (done ++ [item]).map Prod.fst ∧ name ≠ "__proto__".toList := by
  rw [h.names, List.map_append, List.mem_append, List.map_singleton, List.mem_singleton]
  constructor
  · exact fun hname => ⟨.inl hname.1, hname.2⟩
  · rintro ⟨hname | rfl, hne⟩
    · exact ⟨hname, hne⟩
    · exact ⟨hitem hne, hne⟩

/-- What stands in the object beside the repeated children is no number. -/
theorem Stored.all_named (h : Stored attr done obj repeats firsts protos)
    (hattr : ∀ a ∈ attr, Named a.1) : ∀ property ∈ attr ++ firsts, Named property.1 := by
  intro property hproperty
  rcases List.mem_append.mp hproperty with hmem | hmem
  · exact hattr property hmem
  · exact h.named property hmem

/-- A child whose tag was there before. -/
theorem Stored.repeated (h : Stored attr done obj repeats firsts protos)
    (hattr : ∀ a ∈ attr, Named a.1) {item : Str × Value} (hitem : Child attr item)
    (hhas : obj.has item.1 = true) (hlength : done.length < 2 ^ 32 - 1) :
    Stored attr (done ++ [item]) (place done.length item.1 item.2 obj)
      (repeats ++ [(done.length, item)]) firsts protos := by
  obtain ⟨hdone, hproto⟩ := (h.has_iff hitem).mp hhas
  have hpos : 0 < done.length := by
    cases done with
    | nil => simp at hdone
    | cons => simp
  rw [place, if_pos hhas, Properties.set_index]
  refine ⟨?_, h.inherited, ?_, ?_, h.named, ?_, h.proto, ?_, h.nodup, ?_, ?_⟩
  · show Components.put _ _ obj.own = _
    rw [h.own, Components.put_index hlength]
    · simp
    · intro property hproperty
      obtain ⟨r, hr, rfl⟩ := List.mem_map.mp hproperty
      exact ⟨r.1, (h.indices r hr).2, rfl⟩
    · intro property hproperty
      exact Components.precedes_name
        (h.all_named hattr property (List.mem_of_mem_head? hproperty)) hlength
  · rw [List.map_append]
    exact perm_push h.perm item
  · rw [List.forall_mem_append]
    exact ⟨h.indices_append item, List.forall_mem_singleton.mpr ⟨hpos, by simp⟩⟩
  · rw [List.forall_mem_append]
    exact ⟨h.again, List.forall_mem_singleton.mpr hproto⟩
  · exact h.names_append fun _ => hdone
  · intro tag htag
    rw [List.map_append, List.filter_append, List.filter_append, ← List.append_assoc,
      h.parts tag htag]
    rfl
  · intro hsame hprotos
    have hdone' := h.same (fun a ha b hb =>
      hsame a (List.mem_append_left _ ha) b (List.mem_append_left _ hb)) hprotos
    rw [List.map_append, ← List.append_assoc, ← hdone']
    rfl

/-- The first child of a tag. -/
theorem Stored.first (h : Stored attr done obj repeats firsts protos)
    {item : Str × Value} (hitem : Child attr item)
    (hhas : obj.has item.1 = false) (hproto : item.1 ≠ "__proto__".toList) :
    Stored attr (done ++ [item]) (place done.length item.1 item.2 obj)
      repeats (firsts ++ [item]) protos := by
  have hnew : item.1 ∉ done.map Prod.fst := by
    intro hmem
    rw [(h.has_iff hitem).mpr ⟨hmem, hproto⟩] at hhas
    cases hhas
  rw [place, if_neg (by simp [hhas]), Properties.set_name _ _ hitem.named.index hproto hhas]
  refine ⟨?_, h.inherited, ?_, h.indices_append item, ?_, h.again, h.proto, ?_, ?_, ?_, ?_⟩
  · show obj.own ++ [item] = _
    rw [h.own]
    simp
  · have hperm := h.perm
    rw [← List.append_assoc] at hperm ⊢
    rw [← List.append_assoc (repeats.map Prod.snd)]
    exact perm_push hperm item
  · rw [List.forall_mem_append]
    exact ⟨h.named, List.forall_mem_singleton.mpr hitem.named⟩
  · intro name
    rw [List.map_append, List.mem_append, h.names, List.map_append, List.mem_append,
      List.map_singleton, List.mem_singleton, or_and_right]
    refine or_congr Iff.rfl ⟨?_, And.left⟩
    rintro rfl
    exact ⟨rfl, hproto⟩
  · rw [List.map_append, List.map_singleton]
    apply List.nodup_append.mpr
    refine ⟨h.nodup, List.nodup_singleton _, ?_⟩
    intro name hname other hother
    rw [List.mem_singleton.mp hother]
    rintro rfl
    exact hnew ((h.names _).mp hname).1
  · intro tag htag
    have hparts := h.parts tag htag
    rw [List.filter_append, List.filter_append]
    by_cases heq : item.1 = tag
    · have hnone : done.filter (·.1 = tag) = [] := filter_tag_nil (heq ▸ hnew)
      rw [hnone, List.append_eq_nil_iff] at hparts
      rw [hnone, hparts.1, hparts.2, List.append_nil]
    · rw [List.filter_cons_of_neg (by simpa using heq), List.filter_nil, List.append_nil,
        List.append_nil, hparts]
  · intro hsame hprotos
    obtain rfl := eq_nil_of_new hsame hnew
    have hlengths := h.perm.length_eq
    simp only [List.length_append, List.length_map, List.length_nil] at hlengths
    have hrepeats : repeats = [] := List.eq_nil_of_length_eq_zero (by omega)
    have hfirsts : firsts = [] := List.eq_nil_of_length_eq_zero (by omega)
    rw [hrepeats, hfirsts]
    rfl

/-- A child that becomes the prototype. -/
theorem Stored.prototype (h : Stored attr done obj repeats firsts protos)
    {item : Str × Value} (hitem : Child attr item) (hproto : item.1 = "__proto__".toList) :
    Stored attr (done ++ [item]) (place done.length item.1 item.2 obj)
      repeats firsts (protos ++ [item]) := by
  have hhas : obj.has item.1 = false := by
    rw [Bool.eq_false_iff, ne_eq, h.has_iff hitem]
    exact fun hmem => hmem.2 hproto
  rw [place, if_neg (by simp [hhas]), Properties.set, if_pos ⟨hproto, hhas⟩]
  refine ⟨h.own, ?_, ?_, h.indices_append item, h.named, h.again, ?_, ?_, h.nodup, ?_, ?_⟩
  · obtain ⟨own, inherited, hobject⟩ : ∃ own inherited, item.2 = .object own inherited := by
      have hobject := hitem.object
      cases hvalue : item.2 with
      | string s =>
        rw [hvalue] at hobject
        cases hobject
      | object own inherited => exact ⟨own, inherited, rfl⟩
    rw [List.getLast?_append, hobject]
    simp [hobject, Value.prototype]
  · rw [← List.append_assoc, ← List.append_assoc, List.append_assoc _ firsts]
    exact h.perm.append_right _
  · rw [List.forall_mem_append]
    exact ⟨h.proto, List.forall_mem_singleton.mpr hproto⟩
  · exact h.names_append (absurd hproto)
  · intro tag htag
    rw [List.filter_append,
      List.filter_cons_of_neg (by simpa using fun heq => htag (heq.symm.trans hproto)),
      List.filter_nil, List.append_nil, h.parts tag htag]
  · intro _ hprotos
    simp at hprotos

end Step

/-- The tag of the last child, when an earlier child has it. -/
def moved (names : List Str) : Option Str :=
  names.getLast?.filter fun last => names.dropLast.contains last

/-- What stands in an object after all of the children, when the first child of the last tag was
put under a number as well. -/
structure Laid (attr items : List (Str × Value)) (obj : Properties Value)
    (repeats : List (Nat × Str × Value)) (kept protos : List (Str × Value)) : Prop where
  own : obj.own = repeats.map (fun r => (decimal r.1, wrap r.2.1 r.2.2)) ++ (attr ++ kept)
  inherited : obj.inherited = (protos.getLast?.bind fun p => p.2.prototype).getD []
  perm : (repeats.map Prod.snd ++ (kept ++ protos)).Perm items
  again : ∀ r ∈ repeats, r.2.1 ≠ "__proto__".toList
  proto : ∀ p ∈ protos, p.1 = "__proto__".toList
  names : ∀ name, name ∈ kept.map Prod.fst ↔
    name ∈ items.map Prod.fst ∧ name ≠ "__proto__".toList ∧ moved (items.map Prod.fst) ≠ some name
  nodup : (kept.map Prod.fst).Nodup
  parts : ∀ tag, tag ≠ "__proto__".toList →
    kept.filter (·.1 = tag) ++ (repeats.map Prod.snd).filter (·.1 = tag) =
      items.filter (·.1 = tag)
  same : (∀ a ∈ items, ∀ b ∈ items, a.1 = b.1) → protos = [] →
    items = repeats.map Prod.snd ++ kept

theorem moved_concat (names : List Str) (name : Str) :
    moved (names ++ [name]) = if name ∈ names then some name else none := by
  rw [moved, List.getLast?_concat, List.dropLast_concat]
  by_cases h : name ∈ names <;> simp [h]

/-- The children of a tag that are under numbers, which are all of them or all but the first. -/
theorem Laid.numbered {attr items : List (Str × Value)} {obj : Properties Value}
    {repeats : List (Nat × Str × Value)} {kept protos : List (Str × Value)}
    (h : Laid attr items obj repeats kept protos) {tag : Str} (htag : tag ≠ "__proto__".toList) :
    (repeats.map Prod.snd).filter (·.1 = tag) = (items.filter (·.1 = tag)).drop
      (if moved (items.map Prod.fst) = some tag then 0 else 1) := by
  have hparts := h.parts tag htag
  by_cases hkept : tag ∈ kept.map Prod.fst
  · have hmoved := ((h.names tag).mp hkept).2.2
    obtain ⟨k, hk, rfl⟩ := List.mem_map.mp hkept
    obtain ⟨before, after, rfl⟩ := List.append_of_mem hk
    have hbefore := tag_not_mem h.nodup
    rw [List.map_append, List.mem_append, not_or] at hbefore
    rw [List.filter_append, List.filter_cons_of_pos (by simp), filter_tag_nil hbefore.1,
      filter_tag_nil hbefore.2] at hparts
    rw [if_neg hmoved, ← hparts]
    rfl
  · rw [filter_tag_nil hkept, List.nil_append] at hparts
    rw [hparts]
    split
    · rfl
    · rename_i hmoved
      have habsent : items.filter (·.1 = tag) = [] :=
        filter_tag_nil fun hmem => hkept ((h.names tag).mpr ⟨hmem, htag, hmoved⟩)
      rw [habsent]
      rfl

section Last

variable {attr done : List (Str × Value)} {item : Str × Value} {obj : Properties Value}
  {repeats : List (Nat × Str × Value)} {firsts protos : List (Str × Value)}

/-- The tag of the last child is a new one, or it assigns the prototype. -/
theorem Stored.laid (h : Stored attr (done ++ [item]) obj repeats firsts protos)
    (hnew : ¬(item.1 ∈ done.map Prod.fst ∧ item.1 ≠ "__proto__".toList)) :
    Laid attr (done ++ [item]) obj repeats firsts protos := by
  refine ⟨h.own, h.inherited, h.perm, h.again, h.proto, ?_, h.nodup, h.parts, ?_⟩
  · intro name
    rw [h.names, List.map_append, List.map_singleton, moved_concat]
    refine and_congr_right fun _ => ⟨fun hne => ⟨hne, ?_⟩, And.left⟩
    intro hmoved
    split at hmoved
    · obtain rfl := Option.some.inj hmoved
      exact hnew ⟨‹_›, hne⟩
    · cases hmoved
  · intro hsame hprotos
    have hitems := h.same hsame hprotos
    have hproto : item.1 ≠ "__proto__".toList := by
      have hmem : item ∈ repeats.map Prod.snd ++ (firsts ++ protos) :=
        h.perm.mem_iff.mpr (by simp)
      rw [hprotos, List.append_nil] at hmem
      rcases List.mem_append.mp hmem with hmem | hmem
      · obtain ⟨r, hr, rfl⟩ := List.mem_map.mp hmem
        exact h.again r hr
      · exact ((h.names _).mp (List.mem_map_of_mem hmem)).2
    have hnil := eq_nil_of_new hsame fun hold => hnew ⟨hold, hproto⟩
    have hrepeats : repeats = [] := by
      rw [List.eq_nil_iff_forall_not_mem]
      intro r hr
      have hindex := h.indices r hr
      rw [hnil, List.length_append, List.length_nil, List.length_singleton] at hindex
      omega
    rw [hitems, hrepeats]
    simp

/-- No other first child has the tag. -/
theorem Stored.others {before after : List (Str × Value)} {first : Str × Value}
    (h : Stored attr done obj repeats (before ++ first :: after) protos) :
    ∀ f ∈ before ++ after, f.1 ≠ first.1 := by
  intro f hf heq
  apply tag_not_mem h.nodup
  rw [← heq]
  exact List.mem_map_of_mem hf

/-- A number before all others. -/
theorem Stored.put_zero (h : Stored attr done obj repeats firsts protos)
    (hattr : ∀ a ∈ attr, Named a.1) (hlength : done.length < 2 ^ 32) (value : Value) :
    Components.put (decimal 0) value obj.own = (decimal 0, value) :: obj.own := by
  show Components.put _ _ ([] ++ obj.own) = [] ++ _
  apply Components.put_index (by decide)
  · simp
  · intro property hproperty
    have hmem : property ∈ obj.own := List.mem_of_mem_head? hproperty
    rw [h.own, List.mem_append, List.mem_map] at hmem
    rcases hmem with ⟨r, hr, rfl⟩ | hmem
    · obtain ⟨hpos, hlt⟩ := h.indices r hr
      rw [Components.precedes, Components.index_decimal (by decide),
        Components.index_decimal (by omega)]
      refine ⟨by simpa using hpos, fun heq => ?_⟩
      have := Coloring.decimal_injective heq
      omega
    · exact Components.precedes_name (h.all_named hattr property hmem) (by decide)

/-- The first child of a tag goes to the number 0. -/
theorem Stored.gather_eq {before after : List (Str × Value)} {value : Value}
    (h : Stored attr done obj repeats (before ++ (item.1, value) :: after) protos)
    (hattr : ∀ a ∈ attr, Named a.1) (hitem : Child attr item) (hlength : done.length < 2 ^ 32) :
    gather item.1 obj = { obj with own := (decimal 0, wrap item.1 value) ::
      (repeats.map (fun r => (decimal r.1, wrap r.2.1 r.2.2)) ++
        (attr ++ (before ++ after))) } := by
  have hdecimal : ∀ n, decimal n ≠ item.1 := fun n heq =>
    hitem.named n heq.symm
  have hrepeats : ∀ property ∈ repeats.map (fun r => (decimal r.1, wrap r.2.1 r.2.2)),
      property.1 ≠ item.1 := by
    intro property hproperty
    obtain ⟨r, -, rfl⟩ := List.mem_map.mp hproperty
    exact hdecimal r.1
  have hattrs : ∀ a ∈ attr, a.1 ≠ item.1 := by
    intro a ha heq
    apply hitem.new
    rw [← heq]
    exact List.mem_map_of_mem ha
  have hothers := h.others
  have hlookup : obj.own.lookup item.1 = some value := by
    rw [h.own, List.lookup_eq_some_iff]
    refine ⟨repeats.map (fun r => (decimal r.1, wrap r.2.1 r.2.2)) ++ (attr ++ before), after,
      by simp, ?_⟩
    intro property hproperty
    rw [bne_iff_ne]
    simp only [List.mem_append] at hproperty
    obtain hmem | hmem | hmem := hproperty
    · exact (hrepeats property hmem).symm
    · exact (hattrs property hmem).symm
    · exact (hothers property (List.mem_append_left _ hmem)).symm
  have hfilter : obj.own.filter (fun property => property.1 ≠ item.1) =
      repeats.map (fun r => (decimal r.1, wrap r.2.1 r.2.2)) ++ (attr ++ (before ++ after)) := by
    have hself : ∀ own : List (Str × Value), (∀ property ∈ own, property.1 ≠ item.1) →
        own.filter (fun property => property.1 ≠ item.1) = own := by
      intro own hown
      rw [List.filter_eq_self]
      simpa using hown
    rw [h.own, List.filter_append, List.filter_append, List.filter_append,
      List.filter_cons_of_neg (by simp), hself _ hrepeats, hself attr hattrs, hself before ?_,
      hself after ?_]
    · intro f hf
      exact hothers f (List.mem_append_right _ hf)
    · intro f hf
      exact hothers f (List.mem_append_left _ hf)
  rw [gather, hlookup]
  simp only [Option.getD_some, delete, Properties.set_index, h.put_zero hattr hlength]
  rw [List.filter_cons_of_pos (by simpa using hdecimal 0), hfilter]

/-- The tag of the last child was there before. -/
theorem Stored.gathered (h : Stored attr (done ++ [item]) obj repeats firsts protos)
    (hattr : ∀ a ∈ attr, Named a.1) (hitem : Child attr item)
    (hold : item.1 ∈ done.map Prod.fst) (hproto : item.1 ≠ "__proto__".toList)
    (hlength : (done ++ [item]).length < 2 ^ 32) :
    ∃ repeats kept, Laid attr (done ++ [item]) (gather item.1 obj) repeats kept protos := by
  have hfirst : item.1 ∈ firsts.map Prod.fst := by
    rw [h.names, List.map_append, List.mem_append]
    exact ⟨.inl hold, hproto⟩
  obtain ⟨⟨name, value⟩, hmem, hname⟩ := List.mem_map.mp hfirst
  obtain ⟨before, after, rfl⟩ := List.append_of_mem hmem
  obtain rfl : name = item.1 := hname
  have hothers := h.others
  refine ⟨(0, item.1, value) :: repeats, before ++ after, ?_⟩
  rw [h.gather_eq hattr hitem hlength]
  refine ⟨rfl, h.inherited, ?_, ?_, h.proto, ?_, ?_, ?_, ?_⟩
  · refine List.Perm.trans ?_ h.perm
    have hmiddle : (repeats.map Prod.snd ++ before ++ (item.1, value) :: (after ++ protos)).Perm
        ((item.1, value) :: (repeats.map Prod.snd ++ before ++ (after ++ protos))) :=
      List.perm_middle
    simpa using hmiddle.symm
  · rw [List.forall_mem_cons]
    exact ⟨hproto, h.again⟩
  · intro name
    have hname := h.names name
    rw [List.map_append, List.map_cons, List.mem_append, List.mem_cons] at hname
    have hmoved : moved ((done ++ [item]).map Prod.fst) = some item.1 := by
      rw [List.map_append, List.map_singleton, moved_concat, if_pos hold]
    rw [hmoved, ← and_assoc, ← hname, List.map_append, List.mem_append]
    constructor
    · intro hmem
      refine ⟨hmem.imp_right .inr, ?_⟩
      intro hsome
      obtain rfl := Option.some.inj hsome
      rw [← List.mem_append, ← List.map_append] at hmem
      obtain ⟨f, hf, heq⟩ := List.mem_map.mp hmem
      exact hothers f hf heq
    · rintro ⟨hmem | rfl | hmem, hne⟩
      · exact .inl hmem
      · exact absurd rfl hne
      · exact .inr hmem
  · have hdistinct := h.nodup
    rw [List.map_append, List.map_cons, List.nodup_middle, List.nodup_cons, ← List.map_append]
      at hdistinct
    exact hdistinct.2
  · intro tag htag
    rw [← h.parts tag htag, List.filter_append, List.filter_append]
    show _ ++ (([(item.1, value)] ++ _).filter _) =
      (_ ++ ([(item.1, value)] ++ after).filter _) ++ _
    rw [List.filter_append, List.filter_append]
    by_cases heq : item.1 = tag
    · have hbefore := heq ▸ tag_not_mem h.nodup
      rw [List.map_append, List.mem_append, not_or] at hbefore
      rw [filter_tag_nil hbefore.1, filter_tag_nil hbefore.2]
      simp
    · rw [List.filter_cons_of_neg (by simpa using heq), List.filter_nil, List.nil_append,
        List.nil_append]
  · intro hsame hprotos
    have hnil : before ++ after = [] := by
      rw [List.eq_nil_iff_forall_not_mem]
      intro f hf
      refine hothers f hf (hsame f ?_ item (by simp))
      apply h.perm.mem_iff.mp
      simp only [List.mem_append, List.mem_cons] at hf ⊢
      exact .inr (.inl (hf.imp_right .inr))
    have hitems := h.same hsame hprotos
    rw [List.append_eq_nil_iff] at hnil
    rw [hitems, hnil.1, hnil.2]
    simp

end Last

section Run

variable {attr : List (Str × Value)} {obj : Properties Value}
  {repeats : List (Nat × Str × Value)} {firsts protos : List (Str × Value)}

/-- No attribute and no child that is done hides `hasOwnProperty`. -/
def Clear (attr done : List (Str × Value)) : Prop :=
  "hasOwnProperty".toList ∉ attr.map Prod.fst ∧ "hasOwnProperty".toList ∉ done.map Prod.fst

theorem Stored.clear {done : List (Str × Value)}
    (h : Stored attr done obj repeats firsts protos) (hshadowed : shadowed obj = false) :
    Clear attr done := by
  rw [Bool.eq_false_iff, ne_eq, shadowed_iff, not_or, h.own] at hshadowed
  have hown := hshadowed.1
  rw [List.map_append, List.map_append, List.mem_append, List.mem_append, not_or, not_or,
    h.names] at hown
  exact ⟨hown.2.1, fun hdone => hown.2.2 ⟨hdone, by decide⟩⟩

theorem Stored.protos_nil {done : List (Str × Value)}
    (h : Stored attr done obj repeats firsts protos)
    (hproto : ∀ other ∈ done, other.1 ≠ "__proto__".toList) : protos = [] := by
  rw [List.eq_nil_iff_forall_not_mem]
  intro p hp
  have hmem : p ∈ done := by
    apply h.perm.mem_iff.mp
    simp [hp]
  exact hproto p hmem (h.proto p hp)

theorem Stored.not_shadowed {done : List (Str × Value)}
    (h : Stored attr done obj repeats firsts protos) (hclear : Clear attr done)
    (hproto : ∀ other ∈ done, other.1 ≠ "__proto__".toList) : shadowed obj = false := by
  rw [Bool.eq_false_iff, ne_eq, shadowed_iff, not_or, h.own, h.inherited, h.protos_nil hproto]
  refine ⟨?_, by simp⟩
  rw [List.map_append, List.map_append, List.mem_append, List.mem_append, not_or, not_or,
    h.names]
  refine ⟨?_, hclear.1, fun hdone => hclear.2 hdone.1⟩
  rw [List.map_map, List.mem_map]
  rintro ⟨r, -, hr⟩
  exact Components.Named.of_parseInt (by decide) r.1 hr.symm

theorem Clear.left {done items : List (Str × Value)} (h : Clear attr (done ++ items)) :
    Clear attr done := by
  refine ⟨h.1, fun hdone => h.2 ?_⟩
  rw [List.map_append]
  exact List.mem_append_left _ hdone

/-- One more child, wherever it is put. -/
theorem Stored.place {done : List (Str × Value)}
    (h : Stored attr done obj repeats firsts protos)
    (hattr : ∀ a ∈ attr, Named a.1) {item : Str × Value} (hitem : Child attr item)
    (hlength : done.length < 2 ^ 32 - 1) :
    ∃ repeats firsts protos, Stored attr (done ++ [item])
      (place done.length item.1 item.2 obj) repeats firsts protos := by
  cases hhas : obj.has item.1 with
  | true => exact ⟨_, _, _, h.repeated hattr hitem hhas hlength⟩
  | false =>
    by_cases hproto : item.1 = "__proto__".toList
    · exact ⟨_, _, _, h.prototype hitem hproto⟩
    · exact ⟨_, _, _, h.first hitem hhas hproto⟩

theorem storeAll_laid {done items : List (Str × Value)} {item : Str × Value}
    (h : Stored attr done obj repeats firsts protos)
    (hattr : ∀ a ∈ attr, Named a.1)
    (hitems : ∀ other ∈ items ++ [item], Child attr other)
    (hbound : done.length + items.length + 1 < 2 ^ 32) {obj' : Properties Value}
    (hstore : storeAll (done.length + items.length + 1) done.length obj (items ++ [item]) =
      some obj') :
    Clear attr (done ++ items) ∧ ∃ repeats kept protos,
      Laid attr (done ++ items ++ [item]) obj' repeats kept protos := by
  induction items generalizing done obj repeats firsts protos with
  | nil =>
    rw [List.nil_append, List.forall_mem_singleton] at hitems
    rw [List.nil_append, storeAll, store_eq, List.length_nil, Nat.add_zero] at hstore
    rw [List.append_nil]
    cases hshadowed : shadowed obj with
    | true =>
      rw [hshadowed] at hstore
      cases hstore
    | false =>
      refine ⟨h.clear hshadowed, ?_⟩
      obtain ⟨repeats', firsts', protos', h'⟩ := h.place hattr hitems (by omega)
      rw [hshadowed] at hstore
      by_cases hhas : obj.has item.1
      · rw [if_neg (by simp), if_pos ⟨hhas, rfl⟩] at hstore
        obtain rfl := Option.some.inj hstore
        obtain ⟨hold, hproto⟩ := (h.has_iff hitems).mp hhas
        obtain ⟨repeats, kept, hlaid⟩ := h'.gathered hattr hitems hold hproto
          (by simpa using hbound)
        exact ⟨repeats, kept, protos', hlaid⟩
      · rw [if_neg (by simp), if_neg fun hlast => hhas hlast.1] at hstore
        obtain rfl := Option.some.inj hstore
        rw [h.has_iff hitems] at hhas
        exact ⟨repeats', firsts', protos', h'.laid hhas⟩
  | cons first items ih =>
    rw [List.cons_append, List.forall_mem_cons] at hitems
    rw [List.cons_append, storeAll, store_eq, List.length_cons] at hstore
    cases hshadowed : shadowed obj with
    | true =>
      rw [hshadowed] at hstore
      cases hstore
    | false =>
      rw [List.length_cons] at hbound
      obtain ⟨repeats', firsts', protos', h'⟩ := h.place hattr hitems.1 (by omega)
      rw [hshadowed, if_neg (by simp), if_neg (by omega)] at hstore
      have hlength : done.length + (items.length + 1) + 1 =
          (done ++ [first]).length + items.length + 1 := by
        simp
        omega
      have hindex : done.length + 1 = (done ++ [first]).length := by simp
      have hrest := ih h' hitems.2 (by omega) (by rw [← hlength, ← hindex]; exact hstore)
      rwa [List.append_assoc, List.singleton_append] at hrest

theorem storeAll_some {done items : List (Str × Value)} {item : Str × Value}
    (h : Stored attr done obj repeats firsts protos)
    (hattr : ∀ a ∈ attr, Named a.1)
    (hitems : ∀ other ∈ items ++ [item], Child attr other)
    (hbound : done.length + items.length + 1 < 2 ^ 32)
    (hclear : Clear attr (done ++ items))
    (hproto : ∀ other ∈ done ++ items, other.1 ≠ "__proto__".toList) :
    ∃ obj', storeAll (done.length + items.length + 1) done.length obj (items ++ [item]) =
      some obj' := by
  have hshadowed : shadowed obj = false := h.not_shadowed hclear.left fun other hother =>
    hproto other (List.mem_append_left _ hother)
  induction items generalizing done obj repeats firsts protos with
  | nil =>
    rw [List.nil_append, storeAll, store_eq, hshadowed, if_neg (by simp)]
    split
    · exact ⟨_, rfl⟩
    · exact ⟨_, rfl⟩
  | cons first items ih =>
    rw [List.cons_append, List.forall_mem_cons] at hitems
    rw [List.append_cons] at hclear hproto
    rw [List.length_cons] at hbound
    obtain ⟨repeats', firsts', protos', h'⟩ := h.place hattr hitems.1 (by omega)
    have hshadowed' := h'.not_shadowed hclear.left fun other hother =>
      hproto other (List.mem_append_left _ hother)
    have hrest := ih h' hitems.2 (by simp; omega) hclear hproto hshadowed'
    have hlength : (done ++ [first]).length + items.length + 1 =
        done.length + (first :: items).length + 1 := by
      simp
      omega
    have hindex : (done ++ [first]).length = done.length + 1 := by simp
    rw [hlength, hindex] at hrest
    rw [List.cons_append, storeAll, store_eq, hshadowed, if_neg (by simp),
      if_neg (by rw [List.length_cons]; omega)]
    exact hrest

end Run

end Starfall.Xml2Json
