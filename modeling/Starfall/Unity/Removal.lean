import Starfall.Unity.World

/-! Removing while counting.  The loop of `UpdateDestroyEntities` goes on behind the index at which
it removed an object, and so skips the object that moved there.  Of two neighbours with the id of a
record, one is left. -/

namespace Starfall.Unity.World

variable {F : Type}

/-- No two objects with the session id stand next to each other. -/
def NoNeighbours (sessionid : UInt32) (objects : List (Entity F)) : Prop :=
  objects.IsChain fun obj next => obj.sessionid = sessionid → next.sessionid ≠ sessionid

/-- The objects that the records do not name, and the player's own. -/
def remaining (own : Entity F) (objects : List (Entity F)) (queue : List DestroyEntityStruct) :
    List (Entity F) :=
  objects.filter fun obj => obj.sessionid = own.sessionid ∨ ⟨obj.sessionid⟩ ∉ queue

/-- When the last record of the queue with its id is taken, no two objects with the id are
neighbours among the objects that the records before it left. -/
def Apart (own : Entity F) (objects : List (Entity F)) : List DestroyEntityStruct → Prop
  | [] => True
  | d :: queue => Apart own objects queue ∧ (d.sessionid ≠ own.sessionid → d ∉ queue →
      NoNeighbours d.sessionid (remaining own objects queue))

instance (sessionid : UInt32) : (objects : List (Entity F)) →
    Decidable (NoNeighbours sessionid objects) := fun objects =>
  inferInstanceAs (Decidable (objects.IsChain _))

instance (own : Entity F) (objects : List (Entity F)) :
    (queue : List DestroyEntityStruct) → Decidable (Apart own objects queue)
  | [] => .isTrue trivial
  | _ :: queue =>
    have := instDecidableApart own objects queue
    inferInstanceAs (Decidable (_ ∧ _))

theorem noNeighbours_cons_ne {sessionid : UInt32} {obj : Entity F} (objects : List (Entity F))
    (h : obj.sessionid ≠ sessionid) :
    NoNeighbours sessionid (obj :: objects) ↔ NoNeighbours sessionid objects := by
  cases objects with
  | nil => exact iff_of_true (.singleton obj) .nil
  | cons next objects =>
    rw [NoNeighbours, List.isChain_cons_cons]
    exact and_iff_right fun hid => absurd hid h

theorem noNeighbours_cons_eq {sessionid : UInt32} {obj : Entity F} (next : Entity F)
    (objects : List (Entity F)) (h : obj.sessionid = sessionid) :
    NoNeighbours sessionid (obj :: next :: objects) ↔
      next.sessionid ≠ sessionid ∧ NoNeighbours sessionid objects := by
  rw [NoNeighbours, List.isChain_cons_cons]
  constructor
  · rintro ⟨hnext, hchain⟩
    exact ⟨hnext h, (noNeighbours_cons_ne objects (hnext h)).mp hchain⟩
  · rintro ⟨hnext, hchain⟩
    exact ⟨fun _ => hnext, (noNeighbours_cons_ne objects hnext).mpr hchain⟩

theorem noNeighbours_of_ne {sessionid : UInt32} {objects : List (Entity F)}
    (h : ∀ obj ∈ objects, obj.sessionid ≠ sessionid) : NoNeighbours sessionid objects := by
  induction objects with
  | nil => exact .nil
  | cons obj objects ih =>
    rw [List.forall_mem_cons] at h
    exact (noNeighbours_cons_ne objects h.1).mpr (ih h.2)

/-- The objects without the session id. -/
def others (sessionid : UInt32) (objects : List (Entity F)) : List (Entity F) :=
  objects.filter fun obj => obj.sessionid ≠ sessionid

theorem others_cons_ne {sessionid : UInt32} {obj : Entity F} (objects : List (Entity F))
    (h : obj.sessionid ≠ sessionid) :
    others sessionid (obj :: objects) = obj :: others sessionid objects :=
  List.filter_cons_of_pos (decide_eq_true h)

theorem others_cons_eq {sessionid : UInt32} {obj : Entity F} (objects : List (Entity F))
    (h : obj.sessionid = sessionid) :
    others sessionid (obj :: objects) = others sessionid objects :=
  List.filter_cons_of_neg (by rwa [decide_eq_true_eq, not_not])

theorem others_cons (sessionid : UInt32) (obj : Entity F) {objects objects' : List (Entity F)}
    (h : others sessionid objects = others sessionid objects') :
    others sessionid (obj :: objects) = others sessionid (obj :: objects') := by
  by_cases hid : obj.sessionid = sessionid
  · rw [others_cons_eq objects hid, others_cons_eq objects' hid, h]
  · rw [others_cons_ne objects hid, others_cons_ne objects' hid, h]

theorem removeAll_own (own : Entity F) (objects : List (Entity F)) :
    removeAll (some own) own.sessionid objects = some objects := by
  fun_induction removeAll (some own) own.sessionid objects with
  | case1 => rfl
  | case2 _ _ _ hown => cases hown
  | case3 obj hid own' hown hne =>
    cases hown
    exact absurd rfl hne
  | case4 obj hid own' hown hne next rest ih =>
    cases hown
    exact absurd rfl hne
  | case5 obj objects hid own' hown hne ih =>
    cases hown
    rw [ih, Option.map_some]
  | case6 obj objects hid ih => rw [ih, Option.map_some]

/-- The loop takes away nothing but objects with the id. -/
theorem removeAll_others {own : Entity F} {sessionid : UInt32} {objects objects' : List (Entity F)}
    (h : removeAll (some own) sessionid objects = some objects') :
    others sessionid objects' = others sessionid objects := by
  fun_induction removeAll (some own) sessionid objects generalizing objects' with
  | case1 =>
    cases h
    rfl
  | case2 => cases h
  | case3 obj hid own hown hne =>
    cases h
    exact (others_cons_eq [] hid).symm
  | case4 obj hid own hown hne next rest ih =>
    cases hown
    obtain ⟨rest', hrest, rfl⟩ := Option.map_eq_some_iff.mp h
    rw [others_cons_eq _ hid]
    exact others_cons sessionid next (ih hrest)
  | case5 obj objects hid own hown hne ih =>
    cases hown
    obtain ⟨rest', hrest, rfl⟩ := Option.map_eq_some_iff.mp h
    exact others_cons sessionid obj (ih hrest)
  | case6 obj objects hid ih =>
    obtain ⟨rest', hrest, rfl⟩ := Option.map_eq_some_iff.mp h
    exact others_cons sessionid obj (ih hrest)

theorem map_cons_eq_some_cons {A : Type} {x : Option (List A)} {a : A} {as : List A} :
    x.map (a :: ·) = some (a :: as) ↔ x = some as := by
  cases x <;> simp

/-- The loop takes away all objects with the id just when no two of them are neighbours. -/
theorem removeAll_eq_iff {own : Entity F} {sessionid : UInt32} (hne : sessionid ≠ own.sessionid)
    (objects : List (Entity F)) :
    removeAll (some own) sessionid objects = some (others sessionid objects) ↔
      NoNeighbours sessionid objects := by
  fun_induction removeAll (some own) sessionid objects with
  | case1 => exact iff_of_true rfl .nil
  | case2 _ _ _ hown => cases hown
  | case3 obj hid own' hown hne' =>
    exact iff_of_true (congrArg some (others_cons_eq [] hid).symm) (.singleton obj)
  | case4 obj hid own' hown hne' next rest ih =>
    cases hown
    rw [noNeighbours_cons_eq next rest hid, others_cons_eq _ hid]
    by_cases hnext : next.sessionid = sessionid
    · refine iff_of_false (fun h => ?_) fun h => h.1 hnext
      obtain ⟨rest', hrest, hresult⟩ := Option.map_eq_some_iff.mp h
      have hmem : next ∈ others sessionid (next :: rest) := hresult ▸ List.mem_cons_self
      exact of_decide_eq_true (List.mem_filter.mp hmem).2 hnext
    · rw [others_cons_ne rest hnext, map_cons_eq_some_cons, ih]
      exact (and_iff_right hnext).symm
  | case5 obj objects hid own' hown heq ih =>
    cases hown
    exact absurd hne heq
  | case6 obj objects hid ih =>
    rw [noNeighbours_cons_ne objects hid, others_cons_ne objects hid, map_cons_eq_some_cons]
    exact ih

theorem remaining_cons (own : Entity F) (objects : List (Entity F)) (d : DestroyEntityStruct)
    (queue : List DestroyEntityStruct) (hne : d.sessionid ≠ own.sessionid) :
    remaining own objects (d :: queue) = others d.sessionid (remaining own objects queue) := by
  rw [remaining, remaining, others, List.filter_filter]
  refine List.filter_congr fun obj _ => ?_
  obtain ⟨id⟩ := d
  by_cases hown : obj.sessionid = own.sessionid
  · simp [hown, Ne.symm hne]
  · simp [hown]

theorem remaining_cons_own (own : Entity F) (objects : List (Entity F)) {d : DestroyEntityStruct}
    (queue : List DestroyEntityStruct) (h : d.sessionid = own.sessionid) :
    remaining own objects (d :: queue) = remaining own objects queue := by
  refine List.filter_congr fun obj _ => ?_
  obtain ⟨id⟩ := d
  by_cases hown : obj.sessionid = own.sessionid
  · simp [hown]
  · simp [hown, show obj.sessionid ≠ id from fun hid => hown (hid.trans h)]

/-- The records take away no object that they do not name. -/
theorem destroyAll_remaining {own : Entity F} {objects objects' : List (Entity F)}
    {queue : List DestroyEntityStruct} (h : destroyAll (some own) objects queue = some objects') :
    remaining own objects' queue = remaining own objects queue := by
  induction queue generalizing objects' with
  | nil =>
    cases h
    rfl
  | cons d queue ih =>
    obtain ⟨mid, hmid, h⟩ := Option.bind_eq_some_iff.mp h
    by_cases hown : d.sessionid = own.sessionid
    · rw [hown, removeAll_own] at h
      cases h
      rw [remaining_cons_own own _ queue hown, remaining_cons_own own _ queue hown]
      exact ih hmid
    · rw [remaining_cons own _ d queue hown, remaining_cons own _ d queue hown, ← ih hmid]
      have hothers := removeAll_others h
      unfold remaining others at *
      rw [List.filter_comm, hothers, List.filter_comm]

/-- While the objects of a record are apart, the loops take away just the named objects. -/
theorem destroyAll_of_apart {own : Entity F} {objects : List (Entity F)}
    {queue : List DestroyEntityStruct} (h : Apart own objects queue) :
    destroyAll (some own) objects queue = some (remaining own objects queue) := by
  induction queue with
  | nil => simp [destroyAll, remaining]
  | cons d queue ih =>
    rw [destroyAll, ih h.1, Option.bind_eq_bind, Option.bind_some]
    by_cases hown : d.sessionid = own.sessionid
    · rw [hown, removeAll_own, remaining_cons_own own objects queue hown]
    · rw [remaining_cons own objects d queue hown, removeAll_eq_iff hown]
      by_cases hmem : d ∈ queue
      · refine noNeighbours_of_ne fun obj hobj hid => ?_
        rcases of_decide_eq_true (List.mem_filter.mp hobj).2 with hkept | hkept
        · exact hown (hid.symm.trans hkept)
        · exact hkept (hid ▸ hmem)
      · exact h.2 hown hmem

/-- Without a second record for an id, nothing makes up for a skipped object. -/
theorem apart_of_destroyAll {own : Entity F} {objects : List (Entity F)}
    {queue : List DestroyEntityStruct} (nodup : queue.Nodup)
    (h : destroyAll (some own) objects queue = some (remaining own objects queue)) :
    Apart own objects queue := by
  induction queue with
  | nil => trivial
  | cons d queue ih =>
    obtain ⟨hnew, nodup⟩ := List.nodup_cons.mp nodup
    obtain ⟨mid, hmid, h⟩ := Option.bind_eq_some_iff.mp h
    by_cases hown : d.sessionid = own.sessionid
    · rw [hown, removeAll_own, remaining_cons_own own objects queue hown] at h
      cases h
      exact ⟨ih nodup hmid, fun hne => absurd hown hne⟩
    · rw [remaining_cons own objects d queue hown] at h
      have hothers := removeAll_others h
      have hself : remaining own mid queue = mid := by
        refine List.filter_eq_self.mpr fun obj hobj => ?_
        by_cases hid : obj.sessionid = d.sessionid
        · exact decide_eq_true (.inr (hid ▸ hnew))
        · have hleft : obj ∈ others d.sessionid mid :=
            List.mem_filter.mpr ⟨hobj, decide_eq_true hid⟩
          rw [← hothers] at hleft
          exact (List.mem_filter.mp (List.mem_filter.mp (List.mem_filter.mp hleft).1).1).2
      have hremaining := hself.symm.trans (destroyAll_remaining hmid)
      rw [hremaining] at hmid h
      exact ⟨ih nodup hmid, fun _ _ => (removeAll_eq_iff hown _).mp h⟩

/-- `UpdateDestroyEntities` empties its queue and takes away the objects that it names, and no
others. -/
def Destroys (w : World F) (own : Entity F) : Prop :=
  w.updateDestroyEntities = some { w with
    objects := remaining own w.objects w.user.destroyEntityQueue
    user := { w.user with destroyEntityQueue := [] } }

theorem destroys_iff {w : World F} {own : Entity F} (hown : w.entity = some own) :
    Destroys w own ↔ destroyAll (some own) w.objects w.user.destroyEntityQueue =
      some (remaining own w.objects w.user.destroyEntityQueue) := by
  unfold Destroys updateDestroyEntities
  rw [hown]
  constructor
  · intro h
    obtain ⟨objects, hobjects, h⟩ := Option.bind_eq_some_iff.mp h
    rw [hobjects, show objects = _ from congrArg World.objects (Option.some.inj h)]
  · intro h
    rw [h]
    rfl

/-- While the objects that a record names are apart from each other, all and only the named objects
are destroyed; and only then, when no record is there twice. -/
theorem destroys_named {w : World F} {own : Entity F} (hown : w.entity = some own) :
    (Apart own w.objects w.user.destroyEntityQueue → Destroys w own) ∧
      (w.user.destroyEntityQueue.Nodup → Destroys w own →
        Apart own w.objects w.user.destroyEntityQueue) := by
  rw [destroys_iff hown]
  exact ⟨destroyAll_of_apart, apart_of_destroyAll⟩

def object (sessionid : UInt32) : Entity UInt32 :=
  ⟨⟨⟨0, 0, 0⟩, ⟨0, 0, 0, 1⟩⟩, [], 0, sessionid, some ⟨none, []⟩⟩

/-- A world with the player's entity 1 and the objects of the ids, and a record for the entity 2. -/
def stale (ids : List UInt32) : World UInt32 :=
  ⟨object 1 :: ids.map object, some (object 1), ⟨0, 0, [], [], [⟨2⟩]⟩⟩

theorem single_destroys : Destroys (stale [2, 3, 2]) (object 1) :=
  (destroys_named rfl).1 (by decide)

/-- Of two neighbours, the second one is skipped. -/
theorem neighbour_skipped :
    (stale [2, 2]).updateDestroyEntities.map ids = some [1, 2] ∧
      ¬Destroys (stale [2, 2]) (object 1) := by
  refine ⟨rfl, fun h => ?_⟩
  exact absurd (congrArg (Option.map ids) h) (by decide)

end Starfall.Unity.World
