import Starfall.NativeClient.Scene

/-! The entities behind the game objects of the native client.  Every game object holds the entity
that is filed under its id, but the loop that destroys takes an object from the scene only, and no
entity is ever removed from `Entity::Map`.  So an object request goes on listing it. -/

namespace Starfall.NativeClient.WorldScene

open ProofKit.Runs ProofKit.Batches

variable {F : Type}

/-- The ids of `Entity::Keys`, which an object request lists, are those of the game objects and the
player's own, and each game object holds the entity that is filed under its id. -/
structure Mirrored (s : WorldScene F) : Prop where
  keys : ∀ id, id ∈ s.registry.keys ↔ id ∈ s.objectsMap ∨ s.own = some id
  held : ∀ id pEntity, s.objectsMap.lookup id = some pEntity →
    s.registry.map.lookup id = some (some pEntity)

/-- What holds in the middle of a tick, when the packets have created and destroyed the given ids,
and the player's own id is `own`. -/
structure Filed (creates destroys : List UInt32) (own : UInt32) (s : WorldScene F) : Prop where
  own_eq : s.own = some own
  own_mem : own ∈ s.registry.map
  keys : ∀ id ∈ s.registry.map, id = own ∨ id ∈ creates
  shown : ∀ id ∈ s.objectsMap, id ∈ s.registry.map
  held : ∀ id pEntity, id ∉ destroys → s.objectsMap.lookup id = some pEntity →
    s.registry.map.lookup id = some (some pEntity)
  /-- An entity that replaced the player's has a game object, or had one. -/
  replaced : s.registry.map.lookup own = some (some s.pEntity) ∨ own ∈ s.objectsMap ∨ own ∈ destroys

namespace Filed

variable {creates destroys : List UInt32} {own : UInt32} {s : WorldScene F}

theorem mono {creates' destroys' : List UInt32} (h : Filed creates destroys own s)
    (hcreates : creates ⊆ creates') (hdestroys : destroys ⊆ destroys') :
    Filed creates' destroys' own s where
  own_eq := h.own_eq
  own_mem := h.own_mem
  keys id hid := (h.keys id hid).imp_right (hcreates ·)
  shown := h.shown
  held id pEntity hid := h.held id pEntity fun hmem => hid (hdestroys hmem)
  replaced := h.replaced.imp_right (Or.imp_right (hdestroys ·))

/-- The player's entity gets a game object. -/
theorem showOwn (h : Filed creates destroys own s) (hown : own ∉ s.objectsMap) :
    Filed creates destroys own { s with objectsMap := s.objectsMap.insert own s.pEntity } where
  own_eq := h.own_eq
  own_mem := h.own_mem
  keys := h.keys
  shown id hid := by
    rcases (AList.mem_insert _).mp hid with rfl | hid
    · exact h.own_mem
    · exact h.shown id hid
  held id pEntity hid hlookup := by
    by_cases heq : id = own
    · subst heq
      rw [AList.lookup_insert] at hlookup
      cases hlookup
      exact h.replaced.resolve_right fun hmem => hmem.elim hown hid
    · rw [AList.lookup_insert_ne heq] at hlookup
      exact h.held id pEntity hid hlookup
  replaced := .inr (.inl ((AList.mem_insert _).mpr (.inl rfl)))

/-- A new entity is filed and gets a game object. -/
theorem showNew (h : Filed creates destroys own s) {sessionid : UInt32}
    (hcreate : sessionid ∈ creates) (transform : Transform F) :
    Filed creates destroys own { s with
      registry := (s.registry.create transform sessionid).2
      objectsMap := s.objectsMap.insert sessionid s.registry.heap.length } where
  own_eq := by
    obtain ⟨e, he, -⟩ := Option.map_eq_some_iff.mp h.own_eq
    have hlt := (List.getElem?_eq_some_iff.mp he).1
    exact (Lobby.sessionid_append s.registry hlt _ _ _).trans h.own_eq
  own_mem := (AList.mem_insert _).mpr (.inr h.own_mem)
  keys id hid := by
    rcases (AList.mem_insert _).mp hid with rfl | hid
    · exact .inr hcreate
    · exact h.keys id hid
  shown id hid := by
    rcases (AList.mem_insert _).mp hid with rfl | hid
    · exact (AList.mem_insert _).mpr (.inl rfl)
    · exact (AList.mem_insert _).mpr (.inr (h.shown id hid))
  held id pEntity hid hlookup := by
    by_cases heq : id = sessionid
    · subst heq
      rw [AList.lookup_insert] at hlookup
      cases hlookup
      exact AList.lookup_insert _
    · rw [AList.lookup_insert_ne heq] at hlookup
      exact (AList.lookup_insert_ne heq).trans (h.held id pEntity hid hlookup)
  replaced := by
    by_cases heq : own = sessionid
    · exact .inr (.inl ((AList.mem_insert _).mpr (.inl heq)))
    · refine h.replaced.imp (fun hfiled => ?_) (Or.imp_left fun hshown => ?_)
      · exact (AList.lookup_insert_ne heq).trans hfiled
      · exact (AList.mem_insert _).mpr (.inr hshown)

theorem createRound (h : Filed creates destroys own s) {it : CreateEntityStruct F}
    (hcreate : it.sessionid ∈ creates) (transform : Transform F) (loggedIn : Bool) :
    Filed creates destroys own (createRound transform loggedIn s it) := by
  rcases createRound_cases transform loggedIn s it with ⟨-, hround⟩ | ⟨hnew, hown, hround⟩ |
      ⟨-, hround⟩
  · rwa [hround]
  · rw [h.own_eq, Option.some_inj] at hown
    subst hown
    rw [hround]
    exact h.showOwn hnew
  · rw [hround]
    exact h.showNew hcreate transform

theorem destroyRound (h : Filed creates destroys own s) {it : DestroyEntityStruct}
    (hdestroy : it.sessionid ∈ destroys) : Filed creates destroys own (destroyRound s it) := by
  unfold WorldScene.destroyRound
  split
  · refine { h with shown := ?_, held := ?_, replaced := ?_ }
    · exact fun id hid => h.shown id (AList.mem_erase.mp hid).2
    · intro id pEntity hid hlookup
      have hne : id ≠ it.sessionid := fun heq => hid (heq ▸ hdestroy)
      rw [AList.lookup_erase_ne hne] at hlookup
      exact h.held id pEntity hid hlookup
    · rcases h.replaced with hfiled | hshown | hdestroyed
      · exact .inl hfiled
      · by_cases heq : own = it.sessionid
        · exact .inr (.inr (heq ▸ hdestroy))
        · exact .inr (.inl (AList.mem_erase.mpr ⟨heq, hshown⟩))
      · exact .inr (.inr hdestroyed)
  · exact h

/-- A tick keeps what is filed, and files all that was created. -/
theorem update {packets : List (Batch UInt32)} (h : Filed (added packets) (removed packets) own s)
    (queued : Queued packets s) (transform : Transform F) (loggedIn : Nat → Bool) :
    Filed (added packets) (removed packets) own (s.update transform loggedIn) ∧
      ∀ id ∈ added packets, id ∈ (s.update transform loggedIn).registry.map := by
  have created : Filed (added packets) (removed packets) own
      (createRounds transform loggedIn s.createEntityQueue s) := by
    refine createRounds_preserves (fun loggedIn s' it hit h => ?_) loggedIn h
    exact h.createRound ((queued.creates _).mp (List.mem_map_of_mem hit)) transform loggedIn
  refine destroyRounds_preserves (P := fun s' => Filed (added packets) (removed packets) own s' ∧
    ∀ id ∈ added packets, id ∈ s'.registry.map) ?_ ⟨created, fun id hid => ?_⟩
  · intro s' it hit h
    refine ⟨h.1.destroyRound ((queued.destroys _).mp (List.mem_map_of_mem hit)), fun id hid => ?_⟩
    unfold WorldScene.destroyRound
    split
    · exact h.2 id hid
    · exact h.2 id hid
  · apply created.shown
    rw [createRounds_objectsMap]
    exact .inr ((queued.creates id).mpr hid)

end Filed

theorem scene_filed {es : List (Event F)} {s : WorldScene F} (run : scene.Run es s) :
    ∃ own, Filed (added (received es)) (removed (received es)) own s := by
  refine run.invariant (I := fun es s =>
    ∃ own, Filed (added (received es)) (removed (received es)) own s) ?_ ?_
  · rintro s ⟨r, transform, hmap, rfl⟩
    refine ⟨r.id + 1, ?_⟩
    rw [Lobby.createPlayer_eq, hmap]
    refine ⟨Lobby.sessionid_last _ _ _ _, (AList.mem_insert _).mpr (.inl rfl), ?_, nofun, ?_,
      .inl (AList.lookup_insert _)⟩
    · intro id hid
      rcases (AList.mem_insert _).mp hid with rfl | hid
      · exact .inl rfl
      · exact absurd hid (AList.notMem_empty id)
    · intro id pEntity _ hlookup
      cases hlookup
  · rintro es s e s' run' ⟨own, h⟩ rfl
    refine ⟨own, ?_⟩
    cases e with
    | objectsReply updateStruct =>
      rw [received_objectsReply]
      have later : Filed (added (received es)) (removed (received es)) own
          (s.objectsReply updateStruct) := { h with }
      refine later.mono ?_ ?_
      · rw [added, added, List.flatMap_append]
        exact List.subset_append_left _ _
      · rw [removed, removed, List.flatMap_append]
        exact List.subset_append_left _ _
    | update transform loggedIn =>
      rw [received_update]
      exact (h.update (scene_queued run') transform loggedIn).1

/-- After a tick the request lists just the game objects and the player's entity, exactly when no id
but the player's own is both created and destroyed by the packets. -/
theorem mirrored_iff (es : List (Event F)) (s s' : WorldScene F) (transform : Transform F)
    (loggedIn : Nat → Bool) (run : scene.Run es s)
    (tick : scene.step s (.update transform loggedIn) s') :
    Mirrored s' ↔ ∀ id ∈ added (received es), id ∈ removed (received es) → s.own = some id := by
  obtain ⟨own, h⟩ := scene_filed run
  have queued := scene_queued run
  obtain ⟨filed, hcreated⟩ := h.update queued transform loggedIn
  have shown (id : UInt32) : id ∈ s'.objectsMap ↔ id ∈ merged (received es) := by
    rw [tick]
    exact queued.mem_update transform loggedIn
  replace filed : Filed (added (received es)) (removed (received es)) own s' := tick ▸ filed
  replace hcreated : ∀ id ∈ added (received es), id ∈ s'.registry.map := tick ▸ hcreated
  rw [h.own_eq]
  constructor
  · rintro ⟨hkeys, -⟩ id hadded hremoved
    rcases (hkeys id).mp (hcreated id hadded) with hshown | hown
    · exact absurd hremoved (mem_merged.mp ((shown id).mp hshown)).2
    · exact filed.own_eq.symm.trans hown
  · intro hown
    refine ⟨fun id => ⟨fun hid => ?_, fun hid => ?_⟩, fun id pEntity hlookup => ?_⟩
    · rcases filed.keys id hid with rfl | hadded
      · exact .inr filed.own_eq
      by_cases hremoved : id ∈ removed (received es)
      · exact .inr (filed.own_eq.trans (hown id hadded hremoved))
      · exact .inl ((shown id).mpr (mem_merged.mpr ⟨hadded, hremoved⟩))
    · rcases hid with hshown | hid
      · exact filed.shown id hshown
      · rw [filed.own_eq, Option.some_inj] at hid
        exact hid ▸ filed.own_mem
    · have hmem : id ∈ s'.objectsMap := AList.lookup_isSome.mp (by rw [hlookup]; rfl)
      exact filed.held id pEntity (mem_merged.mp ((shown id).mp hmem)).2 hlookup

theorem appears_mirrored : ∃ s s', scene.Run [appears] s ∧ scene.step s tick s' ∧
    2 ∈ s'.objectsMap ∧ Mirrored s' := by
  have run := (System.Run.nil newScene_init).snoc (l := appears) rfl
  refine ⟨_, _, run, rfl, ?_, (mirrored_iff _ _ _ _ _ run rfl).mpr ?_⟩
  · exact (update_objectsMap _ _ _).mpr ⟨.inr (by decide), by decide⟩
  · exact fun id _ hremoved => absurd hremoved (List.not_mem_nil)

/-- A request goes on listing an entity that was destroyed. -/
theorem disappears_listed : ∃ s s', scene.Run [appears, disappears] s ∧ scene.step s tick s' ∧
    2 ∈ s'.registry.keys ∧ 2 ∉ s'.objectsMap ∧ s'.own = some 1 ∧ ¬Mirrored s' := by
  have run := ((System.Run.nil newScene_init).snoc (l := appears) rfl).snoc (l := disappears) rfl
  have listed : 2 ∈ (next (next (next newScene appears) disappears) tick).registry.keys := by
    decide
  have hidden : 2 ∉ (next (next (next newScene appears) disappears) tick).objectsMap := by
    decide
  have own : (next (next (next newScene appears) disappears) tick).own = some 1 := rfl
  refine ⟨_, _, run, rfl, listed, hidden, own, fun h => ?_⟩
  rcases (h.keys 2).mp listed with hshown | hown
  · exact hidden hshown
  · exact absurd (own.symm.trans hown) (by decide)

end Starfall.NativeClient.WorldScene
