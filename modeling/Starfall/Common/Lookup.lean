import Starfall.Common.Registry

/-! Lookups in the entity map while other threads create and remove entities.  A lookup finds its
entity under the mutex of the map, and copies it after it has released the mutex.  `operator[]`
files a null pointer under an id that is missing, so that the map has entities only as long as every
lookup finds its id. -/

namespace Starfall.Lookup

open ProofKit.Runs

variable {F T : Type}

/-- `FindCreateEntityStruct` or `FindTransformEntityStruct`. -/
inductive Find
  | createEntityStruct
  | transformEntityStruct
  deriving DecidableEq, Repr

/-- How a lookup ends.  `Player::createEntity` and `Player::transformEntity` catch a
`NotFoundException`. -/
inductive Answer (F : Type)
  | createEntityStruct (c : CreateEntityStruct F)
  | transformEntityStruct (t : TransformEntityStruct F)
  | notFoundException
  | nullPointerException
  deriving DecidableEq, Repr

def Find.cast (find : Find) (e : Entity F) : Answer F :=
  match find with
  | .createEntityStruct => .createEntityStruct e.castCreateEntityStruct
  | .transformEntityStruct => .transformEntityStruct e.castTransformEntityStruct

/-- A lookup that has released the mutex of the map, with the pointer that it found. -/
structure Found where
  find : Find
  sessionid : UInt32
  pEntity : Option Nat
  deriving DecidableEq, Repr

/-- The end of a lookup: `->` throws on a null pointer. -/
def Found.answer (found : Found) (heap : List (Entity F)) : Option (Answer F) :=
  match found.pEntity with
  | some p => heap[p]?.map found.find.cast
  | none => some .nullPointerException

/-- The registry, the lookup that each thread is in, and the lookups that have ended. -/
structure State (F T : Type) where
  registry : Registry F
  pending : T → Option Found
  answers : List (Found × Answer F)

inductive Event (F T : Type)
  | create (transform : Transform F) (sessionid : UInt32)
  | remove (sessionid : UInt32)
  | keys
  /-- The part of a lookup under the mutex of the map. -/
  | lookup (t : T) (find : Find) (sessionid : UInt32)
  | answer (t : T)
  deriving DecidableEq, Repr

section Steps

variable [DecidableEq T]

def next (s : State F T) : Event F T → Option (State F T)
  | .create transform sessionid => some { s with
      registry := (s.registry.create transform sessionid).2 }
  | .remove sessionid => some { s with registry := s.registry.remove sessionid }
  | .keys => some s
  | .lookup t find sessionid =>
    match s.pending t with
    | none =>
      let (pEntity, map) := s.registry.map.subscript sessionid
      some { s with
        registry := { s.registry with map }
        pending := Function.update s.pending t (some ⟨find, sessionid, pEntity⟩) }
    | some _ => none
  | .answer t =>
    match s.pending t with
    | none => none
    | some found => do
      let answer ← found.answer s.registry.heap
      some { s with
        pending := Function.update s.pending t none
        answers := s.answers ++ [(found, answer)] }

/-- The functions of the map, called by any threads in any order. -/
def lookups : System (State F T) (Event F T) where
  init s := s = ⟨.empty, fun _ => none, []⟩
  step s e s' := next s e = some s'

end Steps

/-- The pointer is to an entity with the session id. -/
def PointsTo (heap : List (Entity F)) (pEntity : Option Nat) (sessionid : UInt32) : Prop :=
  ∃ p e, pEntity = some p ∧ heap[p]? = some e ∧ e.sessionid = sessionid

/-- Every entry of the map is an entity under its own session id. -/
def Sound (s : State F T) : Prop :=
  ∀ sessionid pEntity, s.registry.map.lookup sessionid = some pEntity →
    PointsTo s.registry.heap pEntity sessionid

/-- The map is sound after the event, and the same after the lookup of an id that was missing. -/
def Harmless (s : State F T) (e : Event F T) (s' : State F T) : Prop :=
  Sound s' ∧ ∀ t find sessionid, e = .lookup t find sessionid → sessionid ∉ s.registry.map →
    s'.registry.map = s.registry.map

/-- A lookup finds its id. -/
def Filed (s : State F T) : Event F T → Prop
  | .lookup _ _ sessionid => sessionid ∈ s.registry.map
  | _ => True

/-- What holds of the map and of the lookups. -/
structure Consistent (s : State F T) : Prop where
  sound : Sound s
  pending : ∀ t found, s.pending t = some found →
    PointsTo s.registry.heap found.pEntity found.sessionid
  answers : ∀ found answer, (found, answer) ∈ s.answers →
    ∃ e ∈ s.registry.heap, e.sessionid = found.sessionid ∧ answer = found.find.cast e

theorem PointsTo.append {heap : List (Entity F)} {pEntity : Option Nat} {sessionid : UInt32}
    (h : PointsTo heap pEntity sessionid) (more : List (Entity F)) :
    PointsTo (heap ++ more) pEntity sessionid := by
  obtain ⟨p, e, hp, he, hsessionid⟩ := h
  refine ⟨p, e, hp, ?_, hsessionid⟩
  rw [List.getElem?_append_left (List.getElem?_eq_some_iff.mp he).1]
  exact he

theorem subscript_of_mem {V : Type} [Inhabited V] {map : HashMap V} {key : UInt32}
    (h : key ∈ map) : ∃ v, map.lookup key = some v ∧ map.subscript key = (v, map) := by
  obtain ⟨v, hv⟩ := Option.isSome_iff_exists.mp (AList.lookup_isSome.mpr h)
  exact ⟨v, hv, by rw [HashMap.subscript, hv]⟩

theorem subscript_of_not_mem {V : Type} [Inhabited V] {map : HashMap V} {key : UInt32}
    (h : key ∉ map) : map.subscript key = (default, map.insert key default) := by
  rw [HashMap.subscript, AList.lookup_eq_none.mpr h]

section Steps

variable [DecidableEq T] {s s' : State F T}

omit [DecidableEq T] in
theorem consistent_create (h : Consistent s) (transform : Transform F) (sessionid : UInt32) :
    Consistent { s with registry := (s.registry.create transform sessionid).2 } where
  sound id pEntity hlookup := by
    show PointsTo (s.registry.heap ++ [_]) pEntity id
    by_cases hid : id = sessionid
    · subst hid
      have own : pEntity = some s.registry.heap.length := by
        have inserted :=
          AList.lookup_insert (a := id) (b := some s.registry.heap.length) s.registry.map
        exact Option.some.inj (hlookup.symm.trans inserted)
      exact ⟨s.registry.heap.length, _, own, List.getElem?_concat_length, rfl⟩
    · have old : s.registry.map.lookup id = some pEntity :=
        (AList.lookup_insert_ne hid).symm.trans hlookup
      exact (h.sound id pEntity old).append _
  pending t found hfound := (h.pending t found hfound).append _
  answers found answer hanswer := by
    obtain ⟨e, he, hsame⟩ := h.answers found answer hanswer
    exact ⟨e, List.mem_append_left _ he, hsame⟩

theorem consistent_lookup (h : Consistent s) {t : T} {find : Find} {sessionid : UInt32}
    (filed : sessionid ∈ s.registry.map) (step : next s (.lookup t find sessionid) = some s') :
    Consistent s' ∧ s'.registry.map = s.registry.map := by
  obtain ⟨pEntity, hlookup, hsubscript⟩ := subscript_of_mem filed
  simp only [next] at step
  split at step
  · rw [hsubscript] at step
    cases step
    refine ⟨⟨h.sound, fun u found hfound => ?_, h.answers⟩, rfl⟩
    by_cases hu : u = t
    · subst hu
      have here : Function.update s.pending u (some ⟨find, sessionid, pEntity⟩) u = some found :=
        hfound
      rw [Function.update_self] at here
      cases here
      exact h.sound sessionid pEntity hlookup
    · have other : Function.update s.pending t (some ⟨find, sessionid, pEntity⟩) u = some found :=
        hfound
      rw [Function.update_of_ne hu] at other
      exact h.pending u found other
  · cases step

theorem consistent_answer (h : Consistent s) {t : T} (step : next s (.answer t) = some s') :
    Consistent s' := by
  simp only [next] at step
  split at step
  · cases step
  · rename_i found hfound
    obtain ⟨p, e, hp, he, hsessionid⟩ := h.pending t found hfound
    have hanswer : found.answer s.registry.heap = some (found.find.cast e) := by
      rw [Found.answer, hp]
      dsimp only
      rw [he, Option.map_some]
    rw [hanswer] at step
    cases step
    refine ⟨h.sound, fun u other hother => ?_, fun other answer hmem => ?_⟩
    · by_cases hu : u = t
      · subst hu
        have here : Function.update s.pending u none u = some other := hother
        rw [Function.update_self] at here
        cases here
      · have there : Function.update s.pending t none u = some other := hother
        rw [Function.update_of_ne hu] at there
        exact h.pending u other there
    · rcases List.mem_append.mp hmem with hmem | hmem
      · exact h.answers other answer hmem
      · cases List.mem_singleton.mp hmem
        exact ⟨e, List.mem_of_getElem? he, hsessionid, rfl⟩

theorem consistent_step (h : Consistent s) {e : Event F T} (filed : Filed s e)
    (step : next s e = some s') : Consistent s' := by
  cases e with
  | create transform sessionid =>
    cases step
    exact consistent_create h transform sessionid
  | remove sessionid =>
    cases step
    refine { h with sound := fun id pEntity hlookup => ?_ }
    have other : id ≠ sessionid := by
      rintro rfl
      have erased := AList.lookup_erase id s.registry.map
      cases erased.symm.trans hlookup
    exact h.sound id pEntity ((AList.lookup_erase_ne other).symm.trans hlookup)
  | keys =>
    cases step
    exact h
  | lookup t find sessionid => exact (consistent_lookup h filed step).1
  | answer t => exact consistent_answer h step

/-- The lookup of an id that is missing files a null pointer under it. -/
theorem lookup_missing {t : T} {find : Find} {sessionid : UInt32}
    (missing : sessionid ∉ s.registry.map) (step : next s (.lookup t find sessionid) = some s') :
    s'.registry.map.lookup sessionid = some none ∧
      s'.pending t = some ⟨find, sessionid, none⟩ := by
  simp only [next] at step
  split at step
  · rw [subscript_of_not_mem missing] at step
    cases step
    exact ⟨AList.lookup_insert _, Function.update_self _ _ _⟩
  · cases step

theorem harmless_iff (h : Consistent s) {e : Event F T} (step : next s e = some s') :
    Harmless s e s' ↔ Filed s e := by
  constructor
  · rintro ⟨sound, -⟩
    cases e with
    | lookup t find sessionid =>
      by_contra missing
      obtain ⟨hnull, -⟩ := lookup_missing missing step
      obtain ⟨p, e, hp, -⟩ := sound sessionid none hnull
      cases hp
    | create => trivial
    | remove => trivial
    | keys => trivial
    | answer => trivial
  · intro filed
    refine ⟨(consistent_step h filed step).sound, ?_⟩
    rintro t find sessionid rfl missing
    exact absurd filed missing

/-- In every run in which each lookup finds its id, every entry of the map is an entity under its
own session id, and every lookup that has ended returned the struct of an entity with the id.  The
next event does no harm exactly when it is not the lookup of a missing id. -/
theorem lookups_harmless (es : List (Event F T)) (s : State F T)
    (run : ((lookups (F := F) (T := T)).restrict Filed).Run es s) :
    Sound s ∧
    (∀ found answer, (found, answer) ∈ s.answers →
      ∃ e ∈ s.registry.heap, e.sessionid = found.sessionid ∧ answer = found.find.cast e) ∧
    ∀ e s', lookups.step s e s' → (Harmless s e s' ↔ Filed s e) := by
  have consistent : Consistent s := by
    refine run.invariant (I := fun _ s => Consistent s) ?_ ?_
    · rintro s rfl
      exact ⟨fun _ _ h => by simp [Registry.empty] at h, nofun, nofun⟩
    · rintro es s e s' - h ⟨filed, step⟩
      exact consistent_step h filed step
  exact ⟨consistent.sound, consistent.answers, fun e s' step => harmless_iff consistent step⟩

end Steps

theorem found_harmless :
    ∃ s, System.exec next ⟨.empty, fun _ => none, []⟩
        [.create Lobby.origin 5, .lookup () .createEntityStruct 5] = some s ∧
      s.pending () = some ⟨.createEntityStruct, 5, some 0⟩ ∧ Sound s := by
  let create : Event UInt32 Unit := .create Lobby.origin 5
  have start : ((lookups (F := UInt32) (T := Unit)).restrict Filed).Run []
      ⟨.empty, fun _ => none, []⟩ := .nil rfl
  have created := start.snoc (l := create) ⟨trivial, rfl⟩
  have filed : Filed ⟨(Registry.create .empty Lobby.origin 5).2, fun _ => none, []⟩
      (.lookup () .createEntityStruct 5) := AList.mem_insert _ |>.mpr (.inl rfl)
  exact ⟨_, rfl, rfl, (lookups_harmless _ _ (created.snoc ⟨filed, rfl⟩)).1⟩

/-- An entity is removed between the snapshot of the keys and the lookup.  The lookup throws a
`NullPointerException`, and the next snapshot still has the id. -/
theorem vanished_not_harmless :
    ∃ s, System.exec (next (F := UInt32) (T := Unit)) ⟨.empty, fun _ => none, []⟩
        [.create Lobby.origin 5, .keys, .remove 5, .lookup () .transformEntityStruct 5,
          .answer ()] = some s ∧
      s.answers = [(⟨.transformEntityStruct, 5, none⟩, .nullPointerException)] ∧
      s.registry.keys = [5] ∧ s.registry.map.lookup 5 = some none ∧ ¬Sound s := by
  refine ⟨_, rfl, rfl, rfl, rfl, fun sound => ?_⟩
  obtain ⟨p, e, hp, -⟩ := sound 5 none rfl
  cases hp

end Starfall.Lookup
