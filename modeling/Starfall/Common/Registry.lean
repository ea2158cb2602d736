import Mathlib.Data.List.AList
import Starfall.Common.Player
import Starfall.ProofKit.Runs

/-! `IDGenerator.cpp`, and the entity map of `Entity.cpp` with pointers to entities as its values.
The ids come from a counter that goes round without an exception.  So the map has exactly the
entities of the live players as long as the counter has not gone round. -/

namespace Starfall

open ProofKit.Runs

variable {F : Type}

/-- A `Poco::HashMap` under session ids. -/
abbrev HashMap (V : Type) := AList fun _ : UInt32 => V

/-- `operator[]`, which inserts a default value for a key that is missing. -/
def HashMap.subscript {V : Type} [Inhabited V] (map : HashMap V) (key : UInt32) : V × HashMap V :=
  match map.lookup key with
  | some v => (v, map)
  | none => (default, map.insert key default)

/-- The entities that were allocated, `Entity::Map`, and `IDGenerator::id`.  A pointer is the place
of its entity, and `none` is a null pointer. -/
structure Registry (F : Type) where
  heap : List (Entity F)
  map : HashMap (Option Nat)
  id : UInt32

namespace Registry

def empty : Registry F := ⟨[], ∅, 0⟩

/-- `IDGenerator::Next`. -/
def next (r : Registry F) : UInt32 × Registry F := (r.id + 1, { r with id := r.id + 1 })

/-- `Entity::Create`, with the transform that `glm` gives a new entity. -/
def create (r : Registry F) (transform : Transform F) (sessionid : UInt32) : Nat × Registry F :=
  let entity : Entity F := { transform with displayName := [], mode := 0, sessionid, path := [] }
  (r.heap.length, { r with
    heap := r.heap ++ [entity], map := r.map.insert sessionid (some r.heap.length) })

/-- `Entity::Keys`. -/
def keys (r : Registry F) : List UInt32 := r.map.keys

/-- `Entity::Remove`. -/
def remove (r : Registry F) (sessionid : UInt32) : Registry F :=
  { r with map := r.map.erase sessionid }

/-- `Player::Create`, as far as the player's entity is concerned. -/
def createPlayer (r : Registry F) (transform : Transform F) : Nat × Registry F :=
  let (sessionid, r) := r.next
  let (pEntity, r) := r.create transform sessionid
  (pEntity, { r with
    heap := r.heap.modify pEntity fun e =>
      { e with displayName := Player.initialName, mode := 2 } })

/-- `Player::~Player`. -/
def destroyPlayer (r : Registry F) (pEntity : Nat) : Registry F :=
  match r.heap[pEntity]? with
  | some e => r.remove e.sessionid
  | none => r

def sessionid (r : Registry F) (p : Nat) : Option UInt32 := r.heap[p]?.map Entity.sessionid

end Registry

/-- The registry, and the entities of the live players. -/
structure Lobby (F : Type) where
  registry : Registry F
  players : List Nat

namespace Lobby

inductive Event (F : Type)
  | create (transform : Transform F)
  | destroy (pEntity : Nat)
  deriving DecidableEq, Repr

def next (s : Lobby F) : Event F → Option (Lobby F)
  | .create transform =>
    let (pEntity, registry) := s.registry.createPlayer transform
    some ⟨registry, s.players ++ [pEntity]⟩
  | .destroy pEntity =>
    if pEntity ∈ s.players then
      some ⟨s.registry.destroyPlayer pEntity, s.players.erase pEntity⟩
    else none

def lobby : System (Lobby F) (Event F) where
  init s := s = ⟨.empty, []⟩
  step s e s' := next s e = some s'

/-- The ids of the live players are not 0, no id was handed out twice, and the map has exactly the
ids of the live players, each with the player's own entity. -/
structure Registered (s : Lobby F) : Prop where
  nonzero : ∀ p ∈ s.players, ∃ sessionid, s.registry.sessionid p = some sessionid ∧ sessionid ≠ 0
  distinct : (s.players.map s.registry.sessionid).Nodup
  issued : (s.registry.heap.map Entity.sessionid).Nodup
  filed : ∀ sessionid p, s.registry.map.lookup sessionid = some p ↔
    ∃ q ∈ s.players, p = some q ∧ s.registry.sessionid q = some sessionid

/-- Not all the ids were handed out when a player is created. -/
def Fresh (s : Lobby F) : Event F → Prop
  | .create _ => s.registry.id ≠ 0xFFFFFFFF
  | .destroy _ => True

/-- The counter is the number of the entities, and each has the number of its place. -/
structure Counted (s : Lobby F) : Prop where
  count : s.registry.heap.length = s.registry.id.toNat
  place : ∀ p e, s.registry.heap[p]? = some e → e.sessionid.toNat = p + 1
  live : ∀ p ∈ s.players, p < s.registry.heap.length
  nodup : s.players.Nodup
  filed : ∀ sessionid p, s.registry.map.lookup sessionid = some p ↔
    ∃ q ∈ s.players, p = some q ∧ s.registry.sessionid q = some sessionid

theorem createPlayer_eq (r : Registry F) (transform : Transform F) :
    r.createPlayer transform = (r.heap.length, {
      heap := r.heap ++ [{ transform with
        displayName := Player.initialName, mode := 2, sessionid := r.id + 1, path := [] }]
      map := r.map.insert (r.id + 1) (some r.heap.length)
      id := r.id + 1 }) := by
  simp [Registry.createPlayer, Registry.next, Registry.create, List.modify_eq_take_cons_drop]

theorem sessionid_append (r : Registry F) {p : Nat} (h : p < r.heap.length) (e : Entity F)
    (map : HashMap (Option Nat)) (id : UInt32) :
    Registry.sessionid ⟨r.heap ++ [e], map, id⟩ p = r.sessionid p := by
  rw [Registry.sessionid, Registry.sessionid, List.getElem?_append_left h]

theorem sessionid_last (r : Registry F) (e : Entity F) (map : HashMap (Option Nat)) (id : UInt32) :
    Registry.sessionid ⟨r.heap ++ [e], map, id⟩ r.heap.length = some e.sessionid := by
  rw [Registry.sessionid, List.getElem?_concat_length]
  rfl

namespace Counted

variable {s : Lobby F}

theorem sessionid_place (h : Counted s) {p : Nat} {sessionid : UInt32}
    (hp : s.registry.sessionid p = some sessionid) : sessionid.toNat = p + 1 := by
  obtain ⟨e, he, rfl⟩ := Option.map_eq_some_iff.mp hp
  exact h.place p e he

theorem sessionid_live (h : Counted s) {p : Nat} (hp : p ∈ s.players) :
    ∃ sessionid, s.registry.sessionid p = some sessionid := by
  rw [Registry.sessionid, List.getElem?_eq_getElem (h.live p hp)]
  exact ⟨_, rfl⟩

theorem registered (h : Counted s) : Registered s where
  nonzero p hp := by
    obtain ⟨sessionid, hsessionid⟩ := h.sessionid_live hp
    refine ⟨sessionid, hsessionid, fun hzero => ?_⟩
    have := h.sessionid_place hsessionid
    rw [hzero] at this
    exact Nat.succ_ne_zero p this.symm
  distinct := by
    refine h.nodup.map_on fun p hp q hq hsame => ?_
    obtain ⟨sessionid, hsessionid⟩ := h.sessionid_live hp
    have first := h.sessionid_place hsessionid
    have second := h.sessionid_place (hsame ▸ hsessionid)
    omega
  issued := by
    have numbers : (s.registry.heap.map Entity.sessionid).map UInt32.toNat =
        List.range' 1 s.registry.heap.length := by
      refine List.ext_getElem (by simp) fun p hp _ => ?_
      rw [List.length_map, List.length_map] at hp
      have := h.place p _ (List.getElem?_eq_getElem hp)
      simp only [List.getElem_map, List.getElem_range', Nat.one_mul]
      omega
    refine List.Nodup.of_map UInt32.toNat ?_
    rw [numbers]
    exact List.nodup_range'
  filed := h.filed

theorem create (h : Counted s) (fresh : s.registry.id ≠ 0xFFFFFFFF) {transform : Transform F}
    {s' : Lobby F} (step : next s (.create transform) = some s') : Counted s' := by
  rw [next, createPlayer_eq] at step
  cases step
  have hlt := s.registry.id.toNat_lt
  have hne : s.registry.id.toNat ≠ 0xFFFFFFFF := fun h => fresh (UInt32.toNat_inj.mp h)
  have hnext : (s.registry.id + 1).toNat = s.registry.heap.length + 1 := by
    rw [h.count, UInt32.toNat_add, show (1 : UInt32).toNat = 1 from rfl, Nat.mod_eq_of_lt]
    omega
  have old : ∀ q ∈ s.players, ∀ sessionid, s.registry.sessionid q = some sessionid →
      sessionid ≠ s.registry.id + 1 := by
    rintro q hq sessionid hsessionid rfl
    have := h.sessionid_place hsessionid
    have := h.live q hq
    omega
  refine ⟨?_, fun p e he => ?_, fun p hp => ?_, ?_, fun sessionid p => ?_⟩
  · rw [hnext, List.length_append, List.length_singleton]
  · rcases Nat.lt_trichotomy p s.registry.heap.length with hp | rfl | hp
    · rw [List.getElem?_append_left hp] at he
      exact h.place p e he
    · rw [List.getElem?_concat_length] at he
      cases he
      exact hnext
    · rw [List.getElem?_eq_none (by simp; omega)] at he
      cases he
  · rw [List.length_append, List.length_singleton]
    rcases List.mem_append.mp hp with hp | hp
    · exact Nat.lt_succ_of_lt (h.live p hp)
    · rw [List.mem_singleton.mp hp]
      exact Nat.lt_succ_self _
  · refine h.nodup.append (List.nodup_singleton _) ?_
    rw [List.disjoint_singleton]
    exact fun hmem => Nat.lt_irrefl _ (h.live _ hmem)
  · by_cases hid : sessionid = s.registry.id + 1
    · subst hid
      rw [AList.lookup_insert]
      constructor
      · rintro ⟨⟩
        exact ⟨_, List.mem_append_right _ (List.mem_singleton_self _), rfl, sessionid_last _ _ _ _⟩
      · rintro ⟨q, hq, rfl, hsessionid⟩
        rcases List.mem_append.mp hq with hq | hq
        · rw [sessionid_append _ (h.live q hq)] at hsessionid
          exact absurd rfl (old q hq _ hsessionid)
        · rw [List.mem_singleton.mp hq]
    · rw [AList.lookup_insert_ne hid, h.filed]
      constructor
      · rintro ⟨q, hq, hp, hsessionid⟩
        refine ⟨q, List.mem_append_left _ hq, hp, ?_⟩
        rw [sessionid_append _ (h.live q hq)]
        exact hsessionid
      · rintro ⟨q, hq, hp, hsessionid⟩
        rcases List.mem_append.mp hq with hq | hq
        · rw [sessionid_append _ (h.live q hq)] at hsessionid
          exact ⟨q, hq, hp, hsessionid⟩
        · rw [List.mem_singleton.mp hq, sessionid_last] at hsessionid
          cases hsessionid
          exact absurd rfl hid

theorem destroy (h : Counted s) {pEntity : Nat} {s' : Lobby F}
    (step : next s (.destroy pEntity) = some s') : Counted s' := by
  rw [next] at step
  split at step
  · rename_i hmem
    obtain ⟨e, he⟩ : ∃ e, s.registry.heap[pEntity]? = some e :=
      ⟨_, List.getElem?_eq_getElem (h.live _ hmem)⟩
    have own : s.registry.sessionid pEntity = some e.sessionid := by
      rw [Registry.sessionid, he]
      rfl
    have only : ∀ q sessionid, s.registry.sessionid q = some sessionid → sessionid = e.sessionid →
        q = pEntity := by
      rintro q sessionid hq rfl
      have first := h.sessionid_place hq
      have second := h.sessionid_place own
      omega
    rw [Registry.destroyPlayer, he] at step
    cases step
    refine ⟨h.count, h.place, fun p hp => h.live p (List.mem_of_mem_erase hp), h.nodup.erase _,
      fun sessionid p => ?_⟩
    show (s.registry.map.erase e.sessionid).lookup sessionid = some p ↔
      ∃ q ∈ s.players.erase pEntity, p = some q ∧ s.registry.sessionid q = some sessionid
    by_cases hid : sessionid = e.sessionid
    · rw [hid, AList.lookup_erase]
      refine iff_of_false nofun ?_
      rintro ⟨q, hq, -, hsessionid⟩
      rw [only q _ hsessionid rfl] at hq
      exact h.nodup.not_mem_erase hq
    · rw [AList.lookup_erase_ne hid, h.filed]
      refine exists_congr fun q => and_congr_left fun ⟨_, hsessionid⟩ => ?_
      have other : q ≠ pEntity := by
        rintro rfl
        rw [own] at hsessionid
        exact hid (Option.some.inj hsessionid).symm
      exact (List.mem_erase_of_ne other).symm
  · cases step

end Counted

/-- Behind the last id comes the id 0. -/
theorem create_last {s s' : Lobby F} {transform : Transform F}
    (step : next s (.create transform) = some s') (hlast : s.registry.id = 0xFFFFFFFF) :
    ¬Registered s' := by
  intro h
  rw [next, createPlayer_eq] at step
  cases step
  obtain ⟨sessionid, hsessionid, hne⟩ :=
    h.nonzero s.registry.heap.length (List.mem_append_right _ (List.mem_singleton_self _))
  rw [sessionid_last, hlast] at hsessionid
  cases hsessionid
  exact hne rfl

/-- In every run in which players are created only while there is an id left, the live players are
registered, and the next event keeps it so exactly when it is not the creation of a player with no
id left. -/
theorem players_registered (es : List (Event F)) (s : Lobby F)
    (run : ((lobby (F := F)).restrict Fresh).Run es s) :
    Registered s ∧ ∀ e s', lobby.step s e s' → (Registered s' ↔ Fresh s e) := by
  have counted : Counted s := by
    refine run.invariant (I := fun _ s => Counted s) ?_ ?_
    · rintro s rfl
      exact ⟨rfl, nofun, nofun, List.nodup_nil, fun _ _ => by simp [Registry.empty]⟩
    · rintro es s e s' - h ⟨fresh, step⟩
      cases e with
      | create transform => exact h.create fresh step
      | destroy pEntity => exact h.destroy step
  refine ⟨counted.registered, fun e s' step => ?_⟩
  cases e with
  | destroy pEntity => exact iff_of_true (counted.destroy step).registered trivial
  | create transform =>
    exact ⟨fun h hlast => create_last step hlast h,
      fun fresh => (counted.create fresh step).registered⟩

def origin : Transform UInt32 := ⟨⟨0, 0, 0⟩, ⟨0, 0, 0, 0⟩⟩

theorem firstPlayer_registered :
    ∃ s, next ⟨.empty, []⟩ (.create origin) = some s ∧ s.players = [0] ∧ Registered s := by
  have start : ((lobby (F := UInt32)).restrict Fresh).Run [] ⟨.empty, []⟩ := .nil rfl
  have fresh : Fresh (⟨.empty, []⟩ : Lobby UInt32) (.create origin) := by
    show (0 : UInt32) ≠ 0xFFFFFFFF
    decide
  exact ⟨_, rfl, rfl, (players_registered _ _ (start.snoc ⟨fresh, rfl⟩)).1⟩

/-- A player that comes and goes takes an id. -/
theorem come_and_go (s : Lobby UInt32) (h : s.players = []) :
    ∃ s', System.exec next s [.create origin, .destroy s.registry.heap.length] = some s' ∧
      s'.players = [] ∧ s'.registry.id = s.registry.id + 1 := by
  have created : next s (.create origin) =
      some ⟨(s.registry.createPlayer origin).2, [s.registry.heap.length]⟩ := by
    rw [next, createPlayer_eq, h]
    rfl
  have destroyed : next ⟨(s.registry.createPlayer origin).2, [s.registry.heap.length]⟩
      (.destroy s.registry.heap.length) = some
        ⟨(s.registry.createPlayer origin).2.destroyPlayer s.registry.heap.length, []⟩ := by
    rw [next, if_pos (List.mem_singleton_self _), List.erase_cons_head]
  refine ⟨_, by rw [System.exec, created, Option.bind_some, System.exec, destroyed]; rfl, rfl, ?_⟩
  show (Registry.destroyPlayer _ _).id = _
  rw [createPlayer_eq, Registry.destroyPlayer]
  split
  · rfl
  · rfl

theorem after_players (n : Nat) : ∃ es s, (lobby (F := UInt32)).Run es s ∧ s.players = [] ∧
    s.registry.id = .ofNat n := by
  induction n with
  | zero => exact ⟨[], ⟨.empty, []⟩, .nil rfl, rfl, rfl⟩
  | succ n ih =>
    obtain ⟨es, s, run, hplayers, hid⟩ := ih
    obtain ⟨s', hexec, hplayers', hid'⟩ := come_and_go s hplayers
    refine ⟨_, s', System.Run.of_exec (fun _ _ _ h => h) run hexec, hplayers', ?_⟩
    rw [hid', hid, UInt32.ofNat_add]
    rfl

/-- The player that is created after `2 ^ 32 - 1` others gets the id 0. -/
theorem lastPlayer_not_registered :
    ∃ es s, (lobby (F := UInt32)).Run es s ∧ ¬Registered s := by
  obtain ⟨es, s, run, hplayers, hid⟩ := after_players (2 ^ 32 - 1)
  have step : next s (.create origin) = some _ := rfl
  exact ⟨_, _, run.snoc step, create_last step hid⟩

end Lobby

end Starfall
