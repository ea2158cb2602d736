import Mathlib.Data.List.Perm.Basic
import Starfall.ProofKit.Runs

/-! The filters of `app.js`, and the messages on the page.  A filter hides the messages with its
name when it is switched on, and `filters.on` is replayed after messages were rendered.  A filter
that is switched off empties `filters.on`. -/

namespace Starfall.Filters

open ProofKit.Runs

abbrev Str := List Char

/-- A filter, as it is stored in `filters.on`. -/
structure Obj where
  name : Str
  id : Str
  deriving DecidableEq

/-- The node of a filter in the panel: its `select` with the handlers that are bound to it, each by
the filter that it was bound for. -/
structure Item where
  obj : Obj
  on : Bool
  handlers : List Obj

/-- The element of a message: the name in its head, and the `name` attribute that the browser read
out of its markup. -/
structure Message where
  head : Str
  name : Str
  hidden : Bool

structure State where
  items : List Item
  on : List Obj
  messages : List Message

/-- What jQuery finds, and what it searches.  `byId ids id` are the places where it finds
`$("#" + id)` among elements with the ids `ids`, unless it refuses the selector, `byName name other`
says whether `$("[name='" + name + "']")` finds an element with the name `other`, and
`nameOf head` is the name of an element whose markup has `name='` in front of `head` and a quote
behind it.  Nothing is escaped there, so that a quote or a character reference is read as one. -/
structure JQuery where
  byId : List Str → Str → Option (List Nat)
  byName : Str → Str → Bool
  nameOf : Str → Str

/-- The characters of an identifier (`characterEncoding`). -/
def identifier (c : Char) : Bool :=
  c.isAlphanum || c == '_' || c == '-' || 0xa0 < c.toNat

/-- An id that is an identifier finds the first element that has it, and a name that is one finds
the elements that have it. -/
structure JQuery.Lawful (jquery : JQuery) : Prop where
  byId : ∀ ids id, id.all identifier → jquery.byId ids id = some (ids.findIdx? (· == id)).toList
  byName : ∀ name other, name.all identifier → (jquery.byName name other = true ↔ other = name)

variable (jquery : JQuery)

/-- A fade of the elements with the name of a filter. -/
def fade (hidden : Bool) (obj : Obj) (messages : List Message) : List Message :=
  messages.map fun message =>
    if jquery.byName obj.name message.name then { message with hidden } else message

def showObj (obj : Obj) (messages : List Message) : List Message :=
  fade jquery false obj messages

def hideObj (obj : Obj) (messages : List Message) : List Message :=
  fade jquery true obj messages

def hide (on : List Obj) (messages : List Message) : List Message :=
  on.foldl (fun messages obj => hideObj jquery obj messages) messages

/-- The callback of `filter` when a filter is switched off.  It returns nothing for the others. -/
def callback (obj a : Obj) : Option Bool :=
  if a.id = obj.id then some false else none

/-- The handler of a `select` that has the value `on` now. -/
def change (on : Bool) (s : State) (obj : Obj) : State :=
  if on then
    { s with messages := hideObj jquery obj s.messages, on := s.on ++ [obj] }
  else
    { s with
      messages := showObj jquery obj s.messages
      on := s.on.filter fun a => (callback obj a).getD false }

/-- `render`, which binds the handler of the filter to what its id finds. -/
def render (obj : Obj) (s : State) : State :=
  let items := s.items ++ [⟨obj, false, []⟩]
  let found := (jquery.byId (items.map (·.obj.id)) obj.id).getD []
  { s with items := found.foldl (fun items i =>
      items.modify i fun item => { item with handlers := item.handlers ++ [obj] }) items }

/-- The filter for the text of the input. -/
def filterObj (text : Str) : Obj :=
  let filterName := text.map fun c => if c = ' ' then '_' else c
  ⟨filterName, "filter-item-".toList ++ filterName⟩

/-- The handler of `registerClick`. -/
def click (text : Str) (s : State) : State :=
  let obj := filterObj text
  if obj.name.length > 0 ∧ jquery.byId (s.items.map (·.obj.id)) obj.id = some [] then
    render jquery obj s
  else s

inductive Event
  | click (text : Str)
  /-- The `select` of the filter in this place is switched. -/
  | switch (i : Nat)
  /-- `news.onNew` with messages that have these names in their heads, each of which is an
  element. -/
  | onNew (heads : List Str)
  /-- `more.onMore`. -/
  | onMore (heads : List Str)

/-- The elements that `components.render` makes of messages. -/
def rendered (heads : List Str) : List Message :=
  heads.map fun head => ⟨head, jquery.nameOf head, false⟩

def step (s : State) : Event → Option State
  | .click text => some (click jquery text s)
  | .switch i =>
    match s.items[i]? with
    | some item =>
      some (item.handlers.foldl (change jquery (!item.on))
        { s with items := s.items.set i { item with on := !item.on } })
    | none => none
  | .onNew heads =>
    some { s with messages := hide jquery s.on (rendered jquery heads ++ s.messages) }
  | .onMore heads =>
    some { s with messages := hide jquery s.on (s.messages ++ rendered jquery heads) }

/-- The page before a filter was added. -/
def page : System State Event where
  init s := s.items = [] ∧ s.on = [] ∧
    ∀ message ∈ s.messages, message.name = message.head ∧ message.hidden = false
  step s e s' := step jquery s e = some s'

/-- The filters that are switched on. -/
def State.active (s : State) : List Obj := (s.items.filter (·.on)).map (·.obj)

/-- A message is hidden exactly when a filter with its name is switched on, and `filters.on` has the
filters that are switched on. -/
structure Consistent (s : State) : Prop where
  hidden : ∀ message ∈ s.messages,
    (message.hidden = true ↔ ∃ obj ∈ s.active, obj.name = message.head)
  on : s.on.Perm s.active

/-- The name of a filter is an identifier, or the filter is not added, a filter that is switched off
is the only one that is on, and the names of new messages are read back out of their markup. -/
def Good (s : State) : Event → Prop
  | .click text => (filterObj text).name.all identifier ∨
    jquery.byId (s.items.map (·.obj.id)) (filterObj text).id ≠ some []
  | .switch i => ∀ item, s.items[i]? = some item → item.on = true → s.active = [item.obj]
  | .onNew heads | .onMore heads => ∀ head ∈ heads, jquery.nameOf head = head

variable {jquery}

/-- A filter that was added: its handler is bound to it, and its name is an identifier. -/
structure Item.Bound (item : Item) : Prop where
  handlers : item.handlers = [item.obj]
  id : item.obj.id = "filter-item-".toList ++ item.obj.name
  name : item.obj.name.all identifier

structure Inv (s : State) : Prop where
  read : ∀ message ∈ s.messages, message.name = message.head
  hidden : ∀ message ∈ s.messages,
    (message.hidden = true ↔ ∃ obj ∈ s.active, obj.name = message.name)
  on : s.on.Perm s.active
  bound : ∀ item ∈ s.items, item.Bound
  nodup : (s.items.map (·.obj.id)).Nodup

theorem Inv.consistent {s : State} (h : Inv s) : Consistent s := by
  refine ⟨fun message hmessage => ?_, h.on⟩
  rw [← h.read message hmessage]
  exact h.hidden message hmessage

/-- The handler of a filter with a new id is bound to the filter itself. -/
theorem render_new (lawful : jquery.Lawful) {s : State} {obj : Obj} (hid : obj.id.all identifier)
    (hfresh : ∀ item ∈ s.items, item.obj.id ≠ obj.id) :
    render jquery obj s = { s with items := s.items ++ [⟨obj, false, [obj]⟩] } := by
  have hplace : ((s.items ++ [(⟨obj, false, []⟩ : Item)]).map (·.obj.id)).findIdx?
      (· == obj.id) = some s.items.length := by
    have hnone : s.items.findIdx? ((· == obj.id) ∘ (·.obj.id)) = none :=
      List.findIdx?_eq_none_iff.mpr fun item hitem => by simpa using hfresh item hitem
    rw [List.findIdx?_map, List.findIdx?_append, hnone]
    simp
  simp only [render, lawful.byId _ _ hid, hplace, Option.getD_some, Option.toList_some,
    List.foldl_cons, List.foldl_nil]
  rw [List.modify_eq_take_cons_drop (by simp)]
  simp

theorem Inv.click (lawful : jquery.Lawful) {s : State} (h : Inv s) {text : Str}
    (hgood : Good jquery s (.click text)) : Inv (click jquery text s) := by
  rw [Filters.click]
  split
  · rename_i hnew
    have hname := hgood.resolve_right fun hadded => hadded hnew.2
    have hid : (filterObj text).id.all identifier := by
      show ("filter-item-".toList ++ (filterObj text).name).all identifier
      rw [List.all_append, hname]
      decide
    have hfresh : ∀ item ∈ s.items, item.obj.id ≠ (filterObj text).id := by
      have hfind := hnew.2
      rw [lawful.byId _ _ hid] at hfind
      simpa using hfind
    have hactive : (render jquery (filterObj text) s).active = s.active := by
      rw [render_new lawful hid hfresh]
      simp [State.active]
    rw [render_new lawful hid hfresh] at hactive ⊢
    refine ⟨h.read, ?_, ?_, ?_, ?_⟩
    · rw [hactive]
      exact h.hidden
    · rw [hactive]
      exact h.on
    · intro item hitem
      rcases List.mem_append.mp hitem with hold | hnew
      · exact h.bound item hold
      · obtain rfl := List.mem_singleton.mp hnew
        exact ⟨rfl, rfl, hname⟩
    · simp only [List.map_append, List.nodup_append]
      refine ⟨h.nodup, by simp, ?_⟩
      simpa using hfresh
  · exact h

/-- What jQuery finds when every name is an identifier, where only a quote ends an attribute. -/
def browser : JQuery where
  byId ids id := some (ids.findIdx? (· == id)).toList
  byName name other := other == name
  nameOf head := head.takeWhile (· != '\'')

def head : Str := "Head".toList

def empty : State := ⟨[], [], []⟩

end Starfall.Filters
