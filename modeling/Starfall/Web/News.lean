import Starfall.ProofKit.Runs
import Starfall.Server.Console

/-! The New button of `app.js`.  A poll shows the button when the table has new rows, a click sends
a request for them, and the reply hides the button again.  The rows of a reply are not stored in
`updater.db.max`.  So no row is prepended twice, and none is lost, as long as each poll that shows
the button finds every row up to `updater.db.max` prepended and no other. -/

namespace Starfall.News

open Console ProofKit.Runs

/-- A request of `news.onClick` that has not been answered, with the `upper` of its data, or the
reply on its way to the client. -/
inductive Request
  | sent (upper : Option UInt32)
  | answered (obj : Option Page)
  deriving DecidableEq, Repr

/-- The number of rows in the table, and the client.  It has the upper bound of its first page,
`updater.db.max`, the `upper` of `news.nextData`, the New button with the handlers that are bound to
it, the requests on their way, and the ids that were prepended, the topmost first. -/
structure State where
  rows : Nat
  upper : UInt32
  max : UInt32
  nextData : Option UInt32
  hidden : Bool
  handlers : Nat
  requests : List Request
  prepended : List Nat
  deriving DecidableEq, Repr

/-- `news.update`. -/
def update (s : State) : State :=
  if s.hidden then
    { s with nextData := some s.max, hidden := false, handlers := s.handlers + 1 }
  else
    s

/-- `updater.done`, with `news.update` as its callback. -/
def done (s : State) (max : UInt32) : State :=
  if max > s.max ∧ s.max ≠ 0 then { update s with max } else s

/-- `news.onClick`. -/
def onClick (s : State) : State :=
  { s with handlers := 0, hidden := true, requests := s.requests ++ [.sent s.nextData] }

/-- `news.onNew`.  The button is removed with its handlers, and added again. -/
def onNew (s : State) (obj : Option Page) : State :=
  { s with
    handlers := 0, hidden := true
    prepended := (obj.map Page.messages).getD [] ++ s.prepended }

inductive Event
  | insert
  /-- A poll with its reply. -/
  | poll
  | click
  /-- The server answers a request. -/
  | serve (i : Nat)
  /-- A reply arrives. -/
  | arrive (i : Nat)
  deriving DecidableEq, Repr

def step (s : State) : Event → Option State
  | .insert => some { s with rows := s.rows + 1 }
  | .poll => some (done s (maxConsoleID s.rows))
  | .click => if s.hidden then none else some (onClick^[s.handlers] s)
  | .serve i =>
    match s.requests[i]? with
    | some (.sent upper) =>
      match console s.rows .new (upper.map fun _ => 0) upper with
      | .ok obj => some { s with requests := s.requests.set i (.answered obj) }
      | .error _ => none
    | _ => none
  | .arrive i =>
    match s.requests[i]? with
    | some (.answered obj) => some { onNew s obj with requests := s.requests.eraseIdx i }
    | _ => none

/-- The client after `init`, with a first page from a table that may have grown since. -/
def news : System State Event where
  init s := s.upper ≠ 0 ∧ s.upper.toNat ≤ s.rows ∧ s.max = s.upper ∧ s.nextData = none ∧
    s.hidden = true ∧ s.handlers = 0 ∧ s.requests = [] ∧ s.prepended = []
  step s e s' := step s e = some s'

/-- No row is prepended twice, and none of the first page.  When no request is on its way and the
button is hidden, every row up to `updater.db.max` was prepended. -/
structure Shown (s : State) : Prop where
  nodup : s.prepended.Nodup
  new : ∀ id ∈ s.prepended, s.upper.toNat < id
  complete : s.requests = [] → s.hidden = true →
    ∀ id, s.upper.toNat < id → id ≤ s.max.toNat → id ∈ s.prepended

/-- The newest row that the client shows. -/
def newest (s : State) : Nat := s.prepended.head?.getD s.upper.toNat

/-- A poll that finds a larger maximum and the button hidden finds no request on its way, and
`updater.db.max` is the newest row.  A request is answered while an `int` can hold the maximum. -/
def Good (s : State) : Event → Prop
  | .poll => s.hidden = true → s.max < maxConsoleID s.rows →
    s.requests = [] ∧ s.max.toNat = newest s
  | .serve _ => s.rows < 2 ^ 31
  | _ => True

/-- The rows up to `top` were prepended, in order. -/
structure Base (s : State) (top : Nat) : Prop where
  blocks : s.prepended ++ descending s.upper.toNat = descending top
  positive : 0 < s.upper.toNat
  upper : s.upper ≤ s.max
  rows : s.max.toNat ≤ s.rows

inductive Phase (s : State) (top : Nat) : Prop
  | idle (hidden : s.hidden = true) (handlers : s.handlers = 0) (requests : s.requests = [])
      (max : s.max.toNat ≤ top) (rows : top ≤ s.rows)
  | shown (hidden : s.hidden = false) (handlers : s.handlers = 1) (requests : s.requests = [])
      (upper : UInt32) (nextData : s.nextData = some upper) (last : upper.toNat = top)
      (max : top < s.max.toNat)
  | waiting (hidden : s.hidden = true) (handlers : s.handlers = 0) (upper : UInt32)
      (requests : s.requests = [.sent (some upper)]) (last : upper.toNat = top)
      (max : top < s.max.toNat)
  | answered (hidden : s.hidden = true) (handlers : s.handlers = 0) (page : Page) (last : Nat)
      (requests : s.requests = [.answered (some page)])
      (messages : page.messages = (descending last).take (last - top)) (new : top < last)
      (max : s.max.toNat ≤ last) (rows : last ≤ s.rows)

namespace Base

variable {s : State} {top : Nat}

/-- The rows that were prepended are those behind the first page, up to `top`. -/
theorem mem_iff (h : Base s top) {id : Nat} :
    id ∈ s.prepended ↔ s.upper.toNat < id ∧ id ≤ top :=
  mem_of_append h.blocks

theorem nodup (h : Base s top) : s.prepended.Nodup := by
  have nodup := nodup_descending top
  rw [← h.blocks] at nodup
  exact (List.nodup_append.mp nodup).1

theorem shown (h : Base s top) (phase : Phase s top) : Shown s := by
  refine ⟨h.nodup, fun id hid => (h.mem_iff.mp hid).1, fun hrequests hhidden id hnew hmax => ?_⟩
  cases phase with
  | idle _ _ _ max _ => exact h.mem_iff.mpr ⟨hnew, Nat.le_trans hmax max⟩
  | shown hidden =>
    rw [hhidden] at hidden
    cases hidden
  | waiting _ _ _ requests =>
    rw [hrequests] at requests
    cases requests
  | answered _ _ _ _ requests =>
    rw [hrequests] at requests
    cases requests

end Base

variable {s s' : State} {top : Nat}

def firstRow : State := ⟨1, 1, 1, none, true, 0, [], []⟩

/-- A poll while a request is on its way shows the button, and the reply hides it again. -/
theorem row_lost :
    ∃ s, news.init firstRow ∧ System.exec step firstRow [.insert, .poll, .click, .serve 0, .insert,
        .poll, .arrive 0] = some s ∧
      s.prepended = [2] ∧ s.max = 3 ∧ ¬Shown s := by
  refine ⟨_, ⟨by decide, by decide, rfl, rfl, rfl, rfl, rfl, rfl⟩, rfl, rfl, rfl, fun shown => ?_⟩
  have := shown.complete rfl rfl 3 (by decide) (by decide)
  cases this with
  | tail _ h => cases h

end Starfall.News
