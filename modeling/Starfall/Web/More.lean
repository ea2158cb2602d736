import Starfall.ProofKit.Runs
import Starfall.Server.Console

/-! The More button of `app.js`.  The client passes the offset and the upper bound of its last page
back to the server, and rows are inserted between its requests. -/

namespace Starfall.More

open Console ProofKit.Runs

/-- What the client does next. -/
inductive Next
  /-- `console.ajax`, after the login. -/
  | console
  /-- A click on More, which sends the object in `more.queue`, or `{}`. -/
  | click (obj : Option Page)
  /-- The More button is hidden. -/
  | hidden
  deriving DecidableEq, Repr

/-- `more.update`.  The fields of `{}` are undefined, and `>=` is false on them. -/
def update (obj : Option Page) : Next :=
  match obj with
  | some page => if page.offset ≥ page.upper then .hidden else .click obj
  | none => .click obj

/-- The number of rows in the table, and the pages that the client has rendered. -/
structure State where
  rows : Nat
  pages : List Page
  next : Next
  deriving DecidableEq, Repr

/-- `init`. -/
def init (s : State) (obj : Option Page) : State :=
  { s with pages := s.pages ++ obj.toList, next := update obj }

/-- `more.done`. -/
def done (s : State) (obj : Option Page) : State :=
  match obj with
  | some page => { s with pages := s.pages ++ [page], next := update obj }
  | none => { s with next := .hidden }

inductive Event
  | insert
  | request
  deriving DecidableEq, Repr

/-- An insertion, or a request with its reply. -/
def step (s : State) : Event → Option State
  | .insert => some { s with rows := s.rows + 1 }
  | .request =>
    match s.next with
    | .console =>
      match Console.console s.rows .console none none with
      | .ok obj => some (init s obj)
      | .error _ => none
    | .click obj =>
      match Console.console s.rows .more (obj.map Page.offset) (obj.map Page.upper) with
      | .ok obj => some (done s obj)
      | .error _ => none
    | .hidden => none

/-- A table with any number of rows, and a client that has just logged in. -/
def paging : System State Event where
  init s := 1 ≤ s.rows ∧ s.pages = [] ∧ s.next = .console
  step s e s' := step s e = some s'

/-- The ids that were shown, in the order of the pages. -/
def shown (s : State) : List Nat := s.pages.flatMap Page.messages

/-- The pages list the ids in descending order, from the upper bound of the first page on, without a
gap.  The client stops when it has shown the id 1, and not before. -/
structure Paged (s : State) : Prop where
  begun : s.next = .console ↔ s.pages = []
  nonempty : ∀ page ∈ s.pages, page.messages ≠ []
  blocks : ∀ first ∈ s.pages.head?, ∃ n, shown s ++ descending n = descending first.upper.toNat
  stopped : s.next = .hidden ↔ 1 ∈ shown s
  complete : s.next = .hidden → ∀ first ∈ s.pages.head?, shown s = descending first.upper.toNat

/-- The offset behind which the next page begins, once the server has added the new rows to it. -/
def nextOffset (s : State) : Nat :=
  match s.next with
  | .click (some page) => (page.offset + (.ofNat s.rows - page.upper)).toNat
  | _ => 0

/-- The server compares the number of rows and the offset as it should. -/
def Good (s : State) : Event → Prop
  | .insert => True
  | .request => Signed s.rows (nextOffset s)

/-- The pages up to the id `n` were not shown yet, and the client will ask for them. -/
structure Cursor (s : State) (first : Page) (n : Nat) : Prop where
  head : s.pages.head? = some first
  nonempty : ∀ page ∈ s.pages, page.messages ≠ []
  blocks : shown s ++ descending n = descending first.upper.toNat
  positive : 0 < first.upper.toNat
  stopped : n = 0 → s.next = .hidden
  asking : 0 < n → ∃ page, s.next = .click (some page) ∧ page.upper.toNat ≤ s.rows ∧
    page.offset.toNat + n = page.upper.toNat

theorem Cursor.paged {s : State} {first : Page} {n : Nat} (h : Cursor s first n) : Paged s := by
  have next : s.next ≠ .console ∧ (s.next = .hidden ↔ n = 0) := by
    rcases Nat.eq_zero_or_pos n with hn | hn
    · rw [h.stopped hn]
      exact ⟨nofun, iff_of_true rfl hn⟩
    · obtain ⟨page, hnext, -, -⟩ := h.asking hn
      rw [hnext]
      exact ⟨nofun, iff_of_false nofun (Nat.ne_of_gt hn)⟩
  have hone : 1 ∈ shown s ↔ n = 0 := by
    have hmem : 1 ∈ shown s ++ descending n := by
      rw [h.blocks]
      exact mem_descending.mpr ⟨Nat.le_refl 1, h.positive⟩
    constructor
    · intro hshown
      by_contra hn
      have nodup : (shown s ++ descending n).Nodup := by
        rw [h.blocks]
        exact nodup_descending _
      exact (List.nodup_append.mp nodup).2.2 1 hshown 1
        (mem_descending.mpr ⟨Nat.le_refl 1, Nat.pos_of_ne_zero hn⟩) rfl
    · rintro rfl
      rw [descending, List.append_nil] at hmem
      exact hmem
  refine ⟨iff_of_false next.1 ?_, h.nonempty, ?_, next.2.trans hone.symm, ?_⟩
  · rintro hpages
    have := h.head
    rw [hpages] at this
    cases this
  · intro page hpage
    rw [h.head] at hpage
    cases hpage
    exact ⟨n, h.blocks⟩
  · intro hidden page hpage
    rw [h.head] at hpage
    cases hpage
    rw [← h.blocks, next.2.mp hidden, descending, List.append_nil]

/-- What the client does with a page up to the id `n`. -/
theorem update_page {page : Page} {rows n : Nat} (hrows : rows < 2 ^ 32) (hn : n < rows)
    (hupper : page.upper = .ofNat rows) (hoffset : page.offset.toNat = rows - n) :
    (n = 0 → update (some page) = .hidden) ∧
    (0 < n → ∃ page', update (some page) = .click (some page') ∧ page'.upper.toNat ≤ rows ∧
      page'.offset.toNat + n = page'.upper.toNat) := by
  have hupper' : page.upper.toNat = rows := by rw [hupper, toNat_ofNat hrows]
  constructor
  · rintro rfl
    rw [update, if_pos]
    show page.upper ≤ page.offset
    rw [UInt32.le_iff_toNat_le]
    omega
  · intro hpos
    rw [update, if_neg]
    · exact ⟨page, rfl, by omega, by omega⟩
    · show ¬page.upper ≤ page.offset
      rw [UInt32.le_iff_toNat_le]
      omega

theorem console_first (rows : Nat) :
    Console.console rows .console none none = tryConsole rows 10 0 := by
  rw [Console.console]
  exact if_neg fun h => h.1 rfl

/-- The rows that were inserted since the last page are added to its offset. -/
theorem console_more {rows n : Nat} {page : Page} (hrows : rows < 2 ^ 32)
    (hupper : page.upper.toNat ≤ rows) (hn : 0 < n)
    (hoffset : page.offset.toNat + n = page.upper.toNat) :
    Console.console rows .more (some page.offset) (some page.upper) =
        tryConsole rows 10 (page.offset + (.ofNat rows - page.upper)) ∧
      (page.offset + (.ofNat rows - page.upper)).toNat + n = rows := by
  have hmax : (UInt32.ofNat rows).toNat = rows := toNat_ofNat hrows
  constructor
  · rw [Console.console]
    dsimp only [Option.getD_some]
    rw [if_pos, if_neg (by decide)]
    · rfl
    · rw [maxConsoleID, ← UInt32.toNat_inj.ne, ← UInt32.toNat_inj.ne, hmax]
      show page.upper.toNat ≠ 0 ∧ rows ≠ 0
      omega
  · rw [UInt32.toNat_add, UInt32.toNat_sub, hmax]
    omega

/-- A request behind which the ids from `n` down are left gets the next ten of them, and leaves the
client with a cursor on the others. -/
theorem next_page {rows n : Nat} (offset : UInt32) (signed : Signed rows offset.toNat) (hn : 0 < n)
    (hoffset : offset.toNat + n = rows) :
    ∃ page, tryConsole rows 10 offset = .ok (some page) ∧
      page.messages = (descending n).take 10 ∧ page.upper.toNat = rows ∧
      (n - 10 = 0 → update (some page) = .hidden) ∧
      (0 < n - 10 → ∃ page', update (some page) = .click (some page') ∧ page'.upper.toNat ≤ rows ∧
        page'.offset.toNat + (n - 10) = page'.upper.toNat) := by
  have hrows := signed.rows_lt
  obtain ⟨next, hpage, hnext⟩ :=
    tryConsole_page 10 offset signed (by omega : offset.toNat < rows) (by decide)
  have hleft : rows - offset.toNat = n := by omega
  rw [hleft] at hpage hnext
  exact ⟨_, hpage, rfl, toNat_ofNat hrows,
    update_page hrows (show n - 10 < rows by omega) rfl hnext⟩

theorem take_ne_nil {n : Nat} (hn : 0 < n) : (descending n).take 10 ≠ [] := by
  obtain ⟨m, rfl⟩ := Nat.exists_eq_succ_of_ne_zero (Nat.ne_of_gt hn)
  exact List.cons_ne_nil _ _

theorem cursor_first {s : State} (hpages : s.pages = []) (hnext : s.next = .console)
    (hrows : 1 ≤ s.rows) (signed : Signed s.rows 0) :
    ∃ s' first, step s .request = some s' ∧ s'.rows = s.rows ∧ Cursor s' first (s.rows - 10) := by
  obtain ⟨page, hpage, hmessages, hupper, hstopped, hasking⟩ :=
    next_page 0 signed hrows (Nat.zero_add _)
  refine ⟨init s (some page), page, ?_, rfl, ?_⟩
  · rw [step, hnext]
    dsimp only
    rw [console_first, hpage]
  · refine ⟨?_, ?_, ?_, ?_, hstopped, hasking⟩
    · rw [init, hpages]
      rfl
    · rw [init, hpages]
      rintro other hother
      rw [List.mem_singleton.mp hother, hmessages]
      exact take_ne_nil hrows
    · rw [shown, init, hpages]
      show page.messages ++ [] ++ descending (s.rows - 10) = _
      rw [List.append_nil, hmessages, hupper, take_append_descending]
    · rw [hupper]
      exact hrows

theorem Cursor.click {s : State} {first : Page} {n : Nat} (h : Cursor s first n) (hn : 0 < n)
    (signed : Signed s.rows (nextOffset s)) :
    ∃ s', step s .request = some s' ∧ s'.rows = s.rows ∧ Cursor s' first (n - 10) := by
  obtain ⟨last, hnext, hlast, hleft⟩ := h.asking hn
  have hrows := signed.rows_lt
  obtain ⟨hconsole, hoffset⟩ := console_more hrows hlast hn hleft
  rw [nextOffset, hnext] at signed
  obtain ⟨page, hpage, hmessages, -, hstopped, hasking⟩ := next_page _ signed hn hoffset
  refine ⟨done s (some page), ?_, rfl, ?_⟩
  · rw [step, hnext]
    show (match Console.console s.rows .more (some last.offset) (some last.upper) with
      | .ok obj => some (done s obj)
      | .error _ => none) = _
    rw [hconsole, hpage]
  · refine ⟨?_, ?_, ?_, h.positive, hstopped, hasking⟩
    · show (s.pages ++ [page]).head? = some first
      rw [List.head?_append, h.head]
      rfl
    · intro other hother
      rcases List.mem_append.mp hother with hother | hother
      · exact h.nonempty other hother
      · rw [List.mem_singleton.mp hother, hmessages]
        exact take_ne_nil hn
    · show (s.pages ++ [page]).flatMap Page.messages ++ descending (n - 10) = _
      rw [List.flatMap_append, List.flatMap_singleton, hmessages, List.append_assoc,
        take_append_descending]
      exact h.blocks

theorem Cursor.insert {s : State} {first : Page} {n : Nat} (h : Cursor s first n) :
    Cursor { s with rows := s.rows + 1 } first n := by
  refine ⟨h.head, h.nonempty, h.blocks, h.positive, h.stopped, fun hn => ?_⟩
  obtain ⟨page, hnext, hupper, hoffset⟩ := h.asking hn
  exact ⟨page, hnext, Nat.le_succ_of_le hupper, hoffset⟩

/-- The client has not asked yet, or it has a cursor. -/
def Started (s : State) : Prop :=
  1 ≤ s.rows ∧ (s.pages = [] ∧ s.next = .console ∨ ∃ first n, Cursor s first n)

theorem Started.paged {s : State} (h : Started s) : Paged s := by
  obtain ⟨-, ⟨hpages, hnext⟩ | ⟨first, n, cursor⟩⟩ := h
  · refine ⟨iff_of_true hnext hpages, ?_, ?_, ?_, ?_⟩
    · rw [hpages]
      exact nofun
    · rw [hpages]
      exact nofun
    · rw [hnext, shown, hpages]
      exact iff_of_false nofun nofun
    · rw [hnext]
      exact nofun
  · exact cursor.paged

/-- A good request is answered, and the answer keeps the pages in order. -/
theorem Started.request {s : State} (h : Started s) (hnext : s.next ≠ .hidden)
    (good : Good s .request) : ∃ s', step s .request = some s' ∧ Started s' := by
  obtain ⟨hrows, ⟨hpages, hconsole⟩ | ⟨first, n, cursor⟩⟩ := h
  · have signed : Signed s.rows 0 := by
      rw [Good, nextOffset, hconsole] at good
      exact good
    obtain ⟨s', first, hstep, hrows', cursor⟩ := cursor_first hpages hconsole hrows signed
    exact ⟨s', hstep, hrows' ▸ hrows, .inr ⟨first, _, cursor⟩⟩
  · have hn : 0 < n := Nat.pos_of_ne_zero fun hn => hnext (cursor.stopped hn)
    obtain ⟨s', hstep, hrows', cursor⟩ := cursor.click hn good
    exact ⟨s', hstep, hrows' ▸ hrows, .inr ⟨first, _, cursor⟩⟩

theorem Started.step {s s' : State} {e : Event} (h : Started s) (good : Good s e)
    (hstep : step s e = some s') : Started s' := by
  cases e with
  | insert =>
    cases hstep
    obtain ⟨hrows, hconsole | ⟨first, n, cursor⟩⟩ := h
    · exact ⟨Nat.le_succ_of_le hrows, .inl hconsole⟩
    · exact ⟨Nat.le_succ_of_le hrows, .inr ⟨first, n, cursor.insert⟩⟩
  | request =>
    have hnext : s.next ≠ .hidden := by
      intro hnext
      rw [More.step, hnext] at hstep
      cases hstep
    obtain ⟨s'', hstep', started⟩ := h.request hnext good
    cases hstep.symm.trans hstep'
    exact started

/-- After a request in which the comparison comes out wrong, the client stops too early, or it has
no page. -/
theorem Started.unsigned {s s' : State} (h : Started s) (hrows : s.rows < 2 ^ 32)
    (bad : ¬Good s .request) (hstep : More.step s .request = some s') : ¬Paged s' := by
  intro paged
  obtain ⟨hpos, ⟨hpages, hconsole⟩ | ⟨first, n, cursor⟩⟩ := h
  · have unsigned : ¬Signed s.rows (0 : UInt32).toNat := by
      rw [Good, nextOffset, hconsole] at bad
      exact bad
    rw [More.step, hconsole] at hstep
    dsimp only at hstep
    rw [console_first] at hstep
    rcases tryConsole_unsigned 10 hrows unsigned with hnone | herror
    · rw [hnone] at hstep
      cases hstep
      have hnext := paged.begun.mpr (show (init s none).pages = [] by rw [init, hpages]; rfl)
      cases hnext
    · rw [herror] at hstep
      cases hstep
  · rcases Nat.eq_zero_or_pos n with hn | hn
    · rw [More.step, cursor.stopped hn] at hstep
      cases hstep
    · obtain ⟨last, hnext, hlast, hleft⟩ := cursor.asking hn
      obtain ⟨hmore, -⟩ := console_more hrows hlast hn hleft
      have unsigned : ¬Signed s.rows (last.offset + (.ofNat s.rows - last.upper)).toNat := by
        rw [Good, nextOffset, hnext] at bad
        exact bad
      rw [More.step, hnext] at hstep
      dsimp only [Option.map_some] at hstep
      rw [hmore] at hstep
      rcases tryConsole_unsigned 10 hrows unsigned with hnone | herror
      · rw [hnone] at hstep
        cases hstep
        have hstopped := cursor.paged.stopped.mpr (paged.stopped.mp rfl)
        rw [hnext] at hstopped
        cases hstopped
      · rw [herror] at hstep
        cases hstep

/-- In every run whose requests are good, the pages list the ids in descending order without a gap,
and the client stops when it has shown the id 1 and not before.  A good request is answered as long
as it has not stopped.  While the ids fit a `UInt32`, the next step keeps the pages in order exactly
when it is good. -/
theorem pages_in_order (es : List Event) (s : State) (run : (paging.restrict Good).Run es s) :
    Paged s ∧
    (s.next ≠ .hidden → Good s .request → ∃ s', paging.step s .request s') ∧
    ∀ e s', paging.step s e s' → s.rows < 2 ^ 32 → (Paged s' ↔ Good s e) := by
  have started : Started s := by
    refine run.invariant (I := fun _ s => Started s) ?_ ?_
    · rintro s ⟨hrows, hpages, hnext⟩
      exact ⟨hrows, .inl ⟨hpages, hnext⟩⟩
    · rintro es s e s' - h ⟨good, step⟩
      exact h.step good step
  refine ⟨started.paged, fun hnext good => ?_,
    fun e s' step hrows => ⟨fun paged => ?_, fun good => ?_⟩⟩
  · obtain ⟨s', step, -⟩ := started.request hnext good
    exact ⟨s', step⟩
  · by_contra bad
    cases e with
    | insert => exact bad trivial
    | request => exact started.unsigned hrows bad step paged
  · exact (started.step good step).paged

/-- The client loads two pages of twelve rows, while a row is inserted. -/
theorem twelve_in_order :
    ∃ s, System.exec step ⟨12, [], .console⟩ [.request, .insert, .request] = some s ∧
      s.pages = [⟨[12, 11, 10, 9, 8, 7, 6, 5, 4, 3], 10, 12⟩, ⟨[2, 1], 13, 13⟩] ∧ Paged s := by
  have start : (paging.restrict Good).Run [] ⟨12, [], .console⟩ := .nil ⟨by decide, rfl, rfl⟩
  have first := start.snoc (l := Event.request) ⟨.inl (by decide), rfl⟩
  have inserted := first.snoc (l := Event.insert) ⟨trivial, rfl⟩
  have second := inserted.snoc (l := Event.request) ⟨.inl (by decide), rfl⟩
  exact ⟨_, rfl, rfl, (pages_in_order _ _ second).1⟩

/-- The first request of a client for a table with `2 ^ 31` rows is answered with `{}`. -/
theorem noPage_not_in_order : ∃ s, paging.Run [.request] s ∧ s.pages = [] ∧ ¬Paged s := by
  have start : paging.Run [] ⟨2 ^ 31, [], .console⟩ := .nil ⟨by decide, rfl, rfl⟩
  have step : step ⟨2 ^ 31, [], .console⟩ .request = some ⟨2 ^ 31, [], .click none⟩ := rfl
  refine ⟨_, start.snoc step, rfl, fun paged => ?_⟩
  cases paged.begun.mpr rfl

end Starfall.More
