import Starfall.NativeClient.Assets
import Starfall.NativeClient.Login
import Starfall.NativeClient.Renderer

/-! The client from its start to the world (`Application.cpp`, `Scene.cpp` and the three scenes).
The load scene waits for the threads that load the assets, and the login scene waits for the server.
`isLoaded` asks one asset after the other while their threads go on. -/

namespace Starfall.NativeClient

open ProofKit.Runs Models Assets Exporter

inductive Place
  | load
  | login
  | world
  deriving DecidableEq

/-- The scene that an application shows, and where each scene goes on to. -/
structure Scenes where
  currentScene : Option Place
  nextScene : Place → Option Place

def Scenes.enter (s : Scenes) (scene : Place) (nextScene : Option Place) : Scenes where
  currentScene := some scene
  nextScene other := if other = scene then nextScene else s.nextScene other

def Scenes.logout (s : Scenes) : Scenes := s.enter .login none

def Scenes.next (s : Scenes) (scene : Place) : Scenes :=
  match s.nextScene scene with
  | some nextScene => s.enter nextScene none
  | none => s.logout

/-- `Model::render`, which gives the vertices of each mesh to every pass of its technique. -/
def render {R : Type} (passes : List Pass) (model : Model R) :
    Except Fault (List (Pass × List (List R))) := do
  let meshes ← draw (model.renderers.map MeshRenderer.update)
  pure (meshes.flatMap fun vertices => passes.map fun pass => (pass, vertices))

/-- An application with its assets and its client. -/
structure Application (F R : Type) where
  scenes : Scenes
  loader : Loader R
  /-- The assets that `isLoaded` has been through since it was called. -/
  checked : Nat
  link : Link F

namespace Application

inductive Event (F R : Type)
  | thread (i : Nat) (uninitialized : BoundingBox R)
  /-- `LoadScene::update` is in `isLoaded`, at one of the assets or behind the last. -/
  | isLoaded
  | onConnect (username password : Str)
  | send
  | handle (entities : EntityMap F) (print : Str → Receive.Printed)
  | receive
  /-- `LoginScene::update`, with what `transitioned` returns if it is called. -/
  | update (transitioned : Bool)

/-- What happens to the client and its server. -/
def Event.link {F R : Type} : Event F R → Option (NativeClient.Event F)
  | .onConnect username password =>
    some (.tryLogin ⟨LOGIN_STATE_NOT_LOGGED_IN, 0, 0, username, password⟩)
  | .send => some .send
  | .handle entities print => some (.handle entities print)
  | .receive => some .receive
  | _ => none

def Event.isThread {F R : Type} : Event F R → Bool
  | .thread _ _ => true
  | _ => false

/-- A step of a thread, or of the check `isLoaded`. -/
def Event.isLoading {F R : Type} : Event F R → Bool
  | .thread _ _ => true
  | .isLoaded => true
  | _ => false

section Steps

variable {F D R : Type} [FloatBits F] [Add F] [Sub F] [Mul F] [LE F] [DecidableLE F]
  [LinearOrder R] (parser : NumberParser D R) (files : Str → Option Str) (rows : List LoginRow)

/-- The application after an event, if it can happen. -/
def next (s : Application F R) (e : Event F R) : Option (Application F R) :=
  match e with
  | .thread i uninitialized => do
    let loader ← s.loader.next parser files i uninitialized
    pure { s with loader }
  | .isLoaded =>
    if s.scenes.currentScene = some .load then
      match s.loader.loadQueue[s.checked]? with
      | some asset => some { s with checked := if asset.loaded then s.checked + 1 else 0 }
      | none => do
        let nextScene ← s.scenes.nextScene .load
        pure { s with scenes := s.scenes.enter nextScene (some .world), checked := 0 }
    else none
  | .update transitioned =>
    if s.scenes.currentScene = some .login then
      some { s with scenes :=
        if isLoggedIn s.link.client ∧ transitioned then s.scenes.next .login else s.scenes }
    else none
  | .onConnect username password =>
    if s.scenes.currentScene = some .login then do
      let link ← NativeClient.next rows s.link
        (.tryLogin ⟨LOGIN_STATE_NOT_LOGGED_IN, 0, 0, username, password⟩)
      pure { s with link }
    else none
  | .send => do
    let link ← NativeClient.next rows s.link .send
    pure { s with link }
  | .handle entities print => do
    let link ← NativeClient.next rows s.link (.handle entities print)
    pure { s with link }
  | .receive => do
    let link ← NativeClient.next rows s.link .receive
    pure { s with link }

/-- An application once `run` has entered the load scene and started a thread of the pool for every
asset.  The pool has sixteen of them. -/
def application (created : BoundingBox R) : System (Application F R) (Event F R) where
  init s := s.scenes = Scenes.enter ⟨none, fun _ => none⟩ .load (some .login) ∧ s.checked = 0 ∧
    (∀ path, s.loader.resources path = none) ∧ s.loader.loadQueue.length ≤ 16 ∧
    (∀ asset ∈ s.loader.loadQueue,
      asset.content.Created created ∧ asset.loaded = false ∧ asset.point = .run) ∧
    (NativeClient.link rows).init s.link
  step s e s' := next parser files rows s e = some s'

variable {parser files rows} {created : BoundingBox R}

/-- A thread takes a step, `isLoaded` goes on to the next asset, the load scene or the login scene
is left, or the client and its server take a step. -/
theorem next_cases {s s' : Application F R} {e : Event F R}
    (step : next parser files rows s e = some s') :
    (∃ i uninitialized loader, e = .thread i uninitialized ∧
      s.loader.next parser files i uninitialized = some loader ∧ s' = { s with loader }) ∨
    (e = .isLoaded ∧ s.scenes.currentScene = some .load ∧
      ((∃ asset, s.loader.loadQueue[s.checked]? = some asset ∧
        s' = { s with checked := if asset.loaded then s.checked + 1 else 0 }) ∨
      (s.loader.loadQueue[s.checked]? = none ∧ ∃ nextScene,
        s.scenes.nextScene .load = some nextScene ∧
          s' = { s with scenes := s.scenes.enter nextScene (some .world), checked := 0 }))) ∨
    (∃ transitioned, e = .update transitioned ∧ s.scenes.currentScene = some .login ∧
      s' = { s with scenes :=
        if isLoggedIn s.link.client ∧ transitioned then s.scenes.next .login else s.scenes }) ∨
    ∃ event link, e.link = some event ∧ e.isThread = false ∧
      NativeClient.next rows s.link event = some link ∧ s' = { s with link } := by
  cases e with
  | thread i uninitialized =>
    obtain ⟨loader, hloader, hs⟩ := Option.bind_eq_some_iff.mp step
    cases hs
    exact .inl ⟨i, uninitialized, loader, rfl, hloader, rfl⟩
  | isLoaded =>
    rw [next] at step
    split at step
    · rename_i hload
      split at step
      · rename_i asset hasset
        cases step
        exact .inr (.inl ⟨rfl, hload, .inl ⟨asset, hasset, rfl⟩⟩)
      · rename_i hnone
        obtain ⟨nextScene, hnext, hs⟩ := Option.bind_eq_some_iff.mp step
        cases hs
        exact .inr (.inl ⟨rfl, hload, .inr ⟨hnone, nextScene, hnext, rfl⟩⟩)
    · cases step
  | update transitioned =>
    rw [next] at step
    split at step
    · rename_i hlogin
      cases step
      exact .inr (.inr (.inl ⟨transitioned, rfl, hlogin, rfl⟩))
    · cases step
  | onConnect username password =>
    rw [next] at step
    split at step
    · obtain ⟨link, hlink, hs⟩ := Option.bind_eq_some_iff.mp step
      cases hs
      exact .inr (.inr (.inr ⟨_, link, rfl, rfl, hlink, rfl⟩))
    · cases step
  | send | handle entities print | receive =>
    obtain ⟨link, hlink, hs⟩ := Option.bind_eq_some_iff.mp step
    cases hs
    exact .inr (.inr (.inr ⟨_, link, rfl, rfl, hlink, rfl⟩))

theorem next_link {s s' : Application F R} {e : Event F R}
    (step : next parser files rows s e = some s') :
    match e.link with
    | some event => NativeClient.next rows s.link event = some s'.link
    | none => s'.link = s.link := by
  rcases next_cases step with ⟨i, uninitialized, loader, rfl, -, rfl⟩ |
    ⟨rfl, -, ⟨asset, -, rfl⟩ | ⟨-, nextScene, -, rfl⟩⟩ | ⟨transitioned, rfl, -, rfl⟩ |
    ⟨event, link, hevent, -, hlink, rfl⟩
  · rfl
  · rfl
  · rfl
  · rfl
  · rw [hevent]
    exact hlink

theorem next_loader {s s' : Application F R} {e : Event F R}
    (step : next parser files rows s e = some s') :
    (e.isThread = true ∧ ∃ i uninitialized,
      s.loader.next parser files i uninitialized = some s'.loader) ∨
        (e.isThread = false ∧ s'.loader = s.loader) := by
  rcases next_cases step with ⟨i, uninitialized, loader, rfl, hloader, rfl⟩ |
    ⟨rfl, -, ⟨asset, -, rfl⟩ | ⟨-, nextScene, -, rfl⟩⟩ | ⟨transitioned, rfl, -, rfl⟩ |
    ⟨event, link, -, hthread, -, rfl⟩
  · exact .inl ⟨rfl, i, uninitialized, hloader⟩
  · exact .inr ⟨rfl, rfl⟩
  · exact .inr ⟨rfl, rfl⟩
  · exact .inr ⟨rfl, rfl⟩
  · exact .inr ⟨hthread, rfl⟩

/-- The asset at `k` is loaded. -/
def Loaded (s : Application F R) (k : Nat) : Prop :=
  s.loader.loadQueue[k]?.any (·.loaded) = true

/-- What holds of the scenes and the assets after every run. -/
structure Ready (parser : NumberParser D R) (files : Str → Option Str) (created : BoundingBox R)
    (s : Application F R) : Prop where
  loader : s.loader.Sound parser files created
  checked : ∀ k < s.checked, Loaded s k
  scene : (s.scenes.currentScene = some .load ∧ s.scenes.nextScene .load = some .login) ∨
    ((s.scenes.currentScene = some .login ∧ s.scenes.nextScene .login = some .world ∨
      s.scenes.currentScene = some .world) ∧
      ∀ k < s.loader.loadQueue.length, Loaded s k)

omit [FloatBits F] [Add F] [Sub F] [Mul F] [LE F] [DecidableLE F] in
theorem Ready.thread {s : Application F R} (h : Ready parser files created s) {i : Nat}
    {uninitialized : BoundingBox R} {loader : Loader R}
    (hloader : s.loader.next parser files i uninitialized = some loader) :
    Ready parser files created { s with loader } := by
  have hkept (k : Nat) (hk : Loaded s k) : Loaded { s with loader } k :=
    h.loader.next_loaded hloader hk
  refine ⟨h.loader.next hloader, fun k hk => hkept k (h.checked k hk), ?_⟩
  rcases h.scene with hload | ⟨hscene, hall⟩
  · exact .inl hload
  · refine .inr ⟨hscene, fun k hk => hkept k (hall k ?_)⟩
    obtain ⟨asset, asset', hi, _, _, hqueue⟩ := Loader.next_eq hloader
    rwa [hqueue, List.length_set] at hk

omit [FloatBits F] [Add F] [Sub F] [Mul F] [LE F] [DecidableLE F] in
theorem Ready.next_load {s : Application F R} (h : Ready parser files created s)
    (hload : s.scenes.currentScene = some .load) : s.scenes.nextScene .load = some .login := by
  rcases h.scene with hnext | ⟨hother, _⟩
  · exact hnext.2
  · rw [hload] at hother
    simp at hother

omit [FloatBits F] [Add F] [Sub F] [Mul F] [LE F] [DecidableLE F] in
theorem Ready.check {s : Application F R} (h : Ready parser files created s)
    (hload : s.scenes.currentScene = some .load) {asset : Asset R}
    (hasset : s.loader.loadQueue[s.checked]? = some asset) :
    Ready parser files created
      { s with checked := if asset.loaded then s.checked + 1 else 0 } := by
  refine ⟨h.loader, fun k hk => ?_, .inl ⟨hload, h.next_load hload⟩⟩
  dsimp only at hk
  split at hk
  · rename_i hloaded
    rcases Nat.lt_succ_iff_lt_or_eq.mp hk with hk | rfl
    · exact h.checked k hk
    · rw [Loaded, hasset]
      exact hloaded
  · exact absurd hk (Nat.not_lt_zero _)

theorem Ready.step {s s' : Application F R} (h : Ready parser files created s) {e : Event F R}
    (step : next parser files rows s e = some s') : Ready parser files created s' := by
  rcases next_cases step with ⟨i, uninitialized, loader, -, hloader, rfl⟩ |
    ⟨-, hload, ⟨asset, hasset, rfl⟩ | ⟨hnone, nextScene, hnext, rfl⟩⟩ |
    ⟨transitioned, -, hlogin, rfl⟩ | ⟨event, link, -, -, -, rfl⟩
  · exact h.thread hloader
  · exact h.check hload hasset
  · rw [h.next_load hload] at hnext
    cases hnext
    -- `isLoaded` has been through the whole queue
    have hlength := List.getElem?_eq_none_iff.mp hnone
    refine ⟨h.loader, nofun, .inr ⟨.inl ⟨rfl, rfl⟩, fun k hk => h.checked k ?_⟩⟩
    exact Nat.lt_of_lt_of_le hk hlength
  · rcases h.scene with ⟨hload, _⟩ | ⟨⟨_, hnext⟩ | hworld, hall⟩
    · rw [hlogin] at hload
      cases hload
    · refine ⟨h.loader, h.checked, .inr ⟨?_, hall⟩⟩
      dsimp only
      split
      · rw [Scenes.next, hnext]
        exact .inr rfl
      · exact .inl ⟨hlogin, hnext⟩
    · rw [hlogin] at hworld
      cases hworld
  · exact ⟨h.loader, h.checked, h.scene⟩

theorem ready_run {es : List (Event F R)} {s : Application F R}
    (run : (application parser files rows created).Run es s) : Ready parser files created s := by
  refine run.invariant (I := fun _ => Ready parser files created) ?_ ?_
  · rintro s ⟨hscenes, hchecked, hresources, _, hqueue, _⟩
    refine ⟨⟨fun path meshes hfound => ?_, fun asset hasset => ?_⟩, fun k hk => ?_, .inl ?_⟩
    · rw [hresources] at hfound
      cases hfound
    · obtain ⟨hcreated, hloaded, hpoint⟩ := hqueue asset hasset
      refine ⟨?_, iff_of_false (by rw [hloaded]; nofun) (by rw [hpoint]; nofun)⟩
      rw [hpoint]
      cases hcontent : asset.content with
      | model path model =>
        rw [hcontent] at hcreated
        exact hcreated
      | technique passes => trivial
    · rw [hchecked] at hk
      exact absurd hk (Nat.not_lt_zero _)
    · rw [hscenes]
      exact ⟨rfl, rfl⟩
  · intro es s e s' _ h hstep
    exact h.step hstep

/-- Whatever the order in which the threads and the scenes take their steps, no scene but the load
scene is shown before every asset has what its file holds. -/
theorem finished_of_scene {es : List (Event F R)} {s : Application F R}
    (run : (application parser files rows created).Run es s)
    (hscene : s.scenes.currentScene ≠ some .load) :
    ∀ asset ∈ s.loader.loadQueue, asset.Finished parser files created := by
  have h := ready_run run
  rcases h.scene with hload | ⟨_, hall⟩
  · exact absurd hload.1 hscene
  · intro asset hasset
    obtain ⟨k, hk, rfl⟩ := List.mem_iff_getElem.mp hasset
    have hloaded := hall k hk
    rw [Loaded, List.getElem?_eq_getElem hk] at hloaded
    exact (h.loader.loadQueue _ hasset).finished hloaded

/-- The steps of threads up to here, and those that there may still be, are six for each asset. -/
theorem rank_run {es : List (Event F R)} {s : Application F R}
    (run : (application parser files rows created).Run es s) :
    es.countP Event.isThread + s.loader.rank ≤ 6 * s.loader.loadQueue.length := by
  refine run.invariant
    (I := fun es s => es.countP Event.isThread + s.loader.rank ≤ 6 * s.loader.loadQueue.length)
    ?_ ?_
  · rintro s ⟨_, _, _, _, hqueue, _⟩
    have hrank : s.loader.loadQueue.map (·.point.rank) = s.loader.loadQueue.map fun _ => 6 :=
      List.map_congr_left fun asset hasset => by rw [(hqueue asset hasset).2.2]; rfl
    rw [List.countP_nil, Loader.rank, hrank, List.map_const', List.sum_replicate_nat]
    omega
  · intro es s e s' _ h step
    rw [List.countP_append, List.countP_singleton]
    rcases next_loader step with ⟨he, i, uninitialized, hloader⟩ | ⟨he, hloader⟩
    · have hrank := Loader.rank_next hloader
      obtain ⟨_, _, _, _, _, hqueue⟩ := Loader.next_eq hloader
      rw [he, if_pos rfl, hqueue, List.length_set]
      omega
    · rw [he, hloader]
      exact h

/-- Once all assets are loaded, `isLoaded` goes through them and the login scene is entered. -/
theorem Ready.checks_end {s : Application F R} (h : Ready parser files created s)
    (rows : List LoginRow)
    (hload : s.scenes.currentScene = some .load)
    (hall : ∀ k < s.loader.loadQueue.length, Loaded s k) :
    ∃ es s', System.exec (next parser files rows) s es = some s' ∧
      s'.scenes.currentScene = some .login ∧ (∀ e ∈ es, e.isLoading = true) ∧
        es.length ≤ s.loader.loadQueue.length - s.checked + 1 := by
  induction hleft : s.loader.loadQueue.length - s.checked generalizing s with
  | zero =>
    have hnone : s.loader.loadQueue[s.checked]? = none :=
      List.getElem?_eq_none_iff.mpr (by omega)
    have step : next parser files rows s .isLoaded =
        some { s with scenes := s.scenes.enter .login (some .world), checked := 0 } := by
      rw [next, if_pos hload, hnone, h.next_load hload]
      rfl
    exact ⟨[.isLoaded], _, System.exec_cons step rfl, rfl, List.forall_mem_singleton.mpr rfl,
      Nat.le_refl _⟩
  | succ left ih =>
    have hlt : s.checked < s.loader.loadQueue.length := by omega
    have hloaded := hall s.checked hlt
    rw [Loaded, List.getElem?_eq_getElem hlt, Option.any_some] at hloaded
    have step : next parser files rows s .isLoaded =
        some { s with checked := s.checked + 1 } := by
      rw [next, if_pos hload, List.getElem?_eq_getElem hlt]
      dsimp only
      rw [if_pos hloaded]
    have hrest : s.loader.loadQueue.length - (s.checked + 1) = left := by omega
    obtain ⟨es, s', hexec, hlogin, hloading, hlength⟩ := ih (h.step step) hload hall hrest
    exact ⟨.isLoaded :: es, s', System.exec_cons step hexec, hlogin,
      List.forall_mem_cons.mpr ⟨rfl, hloading⟩, Nat.succ_le_succ hlength⟩

/-- From the load scene there is a way to the login scene, and no long one, if the files are
closed. -/
theorem Ready.load_ends {s : Application F R} (h : Ready parser files created s)
    (rows : List LoginRow)
    (hfiles : ∀ path jsonData, files path = some jsonData → Vars.Closed jsonData)
    (uninitialized : BoundingBox R) (hload : s.scenes.currentScene = some .load) :
    ∃ es s', System.exec (next parser files rows) s es = some s' ∧
      s'.scenes.currentScene = some .login ∧ (∀ e ∈ es, e.isLoading = true) ∧
        es.length ≤ s.loader.rank + s.loader.loadQueue.length + 1 := by
  induction hrank : s.loader.rank using Nat.strong_induction_on generalizing s with
  | h rank ih =>
    by_cases hall : ∀ k < s.loader.loadQueue.length, Loaded s k
    · obtain ⟨es, s', hexec, hlogin, hloading, hlength⟩ := h.checks_end rows hload hall
      exact ⟨es, s', hexec, hlogin, hloading, by omega⟩
    · push Not at hall
      obtain ⟨k, hk, hloaded⟩ := hall
      rw [Loaded, List.getElem?_eq_getElem hk, Option.any_some, Bool.not_eq_true] at hloaded
      obtain ⟨loader, hloader⟩ := h.loader.next_exists hfiles hk hloaded uninitialized
      have step : next parser files rows s (.thread k uninitialized) =
          some { s with loader } := by
        rw [next, hloader]
        rfl
      have hlt := Loader.rank_next hloader
      obtain ⟨_, _, _, _, _, hqueue⟩ := Loader.next_eq hloader
      obtain ⟨es, s', hexec, hlogin, hloading, hlength⟩ :=
        ih loader.rank (by omega) (h.thread hloader) hload rfl
      refine ⟨.thread k uninitialized :: es, s', System.exec_cons step hexec, hlogin,
        List.forall_mem_cons.mpr ⟨rfl, hloading⟩, ?_⟩
      rw [List.length_cons]
      dsimp only at hlength
      rw [hqueue, List.length_set] at hlength
      omega

/-- Until the server has accepted a login, it accepts each login that it asks the database for. -/
def Justified (rows : List LoginRow) (s : Application F R) (e : Event F R) : Prop :=
  ∀ event, e.link = some event → NativeClient.Justified rows s.link event

/-- The server has accepted a login before the world is shown. -/
structure Admitted (rows : List LoginRow) (es : List (Event F R)) (s : Application F R) : Prop where
  link : Consistent rows (es.filterMap Event.link) s.link
  world : s.scenes.currentScene = some .world → s.link.accepted ≠ []

theorem accepted_next {s s' : Link F} {e : NativeClient.Event F}
    (step : NativeClient.next rows s e = some s') (haccepted : s.accepted ≠ []) :
    s'.accepted ≠ [] := by
  cases e with
  | tryLogin l =>
    obtain ⟨client, _, hs⟩ := Option.bind_eq_some_iff.mp step
    cases hs
    exact haccepted
  | send | receive =>
    simp only [NativeClient.next] at step
    grind
  | handle entities print =>
    simp only [NativeClient.next] at step
    split at step
    · split at step
      · cases step
        exact List.append_ne_nil_of_left_ne_nil haccepted _
      · cases step
    · cases step

/-- The world is entered by a client that is logged in. -/
theorem world_next {s s' : Application F R} {e : Event F R} (h : Ready parser files created s)
    (step : next parser files rows s e = some s')
    (hworld : s'.scenes.currentScene = some .world) :
    s.scenes.currentScene = some .world ∨ isLoggedIn s.link.client = true := by
  rcases next_cases step with ⟨i, uninitialized, loader, -, -, rfl⟩ |
    ⟨-, hload, ⟨asset, -, rfl⟩ | ⟨-, nextScene, hnext, rfl⟩⟩ | ⟨transitioned, -, hlogin, rfl⟩ |
    ⟨event, link, -, -, -, rfl⟩
  · exact .inl hworld
  · exact .inl hworld
  · rw [h.next_load hload] at hnext
    cases hnext
    cases hworld
  · dsimp only at hworld
    split at hworld
    · rename_i hlogged
      exact .inr hlogged.1
    · exact .inl hworld
  · exact .inl hworld

theorem Admitted.step {s s' : Application F R} {es : List (Event F R)} {e : Event F R}
    (h : Admitted rows es s) (ready : Ready parser files created s)
    (justified : Justified rows s e) (step : next parser files rows s e = some s') :
    Admitted rows (es ++ [e]) s' := by
  have hlink := next_link step
  have haccepted (hworld : s'.scenes.currentScene = some .world) : s.link.accepted ≠ [] := by
    rcases world_next ready step hworld with hworld | hlogged
    · exact h.world hworld
    · exact h.link.loggedIn (of_decide_eq_true hlogged)
  cases hevent : e.link with
  | none =>
    rw [hevent] at hlink
    refine ⟨?_, fun hworld => ?_⟩
    · rw [List.filterMap_append, List.filterMap_cons_none hevent, List.filterMap_nil,
        List.append_nil, hlink]
      exact h.link
    · rw [hlink]
      exact haccepted hworld
  | some event =>
    rw [hevent] at hlink
    refine ⟨?_, fun hworld => accepted_next hlink (haccepted hworld)⟩
    rw [List.filterMap_append, List.filterMap_cons_some hevent, List.filterMap_nil]
    exact consistent_step h.link (justified event hevent) hlink

theorem admitted_run {es : List (Event F R)} {s : Application F R}
    (run : ((application parser files rows created).restrict (Justified rows)).Run es s) :
    Admitted rows es s := by
  refine run.invariant (I := Admitted rows) ?_ ?_
  · rintro s ⟨hscenes, _, _, _, _, hlink⟩
    refine ⟨link_consistent (.nil hlink), fun hworld => ?_⟩
    rw [hscenes] at hworld
    cases hworld
  · intro es s e s' run h step
    exact h.step (ready_run run.of_restrict) step.1 step.2

/-- Whatever the order in which the threads, the scenes and the network take their steps, the world
is shown to a client that has all its assets, after a login with what was typed in. -/
theorem world_entered {es : List (Event F R)} {s : Application F R}
    (run : ((application parser files rows created).restrict (Justified rows)).Run es s)
    (hworld : s.scenes.currentScene = some .world) :
    (∀ asset ∈ s.loader.loadQueue, asset.Finished parser files created) ∧
      ∃ username password, .onConnect username password ∈ es ∧
        (Starfall.tryLogin rows
          ⟨LOGIN_STATE_NOT_LOGGED_IN, 0, 0, username, password⟩).isSome := by
  refine ⟨finished_of_scene run.of_restrict (by rw [hworld]; decide), ?_⟩
  have h := admitted_run run
  obtain ⟨l, hl⟩ := List.exists_mem_of_ne_nil _ (h.world hworld)
  obtain ⟨hmem, hlogin⟩ := h.link.accepted l hl
  obtain ⟨e, he, hevent⟩ := List.mem_filterMap.mp hmem
  cases e with
  | onConnect username password =>
    cases hevent
    exact ⟨username, password, he, hlogin⟩
  | thread | isLoaded | send | handle | receive | update => cases hevent

/-- The load scene cannot hang: steps of the threads and of `isLoaded` lead from here to the login
scene, and they and the steps of the threads up to here are together no more than seven for each
asset, and one. -/
theorem load_scene_ends {es : List (Event F R)} {s : Application F R}
    (run : (application parser files rows created).Run es s)
    (hload : s.scenes.currentScene = some .load)
    (hfiles : ∀ path jsonData, files path = some jsonData → Vars.Closed jsonData)
    (uninitialized : BoundingBox R) :
    ∃ es' s', System.exec (next parser files rows) s es' = some s' ∧
      s'.scenes.currentScene = some .login ∧ (∀ e ∈ es', e.isLoading = true) ∧
        es.countP Event.isThread + es'.length ≤ 7 * s.loader.loadQueue.length + 1 := by
  obtain ⟨es', s', hexec, hlogin, hloading, hlength⟩ :=
    (ready_run run).load_ends rows hfiles uninitialized hload
  have hrank := rank_run run
  exact ⟨es', s', hexec, hlogin, hloading, by omega⟩

/-- In the scenes after the load scene, a model whose file the exporter wrote is drawn as what was
selected, in both passes, unless one of the meshes has no face with a material. -/
theorem exported_drawn {python : Python D} (h : Inverse python parser) {obs : List (Object D)}
    {es : List (Event F R)} {s : Application F R}
    (run : (application parser files rows created).Run es s)
    (hscene : s.scenes.currentScene ≠ some .load) {path text : Str} {model : Model R}
    {passes : List Pass} (hfile : files path = some text)
    (hdumps : Dumps (document python obs) text)
    (hmodel : ∃ asset ∈ s.loader.loadQueue, asset.content = .model path model)
    (htechnique : ∃ asset ∈ s.loader.loadQueue, asset.content = .technique passes) :
    render passes model =
      if ∀ ob ∈ obs, ob.Drawable then
        .ok ((obs.flatMap (shown python parser.float)).flatMap fun vertices =>
          [(.fill, vertices), (.line, vertices)])
      else .error (.outOfRange 0) := by
  have hfinished := finished_of_scene run hscene
  obtain ⟨asset, hasset, hcontent⟩ := htechnique
  have hpasses := hfinished asset hasset
  rw [Asset.Finished, hcontent] at hpasses
  obtain ⟨asset, hasset, hcontent⟩ := hmodel
  have hread := hfinished asset hasset
  rw [Asset.Finished, hcontent] at hread
  obtain ⟨meshes, hmeshes, rfl⟩ := hread
  simp only [Assets.Read, hfile] at hmeshes
  obtain ⟨uninitialized, hmeshes⟩ := hmeshes
  have hfile : (do
      let meshes ← loadMeshes parser uninitialized text
      draw (meshes.map MeshRenderer.update)) = _ := draw_dumps h hdumps
  rw [hmeshes] at hfile
  have hdraw : draw (meshes.map MeshRenderer.update) =
      if ∀ ob ∈ obs, ob.Drawable then .ok (obs.flatMap (shown python parser.float))
      else .error (.outOfRange 0) := hfile
  rw [hpasses, render, load_renderers, hdraw]
  split
  · rfl
  · rfl

end Steps

/-- An application with a model and the technique, and a client that is not connected. -/
def started : Application UInt32 Int where
  scenes := Scenes.enter ⟨none, fun _ => none⟩ .load (some .login)
  loader := ⟨fun _ => none,
    [⟨.model [109] ⟨[], [], origin⟩, false, .run⟩, ⟨.technique [], false, .run⟩]⟩
  checked := 0
  link := freshLink

/-- The loader once both have loaded, where `meshes` are those of the file. -/
def plateLoader (meshes : List (Mesh Int)) : Loader Int :=
  ⟨fun other => if other = [109] then some meshes else none,
    [⟨.model [109] (Model.load origin meshes), true, .stopped⟩,
      ⟨.technique [.fill, .line], true, .stopped⟩]⟩

/-- Both threads load, one after the other. -/
def loads : List (Event UInt32 Int) :=
  List.replicate 6 (.thread 0 origin) ++ List.replicate 3 (.thread 1 origin)

def checks : List (Event UInt32 Int) := List.replicate 3 .isLoaded

theorem started_loads {text : Str} {meshes : List (Mesh Int)}
    (hmeshes : loadMeshes reader origin text = .ok meshes) :
    System.exec (next reader (fun _ => some text) loginTable) started (loads ++ checks) = some
      { started with
        scenes := started.scenes.enter .login (some .world), loader := plateLoader meshes } := by
  have hloads : System.exec (next reader (fun _ => some text) loginTable) started loads =
      some { started with loader := plateLoader meshes } := by
    simp [loads, started, plateLoader, List.replicate, System.exec, next, Loader.next, Asset.next,
      hmeshes, Model.load]
  rw [System.exec_append hloads]
  rfl

/-- Events of the threads and the load scene are justified. -/
theorem run_quiet {past es : List (Event UInt32 Int)} {s s' : Application UInt32 Int}
    {files : Str → Option Str} (hquiet : ∀ e ∈ es, e.link = none)
    (start : ((application reader files loginTable origin).restrict (Justified loginTable)).Run
      past s)
    (h : System.exec (next reader files loginTable) s es = some s') :
    ((application reader files loginTable origin).restrict (Justified loginTable)).Run
      (past ++ es) s' := by
  induction es generalizing past s with
  | nil =>
    cases h
    rwa [List.append_nil]
  | cons e es ih =>
    rw [List.forall_mem_cons] at hquiet
    obtain ⟨mid, hmid, hrest⟩ := Option.bind_eq_some_iff.mp h
    have justified : Justified loginTable s e := by
      intro event hevent
      rw [hquiet.1] at hevent
      cases hevent
    simpa using ih hquiet.2 (start.snoc ⟨justified, hmid⟩) hrest

/-- In the login scene whatever can happen to the client and its server can happen. -/
theorem run_link {past : List (Event UInt32 Int)} {s : Application UInt32 Int}
    {files : Str → Option Str} {e : Event UInt32 Int} {event : NativeClient.Event UInt32}
    {link : Link UInt32}
    (start : ((application reader files loginTable origin).restrict (Justified loginTable)).Run
      past s)
    (hlogin : s.scenes.currentScene = some .login) (he : e.link = some event)
    (justified : NativeClient.Justified loginTable s.link event)
    (step : NativeClient.next loginTable s.link event = some link) :
    ((application reader files loginTable origin).restrict (Justified loginTable)).Run
      (past ++ [e]) { s with link } := by
  refine start.snoc ⟨fun other hother => ?_, ?_⟩
  · rw [he] at hother
    cases hother
    exact justified
  · show next reader files loginTable s e = _
    cases e with
    | onConnect username password =>
      cases he
      rw [next, if_pos hlogin, step]
      rfl
    | send | handle entities print | receive =>
      cases he
      rw [next, step]
      rfl
    | thread | isLoaded | update => cases he

/-- The events from the start to the world. -/
def plateEvents : List (Event UInt32 Int) :=
  loads ++ checks ++ [.onConnect rootLogin.username rootLogin.password, .send,
    .handle ⟨[], List.nodup_nil⟩ .printed, .receive, .update true]

/-- The client logs in as root. -/
theorem freshLink_login : ∃ first second third fourth,
    NativeClient.next loginTable freshLink (.tryLogin rootLogin) = some first ∧
      NativeClient.next loginTable first .send = some second ∧
      NativeClient.Justified loginTable second (.handle ⟨[], List.nodup_nil⟩ .printed) ∧
      NativeClient.next loginTable second (.handle ⟨[], List.nodup_nil⟩ .printed) = some third ∧
      NativeClient.next loginTable third .receive = some fourth ∧
      isLoggedIn fourth.client = true := by
  have ended : (System.exec (NativeClient.next loginTable) freshLink loginEvents).any
      (fun s => isLoggedIn s.client) = true := by decide +kernel
  obtain ⟨fourth, hexec, hlogged⟩ := (Option.any_eq_true _ _).mp ended
  obtain ⟨first, hfirst, hexec⟩ := Option.bind_eq_some_iff.mp hexec
  obtain ⟨second, hsecond, hexec⟩ := Option.bind_eq_some_iff.mp hexec
  obtain ⟨third, hthird, hexec⟩ := Option.bind_eq_some_iff.mp hexec
  obtain ⟨_, hfourth, hexec⟩ := Option.bind_eq_some_iff.mp hexec
  cases hexec
  refine ⟨first, second, third, fourth, hfirst, hsecond, ?_, hthird, hfourth, hlogged⟩
  cases hfirst
  cases hsecond
  intro packet toServer l hserver hlogin _
  cases hserver
  cases hlogin
  exact .inl rfl

theorem plate_run {text : Str} {meshes : List (Mesh Int)}
    (hmeshes : loadMeshes reader origin text = .ok meshes) :
    ∃ s, ((application reader (fun _ => some text) loginTable origin).restrict
      (Justified loginTable)).Run plateEvents s ∧ s.scenes.currentScene = some .world ∧
        s.loader = plateLoader meshes := by
  have start : ((application reader (fun _ => some text) loginTable origin).restrict
      (Justified loginTable)).Run [] started :=
    .nil ⟨rfl, rfl, fun _ => rfl, by decide, by simp [started, Content.Created], _, _, _, _, rfl⟩
  have loaded := run_quiet (by decide) start (started_loads hmeshes)
  obtain ⟨first, second, third, fourth, hfirst, hsecond, hjustified, hthird, hfourth, hlogged⟩ :=
    freshLink_login
  have connected := run_link (e := Event.onConnect rootLogin.username rootLogin.password)
    loaded rfl rfl (fun _ h => absurd h (by decide)) hfirst
  have sent := run_link (e := Event.send) connected rfl rfl trivial hsecond
  have handled := run_link (e := Event.handle ⟨[], List.nodup_nil⟩ .printed) sent rfl rfl
    hjustified hthird
  have received := run_link (e := Event.receive) handled rfl rfl trivial hfourth
  have updated := received.snoc (l := Event.update true) ⟨fun _ => nofun, rfl⟩
  rw [if_pos ⟨hlogged, rfl⟩] at updated
  exact ⟨_, updated, rfl, rfl⟩

/-- The plate is selected, exported, loaded, and drawn in the world. -/
theorem plate_drawn : ∃ files s passes model,
    (application reader files loginTable origin).Run plateEvents s ∧
      s.scenes.currentScene = some .world ∧
        render passes model = .ok ((shown millionths id plate).flatMap fun vertices =>
          [(.fill, vertices), (.line, vertices)]) := by
  obtain ⟨text, hdumps⟩ := plate_written
  have hmeshes : loadMeshes reader origin text = _ := loadMeshes_dumps millionths_inverse hdumps
  obtain ⟨s, run, hworld, hloader⟩ := plate_run hmeshes
  have hmodel : ∃ asset ∈ s.loader.loadQueue, asset.content =
      .model [109] (Model.load origin ([plate].flatMap (triangulated millionths id origin))) := by
    rw [hloader]
    exact ⟨_, List.mem_cons_self, rfl⟩
  have htechnique : ∃ asset ∈ s.loader.loadQueue, asset.content = .technique [.fill, .line] := by
    rw [hloader]
    exact ⟨_, List.mem_cons_of_mem _ List.mem_cons_self, rfl⟩
  have hdrawn := exported_drawn millionths_inverse run.of_restrict (by rw [hworld]; decide) rfl
    hdumps hmodel htechnique
  rw [if_pos (by decide)] at hdrawn
  exact ⟨_, s, _, _, run.of_restrict, hworld, hdrawn⟩

/-- The client with the plate has logged in. -/
theorem plate_entered : ∃ username password, .onConnect username password ∈ plateEvents ∧
    (Starfall.tryLogin loginTable
      ⟨LOGIN_STATE_NOT_LOGGED_IN, 0, 0, username, password⟩).isSome := by
  obtain ⟨text, hdumps⟩ := plate_written
  have hmeshes : loadMeshes reader origin text = _ := loadMeshes_dumps millionths_inverse hdumps
  obtain ⟨s, run, hworld, hloader⟩ := plate_run hmeshes
  exact (world_entered run hworld).2

theorem braces_end : ∃ es' s', System.exec (next reader (fun _ => some [123, 125]) loginTable)
    started es' = some s' ∧ s'.scenes.currentScene = some .login ∧
      (∀ e ∈ es', e.isLoading = true) ∧ 0 + es'.length ≤ 15 := by
  have start : (application reader (fun _ => some [123, 125]) loginTable origin).Run [] started :=
    .nil ⟨rfl, rfl, fun _ => rfl, by decide, by simp [started, Content.Created], _, _, _, _, rfl⟩
  have hfiles : ∀ path jsonData, (fun _ : Str => some [123, 125]) path = some jsonData →
      Vars.Closed jsonData := by
    intro path jsonData hfile
    cases hfile
    exact ⟨[123], 125, by decide, rfl⟩
  exact load_scene_ends start rfl hfiles origin

end Application

end Starfall.NativeClient
