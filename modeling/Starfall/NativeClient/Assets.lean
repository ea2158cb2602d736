import Starfall.Common.Accepted
import Starfall.NativeClient.ModelFile
import Starfall.ProofKit.Runs

/-! The threads that load the assets (`Assets.cpp`, `Model::load` and `ToonTechnique::load`).  The
models share `Model::Resources`, which one thread at a time looks into or adds to, so that a file
may be parsed more than once.  A step of a thread ends where another thread can see what it did. -/

namespace Starfall.Assets

open Models Exporter ProofKit.Runs

/-- The passes of `ToonTechnique`. -/
inductive Pass
  | fill
  | line
  deriving DecidableEq

/-- An asset with what it has loaded. -/
inductive Content (R : Type)
  | model (path : Str) (model : Model R)
  | technique (passes : List Pass)

/-- What the thread of an asset does next in `AssetRunnable::run`. -/
inductive Point
  | run
  /-- A model is looked up in `Model::Resources`. -/
  | load
  | read
  | publish
  | update
  | finish
  | stopped
  deriving DecidableEq

structure Asset (R : Type) where
  content : Content R
  loaded : Bool
  point : Point

/-- `Assets::Loader` with its queue, and `Model::Resources`. -/
structure Loader (R : Type) where
  resources : Str → Option (List (Mesh R))
  loadQueue : List (Asset R)

/-- What a model and a technique are when they are enqueued. -/
def Content.Created {R : Type} (created : BoundingBox R) : Content R → Prop
  | .model _ contents => contents = ⟨[], [], created⟩
  | .technique passes => passes = []

section Thread

variable {D R : Type} [LinearOrder R] (parser : NumberParser D R) (files : Str → Option Str)

/-- A step of the thread of an asset, where `uninitialized` is what the bounds of a mesh without
vertices are.  There is none after a read behind the end of a text, which is not defined. -/
def Asset.next (resources : Str → Option (List (Mesh R))) (uninitialized : BoundingBox R)
    (asset : Asset R) : Option ((Str → Option (List (Mesh R))) × Asset R) :=
  match asset.point, asset.content with
  | .run, content => some (resources, ⟨content, false, .load⟩)
  | .load, .technique _ => some (resources, ⟨.technique [.fill, .line], asset.loaded, .finish⟩)
  | .load, .model path model =>
    match resources path with
    | some meshes => some (resources, ⟨.model path { model with meshes }, asset.loaded, .update⟩)
    | none => some (resources, ⟨.model path { model with meshes := [] }, asset.loaded, .read⟩)
  | .read, .model path model =>
    match files path with
    | some jsonData =>
      match loadMeshes parser uninitialized jsonData with
      | .ok meshes => some (resources, ⟨.model path { model with meshes }, asset.loaded, .publish⟩)
      | .error _ => none
    | none => some (resources, ⟨.model path model, asset.loaded, .update⟩)
  | .publish, .model path model =>
    some (fun other => if other = path then some model.meshes else resources other,
      ⟨.model path model, asset.loaded, .update⟩)
  | .update, .model path model =>
    some (resources, ⟨.model path model.update, asset.loaded, .finish⟩)
  | .finish, content => some (resources, ⟨content, true, .stopped⟩)
  | _, _ => none

/-- A step of the thread of the asset at `i`. -/
def Loader.next (loader : Loader R) (i : Nat) (uninitialized : BoundingBox R) :
    Option (Loader R) := do
  let asset ← loader.loadQueue[i]?
  let (resources, asset) ← asset.next parser files loader.resources uninitialized
  pure { resources, loadQueue := loader.loadQueue.set i asset }

/-- The meshes of a path: those that are parsed from its file, and none without a file. -/
def Read (path : Str) (meshes : List (Mesh R)) : Prop :=
  match files path with
  | some jsonData => ∃ uninitialized, loadMeshes parser uninitialized jsonData = .ok meshes
  | none => meshes = []

variable (created : BoundingBox R)

/-- What a model is before a step of its thread. -/
def Stands (path : Str) (model : Model R) : Point → Prop
  | .run | .load => model = ⟨[], [], created⟩
  | .read => model = ⟨[], [], created⟩
  | .publish | .update =>
    ∃ meshes, Read parser files path meshes ∧ model = ⟨meshes, [], created⟩
  | .finish | .stopped =>
    ∃ meshes, Read parser files path meshes ∧ model = Model.load created meshes

/-- What a technique is before a step of its thread, which does not read a file. -/
def Equipped (passes : List Pass) : Point → Prop
  | .run | .load => True
  | .finish | .stopped => passes = [.fill, .line]
  | _ => False

structure Asset.Sound (asset : Asset R) : Prop where
  content : match asset.content with
    | .model path model => Stands parser files created path model asset.point
    | .technique passes => Equipped passes asset.point
  loaded : asset.loaded = true ↔ asset.point = .stopped

/-- An asset that has loaded what it stands for. -/
def Asset.Finished (asset : Asset R) : Prop :=
  match asset.content with
  | .model path model => ∃ meshes, Read parser files path meshes ∧ model = Model.load created meshes
  | .technique passes => passes = [.fill, .line]

structure Loader.Sound (loader : Loader R) : Prop where
  resources : ∀ path meshes, loader.resources path = some meshes → Read parser files path meshes
  loadQueue : ∀ asset ∈ loader.loadQueue, asset.Sound parser files created

/-- The steps of a thread that there may still be. -/
def Point.rank : Point → Nat
  | .run => 6
  | .load => 5
  | .read => 4
  | .publish => 3
  | .update => 2
  | .finish => 1
  | .stopped => 0

variable {parser files created}

theorem Asset.rank_next {asset asset' : Asset R}
    {resources resources' : Str → Option (List (Mesh R))} {uninitialized : BoundingBox R}
    (step : asset.next parser files resources uninitialized = some (resources', asset')) :
    asset'.point.rank < asset.point.rank := by
  grind [Asset.next, Point.rank]

/-- The thread adds meshes for others in one step only. -/
theorem Asset.resources_next {asset asset' : Asset R}
    {resources resources' : Str → Option (List (Mesh R))} {uninitialized : BoundingBox R}
    (step : asset.next parser files resources uninitialized = some (resources', asset')) :
    resources' = resources ∨ asset.point = .publish ∧
      ∃ path model, asset.content = .model path model ∧
        resources' = fun other => if other = path then some model.meshes else resources other := by
  grind [Asset.next]

theorem Asset.loaded_next {asset asset' : Asset R}
    (h : asset.loaded = true ↔ asset.point = .stopped)
    {resources resources' : Str → Option (List (Mesh R))} {uninitialized : BoundingBox R}
    (step : asset.next parser files resources uninitialized = some (resources', asset')) :
    asset'.loaded = true ↔ asset'.point = .stopped := by
  grind [Asset.next]

theorem Asset.Sound.published {asset : Asset R} (h : asset.Sound parser files created)
    (hpoint : asset.point = .publish) {path : Str} {model : Model R}
    (hmodel : asset.content = .model path model) : Read parser files path model.meshes := by
  have hcontent := h.content
  rw [hmodel, hpoint] at hcontent
  obtain ⟨meshes, hread, rfl⟩ := hcontent
  exact hread

/-- The meshes that the thread finds are those of the file, and so are those it adds for others. -/
theorem Asset.Sound.next {asset asset' : Asset R} (h : asset.Sound parser files created)
    {resources resources' : Str → Option (List (Mesh R))} {uninitialized : BoundingBox R}
    (hresources : ∀ path meshes, resources path = some meshes → Read parser files path meshes)
    (step : asset.next parser files resources uninitialized = some (resources', asset')) :
    (∀ path meshes, resources' path = some meshes → Read parser files path meshes) ∧
      asset'.Sound parser files created := by
  refine ⟨?_, ?_, Asset.loaded_next h.loaded step⟩
  · rcases Asset.resources_next step with rfl | ⟨hpoint, path, model, hmodel, rfl⟩
    · exact hresources
    · intro other meshes hfound
      dsimp only at hfound
      split at hfound
      · rename_i hother
        cases hfound
        rw [hother]
        exact h.published hpoint hmodel
      · exact hresources other meshes hfound
  · obtain ⟨content, loaded, point⟩ := asset
    have hcontent := h.content
    cases content with
    | technique passes =>
      cases point with
      | run | finish =>
        cases step
        exact hcontent
      | load =>
        cases step
        exact rfl
      | read | publish | update | stopped => cases step
    | model path model =>
      cases point with
      | run | finish =>
        cases step
        exact hcontent
      | load =>
        have hmodel : model = ⟨[], [], created⟩ := hcontent
        subst hmodel
        simp only [Asset.next] at step
        split at step
        · rename_i meshes hfound
          cases step
          exact ⟨meshes, hresources path meshes hfound, rfl⟩
        · cases step
          exact rfl
      | read =>
        have hmodel : model = ⟨[], [], created⟩ := hcontent
        subst hmodel
        simp only [Asset.next] at step
        split at step
        · rename_i jsonData hfile
          split at step
          · rename_i meshes hmeshes
            cases step
            refine ⟨meshes, ?_, rfl⟩
            rw [Read, hfile]
            exact ⟨uninitialized, hmeshes⟩
          · cases step
        · rename_i hfile
          cases step
          exact ⟨[], by rw [Read, hfile], rfl⟩
      | publish | update =>
        obtain ⟨meshes, hread, rfl⟩ := hcontent
        cases step
        exact ⟨meshes, hread, rfl⟩
      | stopped => cases step

theorem Asset.Sound.finished {asset : Asset R} (h : asset.Sound parser files created)
    (hloaded : asset.loaded = true) : asset.Finished parser files created := by
  have hcontent := h.content
  rw [h.loaded.mp hloaded] at hcontent
  rw [Asset.Finished]
  cases hasset : asset.content with
  | model path model =>
    rw [hasset] at hcontent
    exact hcontent
  | technique passes =>
    rw [hasset] at hcontent
    exact hcontent

/-- A text that is closed has meshes, if only none. -/
theorem loadMeshes_closed {jsonData : Str} (h : Vars.Closed jsonData)
    (uninitialized : BoundingBox R) :
    ∃ meshes, loadMeshes parser uninitialized jsonData = .ok meshes := by
  rw [loadMeshes]
  rcases Vars.parse_cases jsonData with ⟨v, hv, -⟩ | ⟨message, hmessage⟩ | ⟨fault, -, hclosed⟩
  · rw [hv]
    dsimp only
    split
    · exact ⟨_, rfl⟩
    · exact ⟨_, rfl⟩
  · rw [hmessage]
    exact ⟨_, rfl⟩
  · exact absurd h hclosed

/-- A thread that has not stopped can go on when the files are closed. -/
theorem Asset.Sound.next_isSome {asset : Asset R} (h : asset.Sound parser files created)
    (hloaded : asset.loaded = false) (resources : Str → Option (List (Mesh R)))
    (uninitialized : BoundingBox R)
    (hfiles : ∀ path jsonData, files path = some jsonData → Vars.Closed jsonData) :
    (asset.next parser files resources uninitialized).isSome := by
  have hrunning : asset.point ≠ .stopped := by
    intro hstopped
    rw [h.loaded.mpr hstopped] at hloaded
    cases hloaded
  obtain ⟨content, loaded, point⟩ := asset
  have hcontent := h.content
  cases content with
  | technique passes =>
    cases point with
    | run | load | finish => rfl
    | read | publish | update => cases hcontent
    | stopped => exact absurd rfl hrunning
  | model path model =>
    cases point with
    | run | publish | update | finish => rfl
    | load =>
      simp only [Asset.next]
      split <;> rfl
    | read =>
      simp only [Asset.next]
      split
      · rename_i jsonData hfile
        obtain ⟨meshes, hmeshes⟩ := loadMeshes_closed (hfiles path jsonData hfile) uninitialized
        rw [hmeshes]
        rfl
      · rfl
    | stopped => exact absurd rfl hrunning

theorem load_renderers (meshes : List (Mesh R)) :
    (Model.load created meshes).renderers = meshes := by
  have happend (more : List (Mesh R)) (model : Model R) :
      (more.foldl Model.append model).renderers = model.renderers ++ more := by
    induction more generalizing model with
    | nil => simp
    | cons mesh more ih =>
      rw [List.foldl_cons, ih]
      simp [Model.append]
  exact happend meshes _

theorem Loader.next_eq {loader loader' : Loader R} {i : Nat} {uninitialized : BoundingBox R}
    (step : loader.next parser files i uninitialized = some loader') :
    ∃ (asset asset' : Asset R) (hi : i < loader.loadQueue.length), loader.loadQueue[i] = asset ∧
      asset.next parser files loader.resources uninitialized = some (loader'.resources, asset') ∧
        loader'.loadQueue = loader.loadQueue.set i asset' := by
  rw [Loader.next] at step
  obtain ⟨asset, hasset, step⟩ := Option.bind_eq_some_iff.mp step
  obtain ⟨⟨resources, asset'⟩, hnext, step⟩ := Option.bind_eq_some_iff.mp step
  cases step
  obtain ⟨hi, hasset⟩ := List.getElem?_eq_some_iff.mp hasset
  exact ⟨asset, asset', hi, hasset, hnext, rfl⟩

/-- While an asset is not loaded, some thread can go on. -/
theorem Loader.Sound.next_exists {loader : Loader R} (h : loader.Sound parser files created)
    (hfiles : ∀ path jsonData, files path = some jsonData → Vars.Closed jsonData) {k : Nat}
    (hk : k < loader.loadQueue.length) (hloaded : loader.loadQueue[k].loaded = false)
    (uninitialized : BoundingBox R) :
    ∃ loader', loader.next parser files k uninitialized = some loader' := by
  have hasset := h.loadQueue _ (List.getElem_mem hk)
  obtain ⟨⟨resources, asset⟩, hnext⟩ := Option.isSome_iff_exists.mp
    (hasset.next_isSome hloaded loader.resources uninitialized hfiles)
  refine ⟨⟨resources, loader.loadQueue.set k asset⟩, ?_⟩
  rw [Loader.next, List.getElem?_eq_getElem hk, Option.bind_eq_bind, Option.bind_some, hnext]
  rfl

theorem Loader.Sound.next {loader loader' : Loader R} (h : loader.Sound parser files created)
    {i : Nat} {uninitialized : BoundingBox R}
    (step : loader.next parser files i uninitialized = some loader') :
    loader'.Sound parser files created := by
  obtain ⟨asset, asset', hi, rfl, hnext, hqueue⟩ := Loader.next_eq step
  obtain ⟨hresources, hasset⟩ :=
    (h.loadQueue _ (List.getElem_mem hi)).next h.resources hnext
  refine ⟨hresources, fun other hother => ?_⟩
  rw [hqueue] at hother
  rcases List.mem_or_eq_of_mem_set hother with hother | rfl
  · exact h.loadQueue other hother
  · exact hasset

/-- No step takes back that an asset is loaded. -/
theorem Loader.Sound.next_loaded {loader loader' : Loader R}
    (h : loader.Sound parser files created) {i : Nat} {uninitialized : BoundingBox R}
    (step : loader.next parser files i uninitialized = some loader') {k : Nat}
    (hloaded : loader.loadQueue[k]?.any (·.loaded) = true) :
    loader'.loadQueue[k]?.any (·.loaded) = true := by
  obtain ⟨asset, asset', hi, rfl, hnext, hqueue⟩ := Loader.next_eq step
  rw [hqueue]
  by_cases hk : i = k
  · subst hk
    rw [List.getElem?_eq_getElem hi] at hloaded
    have hstopped := (h.loadQueue _ (List.getElem_mem hi)).loaded.mp hloaded
    have hrank := Asset.rank_next hnext
    rw [hstopped] at hrank
    exact absurd hrank (Nat.not_lt_zero _)
  · rwa [List.getElem?_set_ne hk]

/-- The steps of all threads that there may still be. -/
def Loader.rank (loader : Loader R) : Nat := (loader.loadQueue.map (·.point.rank)).sum

theorem Loader.rank_next {loader loader' : Loader R} {i : Nat} {uninitialized : BoundingBox R}
    (step : loader.next parser files i uninitialized = some loader') :
    loader'.rank < loader.rank := by
  obtain ⟨asset, asset', hi, rfl, hnext, hqueue⟩ := Loader.next_eq step
  have hrank := Asset.rank_next hnext
  have hsplit : loader.loadQueue = loader.loadQueue.take i ++ loader.loadQueue[i] ::
      loader.loadQueue.drop (i + 1) := by
    rw [← List.drop_eq_getElem_cons, List.take_append_drop]
  rw [Loader.rank, Loader.rank, hqueue, List.set_eq_take_append_cons_drop, if_pos hi]
  conv_rhs => rw [hsplit]
  simp only [List.map_append, List.map_cons, List.sum_append, List.sum_cons]
  omega

end Thread

end Starfall.Assets
