import Mathlib.Order.MinMax
import Starfall.ProofKit.Folds

/-! The models of the client (`Model.h` and `Model.cpp`) with their bounding boxes. -/

namespace Starfall.Models

open ProofKit.Folds

structure Vec3 (R : Type) where
  x : R
  y : R
  z : R
  deriving DecidableEq

structure Material (R : Type) where
  name : List Char
  alpha : R
  specularColor : Vec3 R
  diffuseColor : Vec3 R

structure Face (R : Type) where
  vertices : List (Vec3 R)
  normals : List (Vec3 R)
  materialIndex : UInt32

structure BoundingBox (R : Type) where
  min : Vec3 R
  max : Vec3 R

structure Mesh (R : Type) where
  name : List Char
  materials : List (Material R)
  faces : List (Face R)
  boundingBox : BoundingBox R

/-- A model, with the meshes that its renderers were made of. -/
structure Model (R : Type) where
  meshes : List (Mesh R)
  renderers : List (Mesh R)
  boundingBox : BoundingBox R

def Mesh.vertices {R : Type} (mesh : Mesh R) : List (Vec3 R) := mesh.faces.flatMap (·.vertices)

variable {R : Type} [LinearOrder R]

def lower (bound value : R) : R := if bound > value then value else bound

def upper (bound value : R) : R := if bound < value then value else bound

/-- The bounds after one vertex, with `none` before the first. -/
def bound : Option (BoundingBox R) → Vec3 R → Option (BoundingBox R)
  | none, vertex => some ⟨vertex, vertex⟩
  | some box, vertex => some
    { min := ⟨lower box.min.x vertex.x, lower box.min.y vertex.y, lower box.min.z vertex.z⟩
      max := ⟨upper box.max.x vertex.x, upper box.max.y vertex.y, upper box.max.z vertex.z⟩ }

/-- The box of some faces, where `uninitialized` is what the bounds are without a vertex. -/
def calculateBoundingBox (uninitialized : BoundingBox R) (meshFaces : List (Face R)) :
    BoundingBox R :=
  (meshFaces.foldl (fun box face => face.vertices.foldl bound box) none).getD uninitialized

/-- The loop of `update` for one mesh: a renderer for it, and the box of the model around its
own. -/
def Model.append (model : Model R) (mesh : Mesh R) : Model R :=
  let low := mesh.boundingBox.min
  let high := mesh.boundingBox.max
  let box := model.boundingBox
  { model with
    renderers := model.renderers ++ [mesh]
    boundingBox := {
      min := ⟨min low.x box.min.x, min low.y box.min.y, min low.z box.min.z⟩
      max := ⟨max high.x box.max.x, max high.y box.max.y, max high.z box.max.z⟩ } }

/-- `update`, which goes on with the box that the model has. -/
def Model.update (model : Model R) : Model R :=
  model.meshes.foldl Model.append { model with renderers := [] }

/-- `load` once the meshes are there, of a model with the box `created`. -/
def Model.load (created : BoundingBox R) (meshes : List (Mesh R)) : Model R :=
  Model.update { meshes, renderers := [], boundingBox := created }

inductive Axis
  | x
  | y
  | z

def Vec3.get (v : Vec3 R) : Axis → R
  | .x => v.x
  | .y => v.y
  | .z => v.z

/-- The box has the vertices between its bounds. -/
def BoundingBox.Encloses (box : BoundingBox R) (vertices : List (Vec3 R)) : Prop :=
  ∀ vertex ∈ vertices, ∀ axis, box.min.get axis ≤ vertex.get axis ∧
    vertex.get axis ≤ box.max.get axis

/-- Each bound of the box is that of a vertex. -/
def BoundingBox.Attained (box : BoundingBox R) (vertices : List (Vec3 R)) : Prop :=
  ∀ axis, (∃ vertex ∈ vertices, vertex.get axis = box.min.get axis) ∧
    ∃ vertex ∈ vertices, vertex.get axis = box.max.get axis

theorem lower_eq (a b : R) : lower a b = min a b := by
  rw [lower]
  split
  · exact (min_eq_right_of_lt ‹_›).symm
  · exact (min_eq_left (not_lt.mp ‹_›)).symm

theorem upper_eq (a b : R) : upper a b = max a b := by
  rw [upper]
  split
  · exact (max_eq_right_of_lt ‹_›).symm
  · exact (max_eq_left (not_lt.mp ‹_›)).symm

/-- The bounds of some vertices, axis by axis. -/
theorem foldl_bound (vertices : List (Vec3 R)) (box : BoundingBox R) :
    ∃ box', vertices.foldl bound (some box) = some box' ∧ ∀ axis,
      box'.min.get axis =
        vertices.foldl (fun low vertex => min low (vertex.get axis)) (box.min.get axis) ∧
      box'.max.get axis =
        vertices.foldl (fun high vertex => max high (vertex.get axis)) (box.max.get axis) := by
  induction vertices generalizing box with
  | nil => exact ⟨box, rfl, fun _ => ⟨rfl, rfl⟩⟩
  | cons vertex vertices ih =>
    obtain ⟨box', hfold, hbounds⟩ := ih _
    refine ⟨box', hfold, fun axis => ?_⟩
    rw [(hbounds axis).1, (hbounds axis).2, List.foldl_cons, List.foldl_cons]
    cases axis <;> simp [Vec3.get, lower_eq, upper_eq]

theorem foldl_min {A : Type} (value : A → R) (as : List A) (s : R) :
    (as.foldl (fun low a => min low (value a)) s = s ∨
      ∃ a ∈ as, as.foldl (fun low a => min low (value a)) s = value a) ∧
      as.foldl (fun low a => min low (value a)) s ≤ s ∧
      ∀ a ∈ as, as.foldl (fun low a => min low (value a)) s ≤ value a :=
  foldl_extreme le_refl (fun _ _ _ => le_trans)
    (fun s a => ⟨min_choice s (value a), min_le_left _ _, min_le_right _ _⟩) as s

theorem foldl_max {A : Type} (value : A → R) (as : List A) (s : R) :
    (as.foldl (fun high a => max high (value a)) s = s ∨
      ∃ a ∈ as, as.foldl (fun high a => max high (value a)) s = value a) ∧
      s ≤ as.foldl (fun high a => max high (value a)) s ∧
      ∀ a ∈ as, value a ≤ as.foldl (fun high a => max high (value a)) s :=
  foldl_extreme (r := (· ≥ ·)) le_refl (fun _ _ _ h h' => le_trans h' h)
    (fun s a => ⟨max_choice s (value a), le_max_left _ _, le_max_right _ _⟩) as s

/-- The box of a mesh that has a vertex. -/
theorem calculateBoundingBox_tight (uninitialized : BoundingBox R) {faces : List (Face R)}
    (h : faces.flatMap (·.vertices) ≠ []) :
    (calculateBoundingBox uninitialized faces).Encloses (faces.flatMap (·.vertices)) ∧
      (calculateBoundingBox uninitialized faces).Attained (faces.flatMap (·.vertices)) := by
  rw [calculateBoundingBox, ← List.foldl_flatMap]
  obtain ⟨first, rest, hvertices⟩ := List.exists_cons_of_ne_nil h
  rw [hvertices, List.foldl_cons]
  obtain ⟨box, hfold, hbounds⟩ := foldl_bound rest ⟨first, first⟩
  have hbox : (List.foldl bound (bound none first) rest).getD uninitialized = box := by
    rw [bound, hfold]
    rfl
  rw [hbox]
  have hlow : ∀ axis, (box.min.get axis = first.get axis ∨
      ∃ vertex ∈ rest, box.min.get axis = vertex.get axis) ∧
      box.min.get axis ≤ first.get axis ∧
      ∀ vertex ∈ rest, box.min.get axis ≤ vertex.get axis := by
    intro axis
    rw [(hbounds axis).1]
    exact foldl_min _ rest _
  have hhigh : ∀ axis, (box.max.get axis = first.get axis ∨
      ∃ vertex ∈ rest, box.max.get axis = vertex.get axis) ∧
      first.get axis ≤ box.max.get axis ∧
      ∀ vertex ∈ rest, vertex.get axis ≤ box.max.get axis := by
    intro axis
    rw [(hbounds axis).2]
    exact foldl_max _ rest _
  constructor
  · intro vertex hvertex axis
    rcases List.mem_cons.mp hvertex with rfl | hvertex
    · exact ⟨(hlow axis).2.1, (hhigh axis).2.1⟩
    · exact ⟨(hlow axis).2.2 vertex hvertex, (hhigh axis).2.2 vertex hvertex⟩
  · intro axis
    constructor
    · rcases (hlow axis).1 with hfirst | ⟨vertex, hvertex, hlow⟩
      · exact ⟨first, List.mem_cons_self, hfirst.symm⟩
      · exact ⟨vertex, List.mem_cons_of_mem _ hvertex, hlow.symm⟩
    · rcases (hhigh axis).1 with hfirst | ⟨vertex, hvertex, hhigh⟩
      · exact ⟨first, List.mem_cons_self, hfirst.symm⟩
      · exact ⟨vertex, List.mem_cons_of_mem _ hvertex, hhigh.symm⟩

/-- The bounds after a loop over meshes, axis by axis. -/
theorem foldl_append (meshes : List (Mesh R)) (model : Model R) :
    (meshes.foldl Model.append model).meshes = model.meshes ∧ ∀ axis,
      (meshes.foldl Model.append model).boundingBox.min.get axis = meshes.foldl
        (fun low mesh => min low (mesh.boundingBox.min.get axis))
        (model.boundingBox.min.get axis) ∧
      (meshes.foldl Model.append model).boundingBox.max.get axis = meshes.foldl
        (fun high mesh => max high (mesh.boundingBox.max.get axis))
        (model.boundingBox.max.get axis) := by
  induction meshes generalizing model with
  | nil => exact ⟨rfl, fun _ => ⟨rfl, rfl⟩⟩
  | cons mesh meshes ih =>
    obtain ⟨hmeshes, hbounds⟩ := ih (model.append mesh)
    refine ⟨hmeshes, fun axis => ?_⟩
    rw [List.foldl_cons, List.foldl_cons, List.foldl_cons, (hbounds axis).1, (hbounds axis).2]
    cases axis <;> simp [Vec3.get, Model.append, min_comm, max_comm]

/-- What the bounds of a model are after updates: those of the box that it was created with, or of a
mesh, whichever is farther out. -/
structure Spans (created : BoundingBox R) (model : Model R) : Prop where
  low : ∀ axis, (model.boundingBox.min.get axis = created.min.get axis ∨ ∃ mesh ∈ model.meshes,
      model.boundingBox.min.get axis = mesh.boundingBox.min.get axis) ∧
    model.boundingBox.min.get axis ≤ created.min.get axis ∧
    ∀ mesh ∈ model.meshes, model.boundingBox.min.get axis ≤ mesh.boundingBox.min.get axis
  high : ∀ axis, (model.boundingBox.max.get axis = created.max.get axis ∨ ∃ mesh ∈ model.meshes,
      model.boundingBox.max.get axis = mesh.boundingBox.max.get axis) ∧
    created.max.get axis ≤ model.boundingBox.max.get axis ∧
    ∀ mesh ∈ model.meshes, mesh.boundingBox.max.get axis ≤ model.boundingBox.max.get axis

theorem update_meshes (model : Model R) : model.update.meshes = model.meshes :=
  (foldl_append model.meshes { model with renderers := [] }).1

theorem update_spans (model : Model R) : Spans model.boundingBox model.update := by
  obtain ⟨hmeshes, hbounds⟩ := foldl_append model.meshes { model with renderers := [] }
  rw [Model.update]
  refine ⟨fun axis => ?_, fun axis => ?_⟩
  · rw [hmeshes, (hbounds axis).1]
    exact foldl_min _ model.meshes _
  · rw [hmeshes, (hbounds axis).2]
    exact foldl_max _ model.meshes _

theorem load_spans (created : BoundingBox R) (meshes : List (Mesh R)) :
    Spans created (Model.load created meshes) :=
  update_spans { meshes, renderers := [], boundingBox := created }

/-- One more update changes nothing about the bounds. -/
theorem Spans.update {created : BoundingBox R} {model : Model R} (h : Spans created model) :
    Spans created model.update := by
  have hspans := update_spans model
  refine ⟨fun axis => ?_, fun axis => ?_⟩
  · obtain ⟨hchoice, hle, hall⟩ := hspans.low axis
    refine ⟨?_, hle.trans (h.low axis).2.1, hall⟩
    rcases hchoice with hsame | hmesh
    · rw [hsame, update_meshes]
      exact (h.low axis).1
    · exact .inr hmesh
  · obtain ⟨hchoice, hle, hall⟩ := hspans.high axis
    refine ⟨?_, (h.high axis).2.1.trans hle, hall⟩
    rcases hchoice with hsame | hmesh
    · rw [hsame, update_meshes]
      exact (h.high axis).1
    · exact .inr hmesh

/-- Every mesh encloses its vertices, and the model encloses all of them with bounds that are
attained. -/
def Tight (model : Model R) : Prop :=
  (∀ mesh ∈ model.meshes, mesh.boundingBox.Encloses mesh.vertices) ∧
    model.boundingBox.Encloses (model.meshes.flatMap (·.vertices)) ∧
    model.boundingBox.Attained (model.meshes.flatMap (·.vertices))

/-- Along each axis, some vertices are as far out as the bounds of a box. -/
def Reaches (vertices : List (Vec3 R)) (box : BoundingBox R) : Prop :=
  ∀ axis, (∃ vertex ∈ vertices, vertex.get axis ≤ box.min.get axis) ∧
    ∃ vertex ∈ vertices, box.max.get axis ≤ vertex.get axis

theorem Spans.tight_iff {created : BoundingBox R} {model : Model R} (h : Spans created model)
    (hmeshes : ∀ mesh ∈ model.meshes, mesh.boundingBox.Encloses mesh.vertices ∧
      mesh.boundingBox.Attained mesh.vertices) :
    Tight model ↔ Reaches (model.meshes.flatMap (·.vertices)) created := by
  have hencloses : model.boundingBox.Encloses (model.meshes.flatMap (·.vertices)) := by
    intro vertex hvertex axis
    obtain ⟨mesh, hmesh, hvertex⟩ := List.mem_flatMap.mp hvertex
    obtain ⟨hlow, hhigh⟩ := (hmeshes mesh hmesh).1 vertex hvertex axis
    exact ⟨((h.low axis).2.2 mesh hmesh).trans hlow, hhigh.trans ((h.high axis).2.2 mesh hmesh)⟩
  constructor
  · rintro ⟨-, -, hattained⟩ axis
    obtain ⟨⟨low, hlow, hmin⟩, ⟨high, hhigh, hmax⟩⟩ := hattained axis
    refine ⟨⟨low, hlow, ?_⟩, ⟨high, hhigh, ?_⟩⟩
    · rw [hmin]
      exact (h.low axis).2.1
    · rw [hmax]
      exact (h.high axis).2.1
  · intro hreaches
    refine ⟨fun mesh hmesh => (hmeshes mesh hmesh).1, hencloses, fun axis => ⟨?_, ?_⟩⟩
    · rcases (h.low axis).1 with hcreated | ⟨mesh, hmesh, hmin⟩
      · obtain ⟨vertex, hvertex, hle⟩ := (hreaches axis).1
        rw [← hcreated] at hle
        exact ⟨vertex, hvertex, le_antisymm hle (hencloses vertex hvertex axis).1⟩
      · obtain ⟨vertex, hvertex, hattained⟩ := ((hmeshes mesh hmesh).2 axis).1
        exact ⟨vertex, List.mem_flatMap.mpr ⟨mesh, hmesh, hvertex⟩, hattained.trans hmin.symm⟩
    · rcases (h.high axis).1 with hcreated | ⟨mesh, hmesh, hmax⟩
      · obtain ⟨vertex, hvertex, hle⟩ := (hreaches axis).2
        rw [← hcreated] at hle
        exact ⟨vertex, hvertex, le_antisymm (hencloses vertex hvertex axis).2 hle⟩
      · obtain ⟨vertex, hvertex, hattained⟩ := ((hmeshes mesh hmesh).2 axis).2
        exact ⟨vertex, List.mem_flatMap.mpr ⟨mesh, hmesh, hvertex⟩, hattained.trans hmax.symm⟩

/-- After it was loaded and updated any number of times, the box of a model is tight exactly when
its vertices reach the box that it was created with. -/
theorem tight_updates (created uninitialized : BoundingBox R) {meshes : List (Mesh R)}
    (hbox : ∀ mesh ∈ meshes,
      mesh.boundingBox = calculateBoundingBox uninitialized mesh.faces)
    (hvertex : ∀ mesh ∈ meshes, mesh.vertices ≠ []) (updates : Nat) :
    Tight (Model.update^[updates] (Model.load created meshes)) ↔
      Reaches (meshes.flatMap (·.vertices)) created := by
  have hspans : Spans created (Model.update^[updates] (Model.load created meshes)) ∧
      (Model.update^[updates] (Model.load created meshes)).meshes = meshes := by
    induction updates with
    | zero => exact ⟨load_spans created meshes, update_meshes _⟩
    | succ updates ih =>
      rw [Function.iterate_succ_apply']
      exact ⟨ih.1.update, (update_meshes _).trans ih.2⟩
  have hmeshes : ∀ mesh ∈ meshes, mesh.boundingBox.Encloses mesh.vertices ∧
      mesh.boundingBox.Attained mesh.vertices := by
    intro mesh hmesh
    rw [hbox mesh hmesh]
    exact calculateBoundingBox_tight uninitialized (hvertex mesh hmesh)
  have htight := hspans.1.tight_iff (by rwa [hspans.2])
  rwa [hspans.2] at htight

/-- A box at the origin. -/
def origin : BoundingBox Int := ⟨⟨0, 0, 0⟩, ⟨0, 0, 0⟩⟩

/-- A mesh with an edge. -/
def edge (first second : Vec3 Int) : Mesh Int where
  name := "Edge".toList
  materials := []
  faces := [⟨[first, second], [], 0⟩]
  boundingBox := calculateBoundingBox origin [⟨[first, second], [], 0⟩]

theorem edge_tight :
    Tight (Model.update^[2] (Model.load origin [edge ⟨-1, 0, -2⟩ ⟨1, 3, 0⟩])) := by
  refine (tight_updates origin origin (by simp [edge]) (by simp [edge, Mesh.vertices]) 2).mpr ?_
  intro axis
  cases axis <;> simp [edge, Mesh.vertices, origin, Vec3.get]

/-- A model away from the origin, whose box begins there. -/
theorem edge_not_tight :
    ¬Tight (Model.update^[0] (Model.load origin [edge ⟨1, 1, 1⟩ ⟨2, 2, 2⟩])) := by
  rintro ⟨-, -, hattained⟩
  obtain ⟨vertex, hvertex, hmin⟩ := (hattained .x).1
  have hzero : vertex.get .x = 0 := hmin.trans (by decide)
  have hmem : vertex ∈ [(⟨1, 1, 1⟩ : Vec3 Int), ⟨2, 2, 2⟩] := hvertex
  rcases List.mem_pair.mp hmem with rfl | rfl
  · cases hzero
  · cases hzero

end Starfall.Models
