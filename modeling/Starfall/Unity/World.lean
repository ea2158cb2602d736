import Starfall.Common.Structs

/-! `WorldScript.js`: the entities that the Unity client shows, and what `World.Update` does to
them.  The class `Array` takes from its end with `pop`, and a loop by index goes on with the next
index after a `RemoveAt`. -/

namespace Starfall.Unity

variable {F : Type}

/-- A `RemoteController`: its current target, once it is initialized, and the targets to take from
the end. -/
structure RemoteController (F : Type) where
  target : Option (TransformStruct F)
  targets : List (TransformStruct F)
  deriving DecidableEq, Repr

/-- An `Entity`, with its controller if it is a `RemoteControlledEntity`. -/
structure Entity (F : Type) extends Transform F where
  name : Str
  mode : UInt32
  sessionid : UInt32
  remoteControls : Option (RemoteController F)
  deriving DecidableEq, Repr

/-- The part of `User` that the world shares with the receive thread. -/
structure User (F : Type) where
  checkObjectsState : UInt32
  checkObjectsRadius : F
  createEntityQueue : List (CreateEntityStruct F)
  transformEntityQueue : List (TransformEntityStruct F)
  destroyEntityQueue : List DestroyEntityStruct
  deriving DecidableEq, Repr

structure World (F : Type) where
  objects : List (Entity F)
  entity : Option (Entity F)
  user : User F
  deriving DecidableEq, Repr

namespace World

def ids (w : World F) : List UInt32 := w.objects.map Entity.sessionid

/-- The loop over the objects for one session id.  It throws when `this.entity` is null and an
object has the id. -/
def removeAll (entity : Option (Entity F)) (sessionid : UInt32) :
    List (Entity F) → Option (List (Entity F))
  | [] => some []
  | obj :: objects =>
    if obj.sessionid = sessionid then
      match entity with
      | none => none
      | some own =>
        if sessionid ≠ own.sessionid then
          -- The next object moves to the index of `obj`, and the loop goes on behind it.
          match objects with
          | [] => some []
          | next :: rest => (removeAll entity sessionid rest).map (next :: ·)
        else
          (removeAll entity sessionid objects).map (obj :: ·)
    else
      (removeAll entity sessionid objects).map (obj :: ·)

/-- The objects after the records of the queue, of which the last is taken first. -/
def destroyAll (entity : Option (Entity F)) (objects : List (Entity F)) :
    List DestroyEntityStruct → Option (List (Entity F))
  | [] => some objects
  | d :: queue => do removeAll entity d.sessionid (← destroyAll entity objects queue)

def updateDestroyEntities (w : World F) : Option (World F) := do
  let objects ← destroyAll w.entity w.objects w.user.destroyEntityQueue
  pure { w with objects, user := { w.user with destroyEntityQueue := [] } }

theorem removeAll_sublist {entity : Option (Entity F)} {sessionid : UInt32}
    {objects objects' : List (Entity F)} (h : removeAll entity sessionid objects = some objects') :
    objects'.Sublist objects := by
  fun_induction removeAll entity sessionid objects generalizing objects' with
  | case1 =>
    cases h
    exact .refl _
  | case2 => cases h
  | case3 obj =>
    cases h
    exact .cons obj .slnil
  | case4 obj _ own hown _ next rest ih =>
    subst hown
    obtain ⟨rest', hrest, rfl⟩ := Option.map_eq_some_iff.mp h
    exact ((ih hrest).cons_cons next).cons obj
  | case5 obj objects _ own hown _ ih =>
    subst hown
    obtain ⟨rest', hrest, rfl⟩ := Option.map_eq_some_iff.mp h
    exact (ih hrest).cons_cons obj
  | case6 obj objects _ ih =>
    obtain ⟨rest', hrest, rfl⟩ := Option.map_eq_some_iff.mp h
    exact (ih hrest).cons_cons obj

theorem destroyAll_sublist {entity : Option (Entity F)} {objects objects' : List (Entity F)}
    {queue : List DestroyEntityStruct} (h : destroyAll entity objects queue = some objects') :
    objects'.Sublist objects := by
  induction queue generalizing objects' with
  | nil =>
    cases h
    exact .refl _
  | cons d queue ih =>
    obtain ⟨mid, hmid, h⟩ := Option.bind_eq_some_iff.mp h
    exact (removeAll_sublist h).trans (ih hmid)

theorem removeAll_defined (own : Entity F) (sessionid : UInt32) (objects : List (Entity F)) :
    ∃ objects', removeAll (some own) sessionid objects = some objects' := by
  fun_induction removeAll (some own) sessionid objects with
  | case1 => exact ⟨_, rfl⟩
  | case2 _ _ _ hown => cases hown
  | case3 => exact ⟨_, rfl⟩
  | case4 obj _ own hown _ next rest ih =>
    cases hown
    obtain ⟨rest', hrest⟩ := ih
    exact ⟨_, congrArg (Option.map (next :: ·)) hrest⟩
  | case5 obj objects _ own hown _ ih =>
    cases hown
    obtain ⟨rest', hrest⟩ := ih
    exact ⟨_, congrArg (Option.map (obj :: ·)) hrest⟩
  | case6 obj objects _ ih =>
    obtain ⟨rest', hrest⟩ := ih
    exact ⟨_, congrArg (Option.map (obj :: ·)) hrest⟩

/-- Destroying does not throw in a world with the player's entity, or without any objects. -/
theorem destroyAll_defined {entity : Option (Entity F)} {objects : List (Entity F)}
    (h : entity.isSome ∨ objects = []) (queue : List DestroyEntityStruct) :
    ∃ objects', destroyAll entity objects queue = some objects' := by
  induction queue with
  | nil => exact ⟨_, rfl⟩
  | cons d queue ih =>
    obtain ⟨mid, hmid⟩ := ih
    rw [destroyAll, hmid]
    rcases h with h | rfl
    · obtain ⟨own, rfl⟩ := Option.isSome_iff_exists.mp h
      exact removeAll_defined own d.sessionid mid
    · have hnil := List.sublist_nil.mp (destroyAll_sublist hmid)
      subst hnil
      exact ⟨[], rfl⟩

/-- Without a duplicate in the world, the loop removes just the object with the id, unless it is the
player's. -/
theorem removeAll_eq {own : Entity F} {sessionid : UInt32} {objects : List (Entity F)}
    (nodup : (objects.map Entity.sessionid).Nodup) :
    removeAll (some own) sessionid objects = some (objects.filter fun obj =>
      obj.sessionid = own.sessionid ∨ obj.sessionid ≠ sessionid) := by
  fun_induction removeAll (some own) sessionid objects with
  | case1 => rfl
  | case2 _ _ _ hown => cases hown
  | case3 obj hid own hown hne =>
    cases hown
    simp [hid, hne]
  | case4 obj hid own hown hne next rest ih =>
    cases hown
    simp only [List.map_cons, List.nodup_cons, List.mem_cons, not_or] at nodup
    obtain ⟨⟨hnext, -⟩, -, hrest⟩ := nodup
    rw [hid] at hnext
    rw [ih hrest]
    simp [hid, hne, Ne.symm hnext]
  | case5 obj objects hid own hown hne ih =>
    cases hown
    have heq : obj.sessionid = own.sessionid := hid.trans (not_not.mp hne)
    rw [ih (List.nodup_cons.mp nodup).2]
    simp [heq]
  | case6 obj objects hid ih =>
    rw [ih (List.nodup_cons.mp nodup).2]
    simp [hid]

theorem destroyAll_eq {own : Entity F} {objects : List (Entity F)}
    (nodup : (objects.map Entity.sessionid).Nodup) (queue : List DestroyEntityStruct) :
    destroyAll (some own) objects queue = some (objects.filter fun obj =>
      obj.sessionid = own.sessionid ∨ ⟨obj.sessionid⟩ ∉ queue) := by
  induction queue with
  | nil => simp [destroyAll]
  | cons d queue ih =>
    have remaining : ((objects.filter fun obj =>
        obj.sessionid = own.sessionid ∨ ⟨obj.sessionid⟩ ∉ queue).map Entity.sessionid).Nodup :=
      nodup.sublist (List.filter_sublist.map _)
    rw [destroyAll, ih, Option.bind_eq_bind, Option.bind_some, removeAll_eq remaining,
      List.filter_filter]
    congr 1
    apply List.filter_congr
    intro obj _
    obtain ⟨id⟩ := d
    by_cases hown : obj.sessionid = own.sessionid
    · simp [hown]
    · simp [hown]

theorem updateDestroyEntities_eq {w w' : World F} (h : w.updateDestroyEntities = some w') :
    ∃ objects, objects.Sublist w.objects ∧
      w' = { w with objects, user := { w.user with destroyEntityQueue := [] } } := by
  obtain ⟨objects, hobjects, h⟩ := Option.bind_eq_some_iff.mp h
  cases h
  exact ⟨objects, destroyAll_sublist hobjects, rfl⟩

/-- The entity of a create record.  The first one of mode 2 is the player's. -/
def instantiate (entity : Option (Entity F)) (c : CreateEntityStruct F) : Entity F :=
  let mode := if c.mode = 2 ∧ entity.isSome then 0 else c.mode
  { c.toTransform with
    name := c.displayName, mode, sessionid := c.sessionid
    remoteControls := if mode = 2 then none else some ⟨none, []⟩ }

def create (w : World F) (c : CreateEntityStruct F) : World F :=
  let entity := instantiate w.entity c
  { w with
    entity := if entity.mode = 2 ∧ w.entity.isNone then some entity else w.entity
    objects := w.objects ++ [entity] }

def updateCreateEntities (w : World F) : World F :=
  let w' := w.user.createEntityQueue.foldr (fun c w => w.create c) w
  { w' with user := { w.user with createEntityQueue := [] } }

theorem create_ids (w : World F) (c : CreateEntityStruct F) :
    (w.create c).ids = w.ids ++ [c.sessionid] := by
  simp [create, ids, instantiate]

theorem updateCreateEntities_ids (w : World F) :
    w.updateCreateEntities.ids =
      w.ids ++ (w.user.createEntityQueue.map (·.sessionid)).reverse := by
  show (w.user.createEntityQueue.foldr (fun c w => w.create c) w).ids = _
  induction w.user.createEntityQueue with
  | nil => simp
  | cons c queue ih => simp [create_ids, ih]

theorem updateCreateEntities_nil {w : World F} (h : w.user.createEntityQueue = []) :
    w.updateCreateEntities = w := by
  obtain ⟨objects, entity, user⟩ := w
  obtain ⟨state, radius, creates, transforms, destroys⟩ := user
  dsimp only at h
  subst h
  rfl

theorem create_eq {w : World F} (h : w.entity.isSome) (c : CreateEntityStruct F) :
    w.create c = { w with objects := w.objects ++ [instantiate w.entity c] } := by
  obtain ⟨own, hown⟩ := Option.isSome_iff_exists.mp h
  simp only [create, hown, Option.isNone_some, Bool.false_eq_true, and_false, if_false]

theorem updateCreateEntities_eq {w : World F} (h : w.entity.isSome) :
    w.updateCreateEntities = { w with
      objects := w.objects ++ (w.user.createEntityQueue.map (instantiate w.entity)).reverse
      user := { w.user with createEntityQueue := [] } } := by
  have loop : w.user.createEntityQueue.foldr (fun c w => w.create c) w = { w with
      objects := w.objects ++ (w.user.createEntityQueue.map (instantiate w.entity)).reverse } := by
    induction w.user.createEntityQueue with
    | nil => simp
    | cons c queue ih =>
      rw [List.foldr_cons, ih, create_eq (by exact h)]
      simp
  rw [updateCreateEntities, loop]

/-- `Clear`, and `AddTarget` for the nodes of the path from its end. -/
def follow (obj : Entity F) (controls : RemoteController F) (path : List (TransformStruct F)) :
    Entity F :=
  { obj with
    toTransform := match controls.target with
      | some target => target.toTransform
      | none => obj.toTransform
    remoteControls := some { controls with targets := path.reverse } }

/-- The loop over the objects for one transform record.  The first object that follows the path
empties it. -/
def followAll (sessionid : UInt32) :
    List (TransformStruct F) → List (Entity F) → List (Entity F)
  | _, [] => []
  | path, obj :: objects =>
    match obj.remoteControls with
    | some controls =>
      if obj.sessionid = sessionid then
        follow obj controls path :: followAll sessionid [] objects
      else
        obj :: followAll sessionid path objects
    | none => obj :: followAll sessionid path objects

/-- `Move` for a remote entity, where `move` says how far it gets in the time of the frame and what
it leaves of the controller. -/
def moved (move : Entity F → Transform F × RemoteController F) (obj : Entity F) : Entity F :=
  if obj.remoteControls.isSome then
    { obj with toTransform := (move obj).1, remoteControls := some (move obj).2 }
  else obj

def updateRemoteControls (move : Entity F → Transform F × RemoteController F) (w : World F) :
    World F :=
  { w with
    objects := w.user.transformEntityQueue.foldr (fun t => followAll t.sessionid t.path)
      (w.objects.map (moved move))
    user := { w.user with transformEntityQueue := [] } }

theorem followAll_ids (sessionid : UInt32) (path : List (TransformStruct F))
    (objects : List (Entity F)) :
    (followAll sessionid path objects).map Entity.sessionid = objects.map Entity.sessionid := by
  fun_induction followAll sessionid path objects with
  | case1 => rfl
  | case2 _ _ _ _ _ _ ih => simp [follow, ih]
  | case3 _ _ _ _ _ _ ih => simp [ih]
  | case4 _ _ _ _ ih => simp [ih]

theorem moved_same (move : Entity F → Transform F × RemoteController F) (obj : Entity F) :
    (moved move obj).sessionid = obj.sessionid ∧
      (moved move obj).remoteControls.isSome = obj.remoteControls.isSome := by
  unfold moved
  split
  · rename_i hsome
    exact ⟨rfl, hsome.symm⟩
  · exact ⟨rfl, rfl⟩

theorem updateRemoteControls_ids (move : Entity F → Transform F × RemoteController F)
    (w : World F) : (w.updateRemoteControls move).ids = w.ids := by
  unfold updateRemoteControls ids
  induction w.user.transformEntityQueue with
  | nil => simp [moved_same]
  | cons t queue ih => rw [List.foldr_cons, followAll_ids, ih]

/-- The world after `UpdateSession`, and the request that it sends. -/
def updateSession (farClipPlane : F) (w : World F) : World F × Option (ObjectsStruct F) :=
  if w.user.checkObjectsState = 1 then
    let user := { w.user with checkObjectsRadius := farClipPlane }
    ({ w with user := { user with checkObjectsState := 0 } },
      some ⟨user.checkObjectsState, user.checkObjectsRadius, w.ids⟩)
  else (w, none)

/-- `UpdateTimers`, when the session timer is done for `some farClipPlane`. -/
def updateTimers (timer : Option F) (w : World F) : World F × Option (ObjectsStruct F) :=
  match w.entity, timer with
  | some _, some farClipPlane => w.updateSession farClipPlane
  | _, _ => (w, none)

/-- A request is sent in state 1, and the state is 0 after it. -/
theorem updateTimers_cases (timer : Option F) (w : World F) :
    w.updateTimers timer = (w, none) ∨
    ∃ clip, timer = some clip ∧ w.entity.isSome ∧ w.user.checkObjectsState = 1 ∧
      w.updateTimers timer =
        ({ w with user := { w.user with checkObjectsRadius := clip, checkObjectsState := 0 } },
          some ⟨1, clip, w.ids⟩) := by
  cases hentity : w.entity with
  | none => exact .inl (by simp [updateTimers, hentity])
  | some own =>
    cases timer with
    | none => exact .inl (by simp [updateTimers, hentity])
    | some clip =>
      by_cases hstate : w.user.checkObjectsState = 1
      · exact .inr ⟨clip, rfl, rfl, hstate, by
          simp [updateTimers, updateSession, hentity, hstate]⟩
      · exact .inl (by simp [updateTimers, updateSession, hentity, hstate])

end World

end Starfall.Unity
