import Mathlib.Data.List.Forall2
import Starfall.Unity.Replay

/-! Several records for one entity.  `UpdateRemoteControls` takes the records from the end of the
queue, the newest first, and each of them replaces the targets of its entity.  So the targets that
are left are those of the oldest record, and those of an entity without a record are left but for
the one that `Move` takes. -/

namespace Starfall.Unity

variable {F : Type}

namespace RemoteController

theorem targets_of_replays {c : RemoteController F} {path : List (TransformStruct F)}
    (h : c.Replays path) : c.targets = path.reverse := by
  have replays : c.Replays c.targets.reverse := replays_of_reverse (List.reverse_reverse _).symm
  have htaken := (h (max path.length c.targets.length)).1
  have htaken' := (replays (max path.length c.targets.length)).1
  rw [List.take_of_length_le (Nat.le_max_left _ _)] at htaken
  rw [List.take_of_length_le (by rw [List.length_reverse]; exact Nat.le_max_right _ _), htaken]
    at htaken'
  rw [htaken', List.reverse_reverse]

theorem replays_iff {c : RemoteController F} {path : List (TransformStruct F)} :
    c.Replays path ↔ c.targets = path.reverse :=
  ⟨targets_of_replays, replays_of_reverse⟩

/-- Whether `Move` takes a target in a frame: the timer of the node is done, the current target is
no place to stand at (a new `Target` is one) or the model does not lean any more, and one is
left. -/
def takes (isDone ended : Bool) (c : RemoteController F) : Bool :=
  isDone && ((c.target.map (·.action)).getD 0 != 0 || ended) && !c.targets.isEmpty

/-- `Move`, as far as the targets. -/
def move (isDone ended : Bool) (c : RemoteController F) : RemoteController F :=
  if isDone then
    if (c.target.map (·.action)).getD 0 = 0 then
      if ended then c.next.2 else c
    else c.next.2
  else c

theorem next_targets (c : RemoteController F) : c.next.2.targets = c.targets.dropLast := by
  rw [next]
  cases hlast : c.targets.getLast? with
  | none =>
    rw [List.getLast?_eq_none_iff] at hlast
    rw [hlast]
    rfl
  | some target => rfl

theorem move_targets (isDone ended : Bool) (c : RemoteController F) :
    (c.move isDone ended).targets = c.targets ↔ c.takes isDone ended = false := by
  have hnext : c.next.2.targets = c.targets ↔ c.targets.isEmpty := by
    rw [next_targets, List.isEmpty_iff]
    constructor
    · intro h
      have hlength := congrArg List.length h
      rw [List.length_dropLast] at hlength
      exact List.eq_nil_of_length_eq_zero (by omega)
    · intro h
      rw [h]
      rfl
  rw [move, takes]
  cases isDone with
  | false => simp
  | true =>
    by_cases haction : (c.target.map (·.action)).getD 0 = 0
    · cases ended with
      | false => simp [haction]
      | true => simp [haction, hnext]
    · simp [haction, hnext]

end RemoteController

namespace World

/-- What `Move` asks of an object in a frame, and where it moves the model. -/
structure Frame (F : Type) where
  isDone : Bool
  ended : Bool
  transform : Transform F

/-- `Move` for the objects of a world. -/
def move (frame : Entity F → Frame F) (obj : Entity F) : Transform F × RemoteController F :=
  ((frame obj).transform,
    (obj.remoteControls.getD ⟨none, []⟩).move (frame obj).isDone (frame obj).ended)

theorem moved_controls (frame : Entity F → Frame F) {obj : Entity F}
    {controls : RemoteController F} (h : obj.remoteControls = some controls) :
    (moved (move frame) obj).remoteControls =
      some (controls.move (frame obj).isDone (frame obj).ended) := by
  rw [moved, move, h]
  rfl

/-- What a record makes of an object. -/
def followOne (t : TransformEntityStruct F) (obj : Entity F) : Entity F :=
  match obj.remoteControls with
  | some controls => if obj.sessionid = t.sessionid then follow obj controls t.path else obj
  | none => obj

/-- The session ids of the remote-controlled objects. -/
def remoteIds (objects : List (Entity F)) : List UInt32 :=
  (objects.filter fun obj => obj.remoteControls.isSome).map Entity.sessionid

theorem followOne_same (t : TransformEntityStruct F) (obj : Entity F) :
    (followOne t obj).sessionid = obj.sessionid ∧
      (followOne t obj).remoteControls.isSome = obj.remoteControls.isSome := by
  unfold followOne
  cases hcontrols : obj.remoteControls with
  | none => exact ⟨rfl, by rw [hcontrols]⟩
  | some controls =>
    dsimp only
    split
    · exact ⟨rfl, rfl⟩
    · exact ⟨rfl, by rw [hcontrols]⟩

theorem remoteIds_map {f : Entity F → Entity F}
    (h : ∀ obj, (f obj).sessionid = obj.sessionid ∧
      (f obj).remoteControls.isSome = obj.remoteControls.isSome) (objects : List (Entity F)) :
    remoteIds (objects.map f) = remoteIds objects := by
  rw [remoteIds, List.filter_map, List.map_map, remoteIds]
  simp only [Function.comp_def, h]

theorem remoteIds_cons_some {obj : Entity F} {controls : RemoteController F}
    (h : obj.remoteControls = some controls) (objects : List (Entity F)) :
    remoteIds (obj :: objects) = obj.sessionid :: remoteIds objects := by
  rw [remoteIds, List.filter_cons_of_pos (by rw [h]; rfl)]
  rfl

theorem remoteIds_cons_none {obj : Entity F} (h : obj.remoteControls = none)
    (objects : List (Entity F)) : remoteIds (obj :: objects) = remoteIds objects := by
  rw [remoteIds, List.filter_cons_of_neg (by rw [h]; exact Bool.false_ne_true)]
  rfl

/-- No object is left for a record whose id none of them has. -/
theorem followAll_none {sessionid : UInt32} {path : List (TransformStruct F)}
    {objects : List (Entity F)} (h : sessionid ∉ remoteIds objects) :
    followAll sessionid path objects = objects := by
  fun_induction followAll sessionid path objects with
  | case1 => rfl
  | case2 path obj objects controls hcontrols hid ih =>
    rw [remoteIds_cons_some hcontrols, hid] at h
    exact absurd List.mem_cons_self h
  | case3 path obj objects controls hcontrols hid ih =>
    rw [remoteIds_cons_some hcontrols] at h
    rw [ih fun hmem => h (List.mem_cons_of_mem _ hmem)]
  | case4 path obj objects hcontrols ih =>
    rw [remoteIds_cons_none hcontrols] at h
    rw [ih h]

/-- Among objects with distinct ids, a record makes its own object follow its path. -/
theorem followAll_eq (t : TransformEntityStruct F) {objects : List (Entity F)}
    (nodup : (remoteIds objects).Nodup) :
    followAll t.sessionid t.path objects = objects.map (followOne t) := by
  have others : ∀ {objects : List (Entity F)}, t.sessionid ∉ remoteIds objects →
      objects.map (followOne t) = objects := by
    intro objects h
    refine (List.map_congr_left fun obj hmem => ?_).trans (List.map_id objects)
    unfold followOne
    cases hcontrols : obj.remoteControls with
    | none => rfl
    | some controls =>
      have hmem : obj.sessionid ∈ remoteIds objects :=
        List.mem_map_of_mem (List.mem_filter.mpr ⟨hmem, by rw [hcontrols]; rfl⟩)
      exact if_neg fun hid : obj.sessionid = t.sessionid => h (hid ▸ hmem)
  induction objects with
  | nil => rfl
  | cons obj objects ih =>
    rw [List.map_cons, followAll]
    cases hcontrols : obj.remoteControls with
    | none =>
      rw [remoteIds_cons_none hcontrols] at nodup
      have hone : followOne t obj = obj := by rw [followOne, hcontrols]
      rw [hone, ih nodup]
    | some controls =>
      rw [remoteIds_cons_some hcontrols, List.nodup_cons] at nodup
      dsimp only
      by_cases hid : obj.sessionid = t.sessionid
      · have hone : followOne t obj = follow obj controls t.path := by
          rw [followOne, hcontrols]
          exact if_pos hid
        have hrest : t.sessionid ∉ remoteIds objects := hid ▸ nodup.1
        rw [if_pos hid, hone, followAll_none hrest, others hrest]
      · have hone : followOne t obj = obj := by
          rw [followOne, hcontrols]
          exact if_neg hid
        rw [if_neg hid, hone, ih nodup.2]

theorem followQueue_same (queue : List (TransformEntityStruct F)) (obj : Entity F) :
    (queue.foldr followOne obj).sessionid = obj.sessionid ∧
      (queue.foldr followOne obj).remoteControls.isSome = obj.remoteControls.isSome := by
  induction queue with
  | nil => exact ⟨rfl, rfl⟩
  | cons t queue ih =>
    obtain ⟨hid, hremote⟩ := followOne_same t (queue.foldr followOne obj)
    exact ⟨hid.trans ih.1, hremote.trans ih.2⟩

theorem followQueue_eq (queue : List (TransformEntityStruct F)) {objects : List (Entity F)}
    (nodup : (remoteIds objects).Nodup) :
    queue.foldr (fun t => followAll t.sessionid t.path) objects =
      objects.map fun obj => queue.foldr followOne obj := by
  induction queue with
  | nil => exact (List.map_id objects).symm
  | cons t queue ih =>
    have hids := remoteIds_map (followQueue_same queue) objects
    rw [List.foldr_cons, ih, followAll_eq t (hids ▸ nodup), List.map_map]
    rfl

/-- The records of the queue for a session id, oldest first. -/
def recordsOf (queue : List (TransformEntityStruct F)) (sessionid : UInt32) :
    List (TransformEntityStruct F) :=
  queue.filter fun t => t.sessionid = sessionid

theorem recordsOf_cons_of_pos {t : TransformEntityStruct F} {sessionid : UInt32}
    (h : t.sessionid = sessionid) (queue : List (TransformEntityStruct F)) :
    recordsOf (t :: queue) sessionid = t :: recordsOf queue sessionid :=
  List.filter_cons_of_pos (decide_eq_true h)

theorem recordsOf_cons_of_neg {t : TransformEntityStruct F} {sessionid : UInt32}
    (h : t.sessionid ≠ sessionid) (queue : List (TransformEntityStruct F)) :
    recordsOf (t :: queue) sessionid = recordsOf queue sessionid :=
  List.filter_cons_of_neg (by rwa [decide_eq_true_eq])

/-- The targets that the queue leaves are the path of the oldest record for the object. -/
theorem followQueue_targets (queue : List (TransformEntityStruct F)) {obj : Entity F}
    {controls : RemoteController F} (hcontrols : obj.remoteControls = some controls) :
    ∃ controls', (queue.foldr followOne obj).remoteControls = some controls' ∧
      controls'.targets = (((recordsOf queue obj.sessionid).head?.map (·.path)).getD
        controls.targets.reverse).reverse := by
  induction queue with
  | nil => exact ⟨controls, hcontrols, (List.reverse_reverse _).symm⟩
  | cons t queue ih =>
    obtain ⟨controls', hcontrols', htargets⟩ := ih
    have hid := (followQueue_same queue obj).1
    rw [List.foldr_cons, followOne, hcontrols', hid]
    dsimp only
    by_cases hrecord : t.sessionid = obj.sessionid
    · rw [if_pos hrecord.symm, recordsOf_cons_of_pos hrecord]
      exact ⟨_, rfl, rfl⟩
    · rw [if_neg (Ne.symm hrecord), recordsOf_cons_of_neg hrecord]
      exact ⟨controls', hcontrols', htargets⟩

/-- What `obj` follows after the queue is the path of its newest record, or what it followed
before. -/
def FollowsNewest (queue : List (TransformEntityStruct F)) (obj obj' : Entity F) : Prop :=
  ∀ controls, obj.remoteControls = some controls →
    ∃ controls', obj'.remoteControls = some controls' ∧
      controls'.Replays (((recordsOf queue obj.sessionid).getLast?.map (·.path)).getD
        controls.targets.reverse)

/-- The oldest record for an object has the path of the newest, and without a record `Move` takes no
target. -/
def Settled (queue : List (TransformEntityStruct F)) (frame : Entity F → Frame F)
    (obj : Entity F) : Prop :=
  ∀ controls, obj.remoteControls = some controls →
    (recordsOf queue obj.sessionid).head?.map (·.path) =
      (recordsOf queue obj.sessionid).getLast?.map (·.path) ∧
    (recordsOf queue obj.sessionid = [] →
      controls.takes (frame obj).isDone (frame obj).ended = false)

theorem followsNewest_object (queue : List (TransformEntityStruct F)) (frame : Entity F → Frame F)
    (obj : Entity F) :
    FollowsNewest queue obj (queue.foldr followOne (moved (move frame) obj)) ↔
      Settled queue frame obj := by
  refine forall_congr' fun controls => forall_congr' fun hcontrols => ?_
  obtain ⟨controls', hcontrols', htargets⟩ :=
    followQueue_targets queue (moved_controls frame hcontrols)
  rw [(moved_same (move frame) obj).1] at htargets
  have hfollows : (∃ last, (queue.foldr followOne (moved (move frame) obj)).remoteControls =
        some last ∧ last.Replays (((recordsOf queue obj.sessionid).getLast?.map (·.path)).getD
          controls.targets.reverse)) ↔
      ((recordsOf queue obj.sessionid).head?.map (·.path)).getD
          (controls.move (frame obj).isDone (frame obj).ended).targets.reverse =
        ((recordsOf queue obj.sessionid).getLast?.map (·.path)).getD controls.targets.reverse := by
    constructor
    · rintro ⟨last, hlast, hreplays⟩
      rw [hcontrols', Option.some_inj] at hlast
      subst hlast
      exact List.reverse_injective (htargets.symm.trans (RemoteController.replays_iff.mp hreplays))
    · intro h
      exact ⟨controls', hcontrols',
        RemoteController.replays_of_reverse (htargets.trans (by rw [h]))⟩
  rw [hfollows]
  cases recordsOf queue obj.sessionid with
  | nil =>
    rw [← RemoteController.move_targets]
    show List.reverse _ = List.reverse _ ↔ _
    rw [List.reverse_inj]
    exact ⟨fun h => ⟨rfl, fun _ => h⟩, fun h => h.2 rfl⟩
  | cons t records =>
    rw [List.head?_cons, List.getLast?_cons]
    exact Option.some_inj.symm.trans
      ⟨fun h => ⟨h, fun hnil => absurd hnil (List.cons_ne_nil _ _)⟩, And.left⟩

/-- After `UpdateRemoteControls`, each remote-controlled object follows its newest record, or what
it followed before, if and only if each of them is settled. -/
theorem followsNewest_iff (frame : Entity F → Frame F) (w : World F)
    (nodup : (remoteIds w.objects).Nodup) :
    List.Forall₂ (FollowsNewest w.user.transformEntityQueue) w.objects
        (w.updateRemoteControls (move frame)).objects ↔
      ∀ obj ∈ w.objects, Settled w.user.transformEntityQueue frame obj := by
  have hids := remoteIds_map (moved_same (move frame)) w.objects
  have hobjects : (w.updateRemoteControls (move frame)).objects = _ :=
    followQueue_eq w.user.transformEntityQueue (hids ▸ nodup)
  rw [hobjects, List.map_map, List.forall₂_map_right_iff, List.forall₂_same]
  exact forall₂_congr fun obj _ => followsNewest_object _ frame obj

def standing : Transform UInt32 := ⟨⟨0, 0, 0⟩, ⟨0, 0, 0, 1⟩⟩

/-- A frame in which no timer is done. -/
def still (obj : Entity UInt32) : Frame UInt32 := ⟨false, false, obj.toTransform⟩

/-- A world with the entities 2 and 3, of which 3 has a target, and the records of the paths for 2,
oldest first. -/
def followed (paths : List (List (TransformStruct UInt32))) : World UInt32 where
  objects :=
    [{ standing with name := [], mode := 0, sessionid := 2, remoteControls := some ⟨none, []⟩ },
      { standing with
        name := [], mode := 0, sessionid := 3,
        remoteControls := some ⟨none, [{ standing with action := 1 }]⟩ }]
  entity := none
  user := ⟨0, 0, [], paths.map fun path => ⟨2, path⟩, []⟩

theorem oneRecord_followsNewest :
    List.Forall₂ (FollowsNewest [⟨2, [{ standing with action := 1 }]⟩])
      (followed [[{ standing with action := 1 }]]).objects
      ((followed [[{ standing with action := 1 }]]).updateRemoteControls (move still)).objects := by
  refine (followsNewest_iff still (followed [[{ standing with action := 1 }]]) (by decide)).mpr ?_
  refine List.forall_mem_cons.mpr ⟨fun controls hcontrols => ?_,
    List.forall_mem_singleton.mpr fun controls hcontrols => ?_⟩
  · cases hcontrols
    exact ⟨rfl, fun _ => rfl⟩
  · cases hcontrols
    exact ⟨rfl, fun _ => rfl⟩

/-- Of two records, the entity follows the older one. -/
theorem twoRecords_oldest :
    ((followed [[], [{ standing with action := 1 }]]).updateRemoteControls (move still)).objects.map
        (·.remoteControls.map (·.targets)) = [some [], some [{ standing with action := 1 }]] ∧
      ¬List.Forall₂ (FollowsNewest [⟨2, []⟩, ⟨2, [{ standing with action := 1 }]⟩])
        (followed [[], [{ standing with action := 1 }]]).objects
        ((followed [[], [{ standing with action := 1 }]]).updateRemoteControls
          (move still)).objects := by
  refine ⟨rfl, fun h => ?_⟩
  obtain ⟨controls', hcontrols', hreplays⟩ := (List.forall₂_cons.mp h).1 ⟨none, []⟩ rfl
  cases hcontrols'
  have htargets := RemoteController.targets_of_replays hreplays
  cases htargets

end World

end Starfall.Unity
