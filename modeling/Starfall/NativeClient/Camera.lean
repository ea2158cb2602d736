import Mathlib.Logic.Function.Basic
import Starfall.ProofKit.Runs

/-! The controls of the camera (`Camera.cpp`): the states that keys set and that ticks apply, beside
the keys that are held down. -/

namespace Starfall.Controls

open ProofKit.Runs

/-! ### Controls -/

/-- The names of the states. -/
inductive StateName
  | pitchNegative
  | pitchPositive
  | yawNegative
  | yawPositive
  | rollNegative
  | rollPositive
  | moveForward
  | offsetYaw
  deriving DecidableEq

inductive Key
  | Q
  | E
  | A
  | D
  | Z
  | C
  | W
  | R
  | other (code : Int)
  deriving DecidableEq

inductive Event
  | key (code : Key) (keyPressed : Bool)
  | mouseWheelMoved (delta : Int)
  | middleButton (pressed : Bool)
  | mouseMoved (x y : Int)

/-- What the controls do with the camera. -/
structure Camera (C : Type) where
  scale : StateName → Int → C → C
  move : StateName → Int → C → C
  recalculate : C → C
  resetOffsets : C → C
  zoom : Int → C → C
  turn : Int → Int → C → C

structure CameraControls (C : Type) where
  states : StateName → Int
  parent : C

/-- The state that a key configures. -/
def Key.stateName : Key → Option StateName
  | .Q => some .pitchNegative
  | .E => some .pitchPositive
  | .A => some .yawPositive
  | .D => some .yawNegative
  | .Z => some .rollNegative
  | .C => some .rollPositive
  | .W => some .moveForward
  | .R | .other _ => none

def configureState (stateName : StateName) (keyPressed : Bool) (states : StateName → Int) :
    StateName → Int :=
  if keyPressed then
    if states stateName = 0 then Function.update states stateName 1 else states
  else
    if states stateName = 1 then Function.update states stateName 2 else states

variable {C : Type} (camera : Camera C)

def CameraControls.update (controls : CameraControls C) : Event → CameraControls C
  | .key .R _ => { controls with parent := camera.resetOffsets controls.parent }
  | .key code keyPressed =>
    match code.stateName with
    | some stateName =>
      { controls with states := configureState stateName keyPressed controls.states }
    | none => controls
  | .mouseWheelMoved delta => { controls with parent := camera.zoom delta controls.parent }
  | .middleButton pressed =>
    if pressed then
      if controls.states .offsetYaw = 0 then
        { controls with states := Function.update controls.states .offsetYaw 1 }
      else controls
    else
      if controls.states .offsetYaw = 1 then
        { controls with states := Function.update controls.states .offsetYaw 0 }
      else controls
  | .mouseMoved x y =>
    if controls.states .offsetYaw = 1 then
      { controls with parent := camera.turn x y controls.parent }
    else controls

def applyTime : Int := 20

/-- The deltas are scaled in place, whatever the state, and one of them is the direction of the
camera. -/
def CameraControls.applyToState (elapsed : Int) (controls : CameraControls C)
    (stateName : StateName) : CameraControls C :=
  let parent := camera.scale stateName elapsed controls.parent
  if controls.states stateName = 1 then
    { controls with parent := camera.move stateName elapsed parent }
  else if controls.states stateName = 2 then
    { parent, states := Function.update controls.states stateName 0 }
  else { controls with parent }

/-- The states that `apply` applies, in their order. -/
def applied : List StateName :=
  [.pitchNegative, .pitchPositive, .yawNegative, .yawPositive, .rollNegative, .rollPositive,
    .moveForward]

/-- `apply`, where `elapsed` is what the clock of it shows. -/
def CameraControls.apply (controls : CameraControls C) (elapsed : Int) :
    Bool × CameraControls C :=
  if elapsed ≥ applyTime then
    let controls := applied.foldl (CameraControls.applyToState camera elapsed) controls
    (true, { controls with parent := camera.recalculate controls.parent })
  else (false, controls)

/-! ### The keyboard -/

inductive Label
  | event (e : Event)
  | tick (elapsed : Int)

/-- The controls beside the keys that are held down, and those that were released since the last
tick that ran. -/
structure World (C : Type) where
  controls : CameraControls C
  down : Key → Bool
  released : Key → Bool

def World.next (w : World C) : Label → World C
  | .event (.key code true) =>
    { w with controls := w.controls.update camera (.key code true),
             down := Function.update w.down code true }
  | .event (.key code false) =>
    { controls := w.controls.update camera (.key code false),
      down := Function.update w.down code false,
      released := Function.update w.released code true }
  | .event e => { w with controls := w.controls.update camera e }
  | .tick elapsed =>
    let (ran, controls) := w.controls.apply camera elapsed
    { w with controls, released := if ran then fun _ => false else w.released }

/-- A key is pressed when it is up and released when it is down. -/
def Alternates (w : World C) (l : Label) : Prop :=
  ∀ code keyPressed, l = .event (.key code keyPressed) → w.down code = !keyPressed

def keyboard : System (World C) Label where
  init w := (∀ stateName, w.controls.states stateName = 0) ∧ (∀ code, w.down code = false) ∧
    ∀ code, w.released code = false
  step w l w' := Alternates w l ∧ w' = w.next camera l

/-- The state of each key is 1 exactly when the key is held down. -/
def Follows (w : World C) : Prop :=
  ∀ code stateName, code.stateName = some stateName →
    (w.controls.states stateName = 1 ↔ w.down code = true)

/-- No key is down at a tick that runs when it was released since the one before. -/
def Settled (w : World C) (l : Label) : Prop :=
  ∀ elapsed, l = .tick elapsed → applyTime ≤ elapsed → ∀ code, code.stateName.isSome →
    w.released code = true → w.down code = false

/-! ### States -/

/-- The key that configures a state. -/
def StateName.key : StateName → Option Key
  | .pitchNegative => some .Q
  | .pitchPositive => some .E
  | .yawPositive => some .A
  | .yawNegative => some .D
  | .rollNegative => some .Z
  | .rollPositive => some .C
  | .moveForward => some .W
  | .offsetYaw => none

theorem key_stateName {code : Key} {stateName : StateName}
    (h : code.stateName = some stateName) : stateName.key = some code := by
  cases code <;> cases h <;> rfl

theorem stateName_ne {code other : Key} {stateName otherName : StateName}
    (h : code.stateName = some stateName) (hother : other.stateName = some otherName)
    (hne : code ≠ other) : stateName ≠ otherName := by
  rintro rfl
  apply hne
  rw [← Option.some.injEq, ← key_stateName h, key_stateName hother]

theorem stateName_applied {code : Key} {stateName : StateName}
    (h : code.stateName = some stateName) : stateName ∈ applied := by
  cases code <;> cases h <;> decide

theorem applyToState_states (elapsed : Int) (controls : CameraControls C)
    (stateName : StateName) :
    (controls.applyToState camera elapsed stateName).states =
      if controls.states stateName = 2 then Function.update controls.states stateName 0
      else controls.states := by
  rw [CameraControls.applyToState]
  split
  · rename_i hone
    rw [hone]
    rfl
  · split <;> rfl

/-- What a list of states becomes: those that were released go back to 0. -/
theorem foldl_applyToState (elapsed : Int) (stateNames : List StateName)
    (controls : CameraControls C) (stateName : StateName) :
    (stateNames.foldl (CameraControls.applyToState camera elapsed) controls).states stateName =
      if stateName ∈ stateNames ∧ controls.states stateName = 2 then 0
      else controls.states stateName := by
  induction stateNames generalizing controls with
  | nil => simp
  | cons first stateNames ih =>
    rw [List.foldl_cons, ih, applyToState_states]
    by_cases heq : stateName = first
    · subst heq
      by_cases htwo : controls.states stateName = 2 <;> simp [htwo]
    · by_cases htwo : controls.states first = 2 <;> simp [htwo, heq]

/-- What the states are while keys go up and down. -/
def expected (w : World C) (code : Key) : Int :=
  if w.released code then 2 else if w.down code then 1 else 0

/-- Each state tells whether the key was released, and else whether it is down. -/
def Tracks (w : World C) : Prop :=
  ∀ code stateName, code.stateName = some stateName →
    w.controls.states stateName = expected w code

/-! ### Steps -/

theorem configureState_ne {stateName other : StateName} (h : other ≠ stateName)
    (keyPressed : Bool) (states : StateName → Int) :
    configureState stateName keyPressed states other = states other := by
  unfold configureState
  split
  · split
    · exact Function.update_of_ne h _ _
    · rfl
  · split
    · exact Function.update_of_ne h _ _
    · rfl

/-- A key configures its own state, and no other. -/
theorem update_key (controls : CameraControls C) (code : Key) (keyPressed : Bool) :
    (controls.update camera (.key code keyPressed)).states =
      match code.stateName with
      | some stateName => configureState stateName keyPressed controls.states
      | none => controls.states := by
  cases code <;> rfl

/-- What a key leaves alone. -/
theorem update_ne (controls : CameraControls C) {code other : Key} (keyPressed : Bool)
    {stateName : StateName} (hother : other.stateName = some stateName) (hne : other ≠ code) :
    (controls.update camera (.key code keyPressed)).states stateName =
      controls.states stateName := by
  rw [update_key]
  cases hcode : code.stateName with
  | none => rfl
  | some codeName => exact configureState_ne (stateName_ne hother hcode hne) _ _

theorem Tracks.key {w : World C} (h : Tracks w) {code : Key} {keyPressed : Bool}
    (hdown : w.down code = !keyPressed) :
    Tracks (w.next camera (.event (.key code keyPressed))) := by
  intro other stateName hother
  have hbefore := h other stateName hother
  have hcontrols : (w.next camera (.event (.key code keyPressed))).controls =
      w.controls.update camera (.key code keyPressed) := by
    cases keyPressed <;> rfl
  rw [hcontrols]
  by_cases heq : other = code
  · subst heq
    rw [update_key, hother]
    rw [expected, hdown] at hbefore
    cases keyPressed <;> cases hreleased : w.released other <;>
      simp [hreleased] at hbefore <;>
      simp [configureState, expected, World.next, hbefore, hreleased]
  · rw [update_ne camera _ keyPressed hother heq, hbefore]
    cases keyPressed <;> simp [expected, World.next, heq]

/-- The mouse has a state of its own. -/
theorem Tracks.mouse {w : World C} (h : Tracks w) {e : Event}
    (he : ∀ code keyPressed, e ≠ .key code keyPressed) :
    Tracks (w.next camera (.event e)) := by
  intro code stateName hcode
  have hbefore := h code stateName hcode
  have hne : stateName ≠ .offsetYaw := by
    rintro rfl
    cases key_stateName hcode
  cases e with
  | key code keyPressed => exact absurd rfl (he code keyPressed)
  | mouseWheelMoved delta => exact hbefore
  | middleButton pressed =>
    refine Eq.trans ?_ hbefore
    show (w.controls.update camera (.middleButton pressed)).states stateName = _
    rw [CameraControls.update]
    split
    · split
      · exact Function.update_of_ne hne _ _
      · rfl
    · split
      · exact Function.update_of_ne hne _ _
      · rfl
  | mouseMoved x y =>
    refine Eq.trans ?_ hbefore
    show (w.controls.update camera (.mouseMoved x y)).states stateName = _
    rw [CameraControls.update]
    split <;> rfl

/-- After a tick that runs, the states tell which keys were down and not released. -/
theorem tick_states {w : World C} (h : Tracks w) {elapsed : Int} (hran : applyTime ≤ elapsed)
    {code : Key} {stateName : StateName} (hcode : code.stateName = some stateName) :
    (w.next camera (.tick elapsed)).controls.states stateName =
      if w.released code then 0 else if w.down code then 1 else 0 := by
  have happly : (w.controls.apply camera elapsed).2.states stateName =
      if w.controls.states stateName = 2 then 0 else w.controls.states stateName := by
    rw [CameraControls.apply, if_pos hran]
    show CameraControls.states (List.foldl _ _ _) stateName = _
    rw [foldl_applyToState]
    simp [stateName_applied hcode]
  show (w.controls.apply camera elapsed).2.states stateName = _
  rw [happly, h code stateName hcode, expected]
  cases w.released code <;> cases w.down code <;> rfl

theorem Tracks.tick {w : World C} (h : Tracks w) {elapsed : Int}
    (hsettled : Settled w (.tick elapsed)) : Tracks (w.next camera (.tick elapsed)) := by
  intro code stateName hcode
  by_cases hran : applyTime ≤ elapsed
  · have hdown := hsettled elapsed rfl hran code (by rw [hcode]; rfl)
    have hreleased : (w.next camera (.tick elapsed)).released = fun _ => false := by
      simp [World.next, CameraControls.apply, hran]
    rw [tick_states camera h hran hcode, expected, hreleased]
    show _ = if false = true then 2 else if w.down code = true then 1 else 0
    cases hcase : w.released code with
    | false => rfl
    | true =>
      rw [hdown hcase]
      rfl
  · have hsame : w.next camera (.tick elapsed) = w := by
      simp [World.next, CameraControls.apply, hran]
    rw [hsame]
    exact h code stateName hcode

/-- A tick that runs leaves the states as the keys are exactly when the keys were settled. -/
theorem follows_tick {w : World C} (h : Tracks w) {elapsed : Int} (hran : applyTime ≤ elapsed) :
    Follows (w.next camera (.tick elapsed)) ↔ Settled w (.tick elapsed) := by
  constructor
  · intro hfollows other hsame _ code hcode hreleased
    obtain ⟨stateName, hcode⟩ := Option.isSome_iff_exists.mp hcode
    have hstate := hfollows code stateName hcode
    rw [tick_states camera h hran hcode, hreleased] at hstate
    rw [Bool.eq_false_iff]
    intro hdown
    cases hstate.mpr hdown
  · intro hsettled code stateName hcode
    have hdown := hsettled elapsed rfl hran code (by rw [hcode]; rfl)
    rw [tick_states camera h hran hcode]
    show _ ↔ w.down code = true
    cases hreleased : w.released code with
    | true => simp [hdown hreleased]
    | false => cases w.down code <;> simp

/-! ### Runs -/

theorem tracks_run {ls : List Label} {w : World C}
    (run : ((keyboard camera).restrict Settled).Run ls w) : Tracks w := by
  refine run.invariant (I := fun _ w => Tracks w) ?_ ?_
  · rintro w ⟨hstates, hdown, hreleased⟩ code stateName _
    rw [hstates, expected, hdown, hreleased]
    rfl
  · rintro ls w l w' _ h ⟨hsettled, halternates, rfl⟩
    cases l with
    | tick elapsed => exact h.tick camera hsettled
    | event e =>
      cases e with
      | key code keyPressed => exact h.key camera (halternates code keyPressed rfl)
      | mouseWheelMoved delta => exact h.mouse camera (by simp)
      | middleButton pressed => exact h.mouse camera (by simp)
      | mouseMoved x y => exact h.mouse camera (by simp)

/-- While the keys are settled at every tick, each tick that runs leaves the states as the keys
are, and the first tick that runs while they are not does not. -/
theorem states_follow {ls : List Label} {w : World C}
    (run : ((keyboard camera).restrict Settled).Run ls w) :
    (∀ elapsed, ls.getLast? = some (.tick elapsed) → applyTime ≤ elapsed → Follows w) ∧
      ∀ elapsed w', (keyboard camera).step w (.tick elapsed) w' → applyTime ≤ elapsed →
        (Follows w' ↔ Settled w (.tick elapsed)) := by
  constructor
  · intro elapsed hlast hran
    cases run with
    | nil => cases hlast
    | snoc run hstep =>
      obtain ⟨hsettled, -, rfl⟩ := hstep
      rw [List.getLast?_concat] at hlast
      obtain rfl := Option.some.inj hlast
      exact (follows_tick camera (tracks_run camera run) hran).mpr hsettled
  · rintro elapsed w' ⟨-, rfl⟩ hran
    exact follows_tick camera (tracks_run camera run) hran

/-- A camera that is moved forward by what the keys say. -/
def dolly : Camera Int where
  scale _ _ c := c
  move stateName elapsed c := if stateName = .moveForward then c + elapsed else c
  recalculate c := c
  resetOffsets c := c
  zoom _ c := c
  turn _ _ c := c

def start : World Int := ⟨⟨fun _ => 0, 0⟩, fun _ => false, fun _ => false⟩

def pressW : Label := .event (.key .W true)

def releaseW : Label := .event (.key .W false)

theorem pressW_alternates {w : World Int} (h : w.down .W = false) : Alternates w pressW := by
  rintro code keyPressed ⟨⟩
  exact h

theorem releaseW_alternates {w : World Int} (h : w.down .W = true) : Alternates w releaseW := by
  rintro code keyPressed ⟨⟩
  exact h

/-- A key that is down at a tick. -/
theorem forward_follows :
    ∃ w, ((keyboard dolly).restrict Settled).Run [pressW, .tick 20] w ∧ Follows w ∧
      w.down .W = true ∧ w.controls.parent = 20 := by
  have hstart : ((keyboard dolly).restrict Settled).Run [] start :=
    .nil ⟨fun _ => rfl, fun _ => rfl, fun _ => rfl⟩
  have hpress : ((keyboard dolly).restrict Settled).Run [pressW] (start.next dolly pressW) :=
    hstart.snoc ⟨nofun, pressW_alternates rfl, rfl⟩
  have htick := hpress.snoc (l := .tick 20) ⟨fun _ _ _ _ _ h => (by cases h), nofun, rfl⟩
  exact ⟨_, htick, (states_follow dolly htick).1 20 rfl (by decide), rfl, rfl⟩

/-- A key that is pressed again between its release and the next tick is lost by that tick. -/
theorem forward_lost :
    ∃ w, (keyboard dolly).Run [pressW, releaseW, pressW, .tick 20] w ∧ ¬Follows w := by
  have hstart : (keyboard dolly).Run [] start := .nil ⟨fun _ => rfl, fun _ => rfl, fun _ => rfl⟩
  have hpress := hstart.snoc (l := pressW) ⟨pressW_alternates rfl, rfl⟩
  have hrelease := hpress.snoc (l := releaseW) ⟨releaseW_alternates rfl, rfl⟩
  have hagain := hrelease.snoc (l := pressW) ⟨pressW_alternates rfl, rfl⟩
  refine ⟨_, hagain.snoc (l := .tick 20) ⟨nofun, rfl⟩, fun h => ?_⟩
  have hone := (h .W .moveForward rfl).mpr rfl
  revert hone
  decide

end Starfall.Controls
