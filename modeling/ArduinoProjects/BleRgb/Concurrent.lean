import ArduinoProjects.BleRgb.Alone
import ArduinoProjects.BleRgb.Roulette

/-!
# Animations at the same time

`rotate() || flash() || aim()` calls an animation only when none before it made
a frame.  So two animations that are due in the same iteration do not both
advance, and the later one has to wait for another iteration.

Each animation is compared with the run in which the other two are stopped, and
stopped again after every command.  The rotation is never held up, the blink is
by the rotation, and the aimless animation is by both.  `advances_iff` puts them
together.
-/

namespace ArduinoProjects.BleRgb

variable {px : PixelStore} (cc : Compiler)

/-! ## Advances -/

/-- The iteration makes a rotation frame. -/
def rotates (s : Sketch px) (i : Input) : Bool :=
  (rotate cc (commanded cc s i) i.rotateMs).frame

/-- The iteration makes a frame of the aimless animation. -/
def aims (s : Sketch px) (i : Input) : Bool :=
  let r := rotate cc (commanded cc s i) i.rotateMs
  let f := flash cc r.sketch i.flashMs
  !r.frame && !f.frame && (aim cc f.sketch i.aimMs i.random).frame

/-- The rotation is due. -/
def RotationDue (s : Sketch px) (i : Input) : Prop := rotateMove cc (commanded cc s i) i ≠ none

/-- The blink is due. -/
def BlinkDue (s : Sketch px) (i : Input) : Prop := FlashDue cc (commanded cc s i) i

/-- The aimless animation is due. -/
def AimlessDue (s : Sketch px) (i : Input) : Prop := aimMove cc (commanded cc s i) i ≠ none

/-- No two animations are due in the same iteration. -/
structure NoTwoDue (s : Sketch px) (i : Input) : Prop where
  rotationBlink : ¬ (RotationDue cc s i ∧ BlinkDue cc s i)
  rotationAimless : ¬ (RotationDue cc s i ∧ AimlessDue cc s i)
  blinkAimless : ¬ (BlinkDue cc s i ∧ AimlessDue cc s i)

/-- The sketch with the other two animations stopped. -/
def rotationAlone (s : Sketch px) : Sketch px :=
  { s with
    blinky := { s.blinky with count := 0 }
    aimless := { s.aimless with style := .off } }

def blinkAlone (s : Sketch px) : Sketch px :=
  { s with
    rotation := { s.rotation with speed := 0 }
    aimless := { s.aimless with style := .off } }

def aimlessAlone (s : Sketch px) : Sketch px :=
  { s with
    rotation := { s.rotation with speed := 0 }
    blinky := { s.blinky with count := 0 } }

variable {cc} {s t : Sketch px} {i : Input}

theorem rotates_iff : rotates cc s i = true ↔ RotationDue cc s i := by
  rw [rotates, RotationDue, rotate_draws.1]
  cases rotateMove cc (commanded cc s i) i <;> simp

theorem blinks_iff_due : blinks cc s i = true ↔ ¬ RotationDue cc s i ∧ BlinkDue cc s i := by
  rw [blinks_iff, RotationDue, BlinkDue, not_not]

theorem aims_iff_due :
    aims cc s i = true ↔ ¬ RotationDue cc s i ∧ ¬ BlinkDue cc s i ∧ AimlessDue cc s i := by
  have hrotation : (rotate cc (commanded cc s i) i.rotateMs).frame = false ↔
      ¬ RotationDue cc s i := by
    rw [← rotates_iff, Bool.not_eq_true]
    rfl
  have hblink : (flash cc (rotate cc (commanded cc s i) i.rotateMs).sketch i.flashMs).frame =
      false ↔ ¬ BlinkDue cc s i := by
    rw [← Bool.not_eq_true, flash_rotate_frame_iff]
    exact Iff.rfl
  have haim (h : ¬ BlinkDue cc s i) :
      (aim cc (flash cc (rotate cc (commanded cc s i) i.rotateMs).sketch i.flashMs).sketch i.aimMs
        i.random).frame = true ↔ AimlessDue cc s i := by
    rw [flash_of_no_frame cc _ (hblink.mpr h), aim_draws.1, aimMove_rotate, AimlessDue,
      Option.isSome_iff_ne_none]
  unfold aims
  dsimp only
  rw [Bool.and_eq_true, Bool.and_eq_true, Bool.not_eq_true', Bool.not_eq_true', hrotation, hblink,
    and_assoc]
  exact and_congr_right fun _ => and_congr_right haim

/-! ## The parts of an iteration -/

theorem loop_rotation (cc : Compiler) (s : Sketch px) (i : Input) :
    (loop cc s i).1.rotation = (rotate cc (commanded cc s i) i.rotateMs).sketch.rotation := by
  show (animate cc (commanded cc s i) i).sketch.rotation = _
  unfold animate
  dsimp only
  split_ifs
  · rfl
  · exact flash_rotation cc _ _
  · rw [aim_rotation, flash_rotation]

theorem rotate_rotation_of_eq (h : s.rotation = t.rotation) (ms : UInt32) :
    (rotate cc s ms).sketch.rotation = (rotate cc t ms).sketch.rotation := by
  unfold rotate
  dsimp only
  rw [h]
  split_ifs <;> first | exact h | rfl

/-- What a blink frame does to the clock and the count. -/
theorem blinky_of_blinks (h : blinks cc s i = true) :
    (loop cc s i).1.blinky.previousUpdateMs = i.flashMs ∧
      (loop cc s i).1.blinky.speed = (commanded cc s i).blinky.speed ∧
      (loop cc s i).1.blinky.count = (commanded cc s i).blinky.count - 1 := by
  obtain ⟨hframe, _, hloop⟩ := loop_of_blinks h
  have hblinky := flash_blinky_of_frame hframe
  rw [rotate_blinky] at hblinky
  rw [hloop]
  exact hblinky

theorem jumpAround_aimless (cc : Compiler) (s : Sketch px) (ms : UInt32)
    (random : Fin LED_COUNT) :
    (jumpAround cc s ms random).sketch.aimless =
      if Due (cc.interval s.aimless.speed) ms s.aimless.previousUpdateMs then
        ⟨if s.aimless.count - 1 = 0 then .off else s.aimless.style, ms, s.aimless.speed,
          s.aimless.count - 1⟩
      else s.aimless := by
  by_cases hdue : Due (cc.interval s.aimless.speed) ms s.aimless.previousUpdateMs
  · rw [(jumpAround_of_due random hdue).1, if_pos hdue]
  · rw [(jumpAround_of_not_due random hdue).1, if_neg hdue]

/-- The aimless animation does not read the others. -/
theorem aim_aimless_of_eq (h : s.aimless = t.aimless) (ms : UInt32) (random : Fin LED_COUNT) :
    (aim cc s ms random).sketch.aimless = (aim cc t ms random).sketch.aimless := by
  unfold aim
  rw [h]
  cases t.aimless.style with
  | off => exact h
  | roulette =>
    dsimp only
    rw [spinRoulette_aimless, spinRoulette_aimless, h]
  | jump =>
    dsimp only
    rw [jumpAround_aimless, jumpAround_aimless, h]

theorem aimMove_ne_none_iff (h : s.aimless.style ≠ .off) :
    aimMove cc s i ≠ none ↔
      Due (cc.interval s.aimless.speed) i.aimMs s.aimless.previousUpdateMs := by
  unfold aimMove
  cases hstyle : s.aimless.style with
  | off => exact absurd hstyle h
  | roulette => exact ite_ne_right_iff.trans (and_iff_left (Option.some_ne_none _))
  | jump => exact ite_ne_right_iff.trans (and_iff_left (Option.some_ne_none _))

theorem aim_aimless_of_not_due (h : aimMove cc s i = none) :
    (aim cc s i.aimMs i.random).sketch.aimless = s.aimless := by
  unfold aim
  cases hstyle : s.aimless.style with
  | off => rfl
  | roulette =>
    have hdue : ¬ Due (cc.interval s.aimless.speed) i.aimMs s.aimless.previousUpdateMs :=
      fun hdue => (aimMove_ne_none_iff (by rw [hstyle]; decide)).mpr hdue h
    dsimp only
    rw [spinRoulette_aimless, if_neg hdue]
  | jump =>
    have hdue : ¬ Due (cc.interval s.aimless.speed) i.aimMs s.aimless.previousUpdateMs :=
      fun hdue => (aimMove_ne_none_iff (by rw [hstyle]; decide)).mpr hdue h
    dsimp only
    rw [jumpAround_aimless, if_neg hdue]

/-- Without a frame the aimless animation stays as it is. -/
theorem aimless_of_not_aims_frame (h : aims cc s i = false) :
    (loop cc s i).1.aimless = (commanded cc s i).aimless := by
  by_cases hcalled : Aims cc s i
  · have hnone : aimMove cc (commanded cc s i) i = none := by
      by_contra hdue
      rw [aims_iff_due.mpr ⟨not_not.mpr hcalled.1, hcalled.2, hdue⟩] at h
      cases h
    rw [loop_of_aims hcalled, aim_aimless_of_not_due (aimMove_rotate.trans hnone), rotate_aimless]
  · exact aimless_of_not_aims hcalled

/-! ## Each animation against the run without the other two -/

variable (cc) in
/-- The sketch with some animations stopped after every command.  The output is
whether one of the others makes a frame. -/
def alone (stop : Sketch px → Sketch px) : Machine (Sketch px) Input Bool where
  step s i :=
    let a := animate cc (stop (commanded cc s i)) i
    (a.sketch, a.frame)

/-- The rotations of two runs are the same. -/
structure SameRotation (p : Sketch px × Sketch px) : Prop where
  rotation : p.1.rotation = p.2.rotation
  rx : p.1.rx = p.2.rx

/-- The blinks of two runs are the same, up to what they have saved. -/
structure SameBlink (p : Sketch px × Sketch px) : Prop where
  previous : p.1.blinky.previousUpdateMs = p.2.blinky.previousUpdateMs
  speed : p.1.blinky.speed = p.2.blinky.speed
  count : p.1.blinky.count = p.2.blinky.count
  rx : p.1.rx = p.2.rx

/-- The aimless animations of two runs are the same. -/
structure SameAimless (p : Sketch px × Sketch px) : Prop where
  aimless : p.1.aimless = p.2.aimless
  rx : p.1.rx = p.2.rx

/-! ### The command of an iteration -/

theorem nextCommand_of_rx (h : s.rx = t.rx) : nextCommand cc s i = nextCommand cc t i := by
  unfold nextCommand
  rw [h]

/-- What every command keeps is kept by the first part of an iteration. -/
theorem commanded_keeps {Same : Sketch px × Sketch px → Prop}
    (hexecute : ∀ s t (c : Command), Same (s, t) → Same (c.execute s, c.execute t))
    (hqueue : ∀ s t rx, Same (s, t) → Same ({ s with rx := rx }, { t with rx := rx }))
    (hrx : s.rx = t.rx) (h : Same (s, t)) : Same (commanded cc s i, commanded cc t i) := by
  unfold commanded
  dsimp only
  rw [nextCommand_of_rx hrx]
  cases (nextCommand cc t i).1 with
  | none => exact hqueue _ _ _ h
  | some c => exact hqueue _ _ _ (hexecute _ _ c h)

theorem SameRotation.commanded (h : SameRotation (s, t)) :
    SameRotation (BleRgb.commanded cc s i, BleRgb.commanded cc t i) := by
  refine commanded_keeps (fun s t c h => ?_) (fun s t rx h => ⟨h.rotation, rfl⟩) h.rx h
  cases c with
  | rotate speed steps =>
    exact ⟨congrArg (fun r : Rotation => { r with speed := .ofInt speed, steps := .ofInt steps })
      h.rotation, h.rx⟩
  | _ => exact ⟨h.rotation, h.rx⟩

theorem SameBlink.commanded (h : SameBlink (s, t)) :
    SameBlink (BleRgb.commanded cc s i, BleRgb.commanded cc t i) := by
  refine commanded_keeps (fun s t c h => ?_)
    (fun s t rx h => ⟨h.previous, h.speed, h.count, rfl⟩) h.rx h
  cases c with
  | blink speed count => exact ⟨h.previous, rfl, rfl, h.rx⟩
  | flash speed count => exact ⟨h.previous, rfl, rfl, h.rx⟩
  | _ => exact ⟨h.previous, h.speed, h.count, h.rx⟩

theorem SameAimless.commanded (h : SameAimless (s, t)) :
    SameAimless (BleRgb.commanded cc s i, BleRgb.commanded cc t i) := by
  refine commanded_keeps (fun s t c h => ?_) (fun s t rx h => ⟨h.aimless, rfl⟩) h.rx h
  cases c with
  | jump speed count =>
    exact ⟨congrArg (fun a : Aimless =>
      { a with style := .jump, speed := .ofInt speed, count := .ofInt count }) h.aimless, h.rx⟩
  | roulette speed =>
    exact ⟨congrArg (fun a : Aimless => { a with style := .roulette, speed := .ofInt speed })
      h.aimless, h.rx⟩
  | _ => exact ⟨h.aimless, h.rx⟩

/-! ### The animations of an iteration -/

/-- The animations do not touch the queue. -/
theorem alone_rx {stop : Sketch px → Sketch px} (hstop : ∀ s, (stop s).rx = s.rx)
    (h : (commanded cc s i).rx = (commanded cc t i).rx) :
    (loop cc s i).1.rx = ((alone cc stop).next t i).rx := by
  show (animate cc (commanded cc s i) i).sketch.rx =
    (animate cc (stop (commanded cc t i)) i).sketch.rx
  rw [animate_rx, animate_rx, hstop, h]

/-- The rotation is never held up. -/
theorem SameRotation.step (h : SameRotation (s, t)) :
    rotates cc s i = (alone cc rotationAlone).out t i ∧
      SameRotation ((loop cc s i).1, (alone cc rotationAlone).next t i) := by
  have hc : SameRotation (BleRgb.commanded cc s i, BleRgb.commanded cc t i) := h.commanded
  have hrotation : (BleRgb.commanded cc s i).rotation =
      (rotationAlone (BleRgb.commanded cc t i)).rotation := hc.rotation
  have hmove : rotateMove cc (BleRgb.commanded cc s i) i =
      rotateMove cc (rotationAlone (BleRgb.commanded cc t i)) i := by
    unfold rotateMove
    rw [hrotation]
  obtain ⟨hsketch, hframe⟩ :=
    animate_of_rotation (s := rotationAlone (BleRgb.commanded cc t i)) cc i rfl rfl
  refine ⟨?_, ?_, alone_rx (fun _ => rfl) hc.rx⟩
  · show _ = (animate cc (rotationAlone (BleRgb.commanded cc t i)) i).frame
    rw [hframe, rotates, rotate_draws.1, rotate_draws.1, hmove]
  · show (loop cc s i).1.rotation =
      (animate cc (rotationAlone (BleRgb.commanded cc t i)) i).sketch.rotation
    rw [hsketch, loop_rotation, rotate_rotation_of_eq hrotation]

/-- The blink is held up by the rotation. -/
theorem SameBlink.step (h : SameBlink (s, t)) :
    (blinks cc s i = (alone cc blinkAlone).out t i ↔
        ¬ (RotationDue cc s i ∧ BlinkDue cc s i)) ∧
      (blinks cc s i = (alone cc blinkAlone).out t i →
        SameBlink ((loop cc s i).1, (alone cc blinkAlone).next t i)) := by
  have hc : SameBlink (BleRgb.commanded cc s i, BleRgb.commanded cc t i) := h.commanded
  obtain ⟨hsketch, hframe⟩ :=
    animate_of_blink (s := blinkAlone (BleRgb.commanded cc t i)) cc i rfl rfl
  have hout : (alone cc blinkAlone).out t i =
      (flash cc (blinkAlone (BleRgb.commanded cc t i)) i.flashMs).frame := hframe
  have hnext : (alone cc blinkAlone).next t i =
      (flash cc (blinkAlone (BleRgb.commanded cc t i)) i.flashMs).sketch := hsketch
  have hdue : (alone cc blinkAlone).out t i = true ↔ BlinkDue cc s i := by
    rw [hout, flash_frame_iff, BlinkDue, FlashDue, FlashDue,
      show (BleRgb.commanded cc s i).blinky.count = _ from hc.count,
      show (BleRgb.commanded cc s i).blinky.speed = _ from hc.speed,
      show (BleRgb.commanded cc s i).blinky.previousUpdateMs = _ from hc.previous]
    exact Iff.rfl
  constructor
  · rw [Bool.eq_iff_iff, hdue, blinks_iff_due, and_iff_right_iff_imp, not_and']
  · intro hblinks
    have hrx : (loop cc s i).1.rx = ((alone cc blinkAlone).next t i).rx :=
      alone_rx (fun _ => rfl) hc.rx
    rw [hnext] at hrx ⊢
    rw [hout] at hblinks
    cases hb : blinks cc s i with
    | true =>
      obtain ⟨hprevious, hspeed, hcount⟩ := blinky_of_blinks hb
      obtain ⟨hprevious', hspeed', hcount'⟩ := flash_blinky_of_frame (hblinks.symm.trans hb)
      exact ⟨hprevious.trans hprevious'.symm, hspeed.trans (hc.speed.trans hspeed'.symm),
        hcount.trans ((congrArg (· - 1) hc.count).trans hcount'.symm), hrx⟩
    | false =>
      have hblinky := loop_of_not_blinks hb
      have hblinky' := flash_of_no_frame cc _ (hblinks.symm.trans hb)
      refine ⟨?_, ?_, ?_, hrx⟩
      all_goals
        dsimp only
        rw [hblinky, hblinky']
      · exact hc.previous
      · exact hc.speed
      · exact hc.count

/-- The aimless animation is held up by both others. -/
theorem SameAimless.step (h : SameAimless (s, t)) :
    (aims cc s i = (alone cc aimlessAlone).out t i ↔
        ¬ (AimlessDue cc s i ∧ (RotationDue cc s i ∨ BlinkDue cc s i))) ∧
      (aims cc s i = (alone cc aimlessAlone).out t i →
        SameAimless ((loop cc s i).1, (alone cc aimlessAlone).next t i)) := by
  have hc : SameAimless (BleRgb.commanded cc s i, BleRgb.commanded cc t i) := h.commanded
  have haimless : (BleRgb.commanded cc s i).aimless =
      (aimlessAlone (BleRgb.commanded cc t i)).aimless := hc.aimless
  have hmove : aimMove cc (aimlessAlone (BleRgb.commanded cc t i)) i =
      aimMove cc (BleRgb.commanded cc s i) i := by
    rw [aimMove, aimMove, haimless]
  obtain ⟨hsketch, hframe⟩ :=
    animate_of_aimless (s := aimlessAlone (BleRgb.commanded cc t i)) cc i rfl rfl
  have hnext : (alone cc aimlessAlone).next t i =
      (aim cc (aimlessAlone (BleRgb.commanded cc t i)) i.aimMs i.random).sketch := hsketch
  have hout : (alone cc aimlessAlone).out t i = (aimMove cc (BleRgb.commanded cc s i) i).isSome :=
    hframe.trans (aim_draws.1.trans (by rw [hmove]))
  have hdue : (alone cc aimlessAlone).out t i = true ↔ AimlessDue cc s i := by
    rw [hout, AimlessDue, Option.isSome_iff_ne_none]
  constructor
  · rw [Bool.eq_iff_iff, hdue, aims_iff_due, ← and_assoc, and_iff_right_iff_imp, not_and, not_or]
  · intro haims
    refine ⟨?_, alone_rx (fun _ => rfl) hc.rx⟩
    show (loop cc s i).1.aimless = ((alone cc aimlessAlone).next t i).aimless
    rw [hnext]
    cases ha : aims cc s i with
    | true =>
      obtain ⟨hr, hb, _⟩ := aims_iff_due.mp ha
      rw [loop_of_aims ⟨not_not.mp hr, hb⟩]
      exact aim_aimless_of_eq (by rw [rotate_aimless, haimless]) _ _
    | false =>
      have hnone : aimMove cc (BleRgb.commanded cc s i) i = none := by
        rw [hout, ha] at haims
        simpa using haims.symm
      rw [aimless_of_not_aims_frame ha, aim_aimless_of_not_due (hmove.trans hnone), haimless]

/-! ## Runs -/

/-- In every iteration an animation advances exactly when it advances in the run
with the others stopped. -/
def AdvancesAsAlone (cc : Compiler) (stop : Sketch px → Sketch px)
    (advances : Sketch px → Input → Bool) (s : Sketch px) (inputs : List Input) : Prop :=
  ((sketch px cc).pair (alone cc stop)).Always
    (fun p i => advances p.1 i = (alone cc stop).out p.2 i) (s, s) inputs

/-- An animation that stays the same as long as it is not held up advances alike
exactly when it never is. -/
theorem advancesAsAlone_iff (stop : Sketch px → Sketch px) (advances : Sketch px → Input → Bool)
    (Same : Sketch px × Sketch px → Prop) (HeldUp : Sketch px → Input → Prop)
    (hstep : ∀ s t i, Same (s, t) →
      (advances s i = (alone cc stop).out t i ↔ ¬ HeldUp s i) ∧
        (advances s i = (alone cc stop).out t i →
          Same ((loop cc s i).1, (alone cc stop).next t i)))
    {inputs : List Input} (hinit : Same (s, s)) :
    AdvancesAsAlone cc stop advances s inputs ↔
      (sketch px cc).Always (fun s i => ¬ HeldUp s i) s inputs := by
  rw [← Machine.always_pair_fst (sketch px cc) (alone cc stop) (p := (s, s))]
  refine Machine.always_iff Same (fun p i h => (hstep p.1 p.2 i h).1) (fun p i h hfree => ?_) hinit
  exact (hstep p.1 p.2 i h).2 ((hstep p.1 p.2 i h).1.mpr hfree)

/-- In every run each animation advances in exactly the iterations in which it
would advance with the other two stopped, exactly when no two of them are ever
due in the same iteration. -/
theorem advances_iff (cc : Compiler) (s : Sketch px) (inputs : List Input) :
    (AdvancesAsAlone cc rotationAlone (rotates cc) s inputs ∧
      AdvancesAsAlone cc blinkAlone (blinks cc) s inputs ∧
      AdvancesAsAlone cc aimlessAlone (aims cc) s inputs) ↔
        (sketch px cc).Always (NoTwoDue cc) s inputs := by
  have hrotation : AdvancesAsAlone cc rotationAlone (rotates cc) s inputs ↔
      (sketch px cc).Always (fun _ _ => ¬ False) s inputs :=
    advancesAsAlone_iff rotationAlone (rotates cc) SameRotation (fun _ _ => False)
      (fun _ _ _ h => ⟨iff_of_true h.step.1 not_false, fun _ => h.step.2⟩) ⟨rfl, rfl⟩
  have hblink : AdvancesAsAlone cc blinkAlone (blinks cc) s inputs ↔
      (sketch px cc).Always (fun s i => ¬ (RotationDue cc s i ∧ BlinkDue cc s i)) s inputs :=
    advancesAsAlone_iff blinkAlone (blinks cc) SameBlink
      (fun s i => RotationDue cc s i ∧ BlinkDue cc s i) (fun _ _ _ h => h.step)
      ⟨rfl, rfl, rfl, rfl⟩
  have haimless : AdvancesAsAlone cc aimlessAlone (aims cc) s inputs ↔
      (sketch px cc).Always
        (fun s i => ¬ (AimlessDue cc s i ∧ (RotationDue cc s i ∨ BlinkDue cc s i))) s inputs :=
    advancesAsAlone_iff aimlessAlone (aims cc) SameAimless
      (fun s i => AimlessDue cc s i ∧ (RotationDue cc s i ∨ BlinkDue cc s i))
      (fun _ _ _ h => h.step) ⟨rfl, rfl⟩
  rw [hrotation, hblink, haimless, ← Machine.always_and, ← Machine.always_and]
  refine Machine.always_congr fun s i => ?_
  constructor
  · rintro ⟨-, hrb, haim⟩
    exact ⟨hrb, fun h => haim ⟨h.2, .inl h.1⟩, fun h => haim ⟨h.2, .inr h.1⟩⟩
  · rintro ⟨hrb, hra, hba⟩
    exact ⟨not_false, hrb,
      fun h => h.2.elim (fun hr => hra ⟨hr, h.1⟩) fun hb => hba ⟨hb, h.1⟩⟩

/-- The sketch after `R` with speed 1 and 5 steps, right after `setup()`. -/
def rotating : Sketch ledStore :=
  (sketch ledStore ⟨.indexFirst, id⟩).run (setup ledStore).1
    [⟨true, ['R'.toUInt8, 1, 5], 0, 0, 0, 0⟩, ⟨true, [], 0, 0, 0, 0⟩]

/-- The rotation and the blink are due, and only the rotation advances. -/
theorem rotating_holds_up_blink :
    ¬ AdvancesAsAlone ⟨.indexFirst, id⟩ blinkAlone (blinks ⟨.indexFirst, id⟩) rotating
      [⟨true, [], 1000, 1000, 0, 0⟩] := by
  rintro ⟨hfirst, _⟩
  revert hfirst
  decide

end ArduinoProjects.BleRgb
