import ArduinoProjects.BleRgb.Divisions

/-!
# One animation on its own

An iteration that executes no command only runs the animations, and when two of
them are stopped it is the third one.  `Compiler.interval_eq`,
`Compiler.blinkInterval_eq` and `Compiler.direction_eq` are what the divisions
by a speed that is not zero give.
-/

namespace ArduinoProjects.BleRgb

variable {px : PixelStore} {cc : Compiler} {s : Sketch px} {i : Input}

/-! ## Iterations without a command -/

variable (cc s i) in
/-- The iteration executes no command. -/
def NoCommand : Prop := (nextCommand cc s i).1 = none

theorem commanded_of_noCommand (h : NoCommand cc s i) :
    ∃ rx, commanded cc s i = { s with rx := rx } := by
  refine ⟨(nextCommand cc s i).2 ++ i.received, ?_⟩
  unfold commanded
  dsimp only
  rw [show (nextCommand cc s i).1 = none from h]
  rfl

/-- Without a command the animations alone decide what is shown. -/
theorem frames_of_noCommand (h : NoCommand cc s i) :
    (loop cc s i).2.frames =
      if (animate cc (commanded cc s i) i).frame then [(loop cc s i).1.ring] else [] := by
  show (if (nextCommand cc s i).1.any Command.shows then [(commanded cc s i).ring] else []) ++
    (if (animate cc (commanded cc s i) i).frame then
      [(animate cc (commanded cc s i) i).sketch.ring] else []) = _
  rw [show (nextCommand cc s i).1 = none from h]
  rfl

/-! ## Speeds -/

theorem natAbs_toInt_le (speed : Int8) : speed.toInt.natAbs ≤ 128 := by
  have hlt := speed.toInt_lt
  have hle := speed.le_toInt
  omega

/-- A speed byte that is not zero is a speed that is not zero. -/
theorem speed_ne_zero {speed : UInt8} (h : speed ≠ 0) : Int8.ofInt speed.toNat ≠ 0 := by
  intro hzero
  have hbits := congrArg Int8.toBitVec hzero
  rw [Int8.toBitVec_ofInt] at hbits
  exact h (UInt8.toBitVec_inj.mp (by simpa using hbits))

/-- The interval of a speed that is not zero. -/
def intervalOf (speed : Int8) : UInt32 := .ofNat (1000 / speed.toInt.natAbs)

theorem tdiv_natAbs (speed : Int8) :
    Int.tdiv 1000 (speed.toInt.natAbs : Int) = (1000 / speed.toInt.natAbs : Nat) := by
  rw [Int.tdiv_eq_ediv_of_nonneg (by decide)]
  rfl

theorem Compiler.interval_eq (cc : Compiler) {speed : Int8} (h : speed ≠ 0) :
    cc.interval speed = intervalOf speed := by
  have hne := (abs_toInt_ne_zero speed).mpr h
  have hmod : ∀ q : Nat, q ≤ 1000 → ((q : Int) % 2 ^ 32).toNat = q := by omega
  unfold Compiler.interval Compiler.divide intervalOf
  rw [if_neg hne, Int.abs_eq_natAbs, tdiv_natAbs, UInt32.ofInt, hmod _ (Nat.div_le_self _ _)]

/-- The interval of a blink speed that is not zero.  That of a negative speed is
negative before it becomes `unsigned long`. -/
def blinkIntervalOf (speed : Int8) : UInt32 :=
  if speed.toInt < 0 then .ofInt (-((1000 / speed.toInt.natAbs : Nat) : Int))
  else intervalOf speed

theorem Compiler.blinkInterval_eq (cc : Compiler) {speed : Int8} (h : speed ≠ 0) :
    cc.blinkInterval speed = blinkIntervalOf speed := by
  have hzero : speed.toInt ≠ 0 := abs_ne_zero.mp ((abs_toInt_ne_zero speed).mpr h)
  have hinterval := cc.interval_eq h
  unfold Compiler.blinkInterval Compiler.divide blinkIntervalOf
  rw [if_neg hzero]
  split_ifs with hneg
  · have habs : speed.toInt = -(speed.toInt.natAbs : Int) := by omega
    rw [← tdiv_natAbs, ← Int.tdiv_neg, ← habs]
  · have habs : |speed.toInt| = speed.toInt := abs_of_nonneg (by omega)
    rw [← hinterval, Compiler.interval, habs, Compiler.divide, if_neg hzero]

theorem Compiler.direction_eq (cc : Compiler) {speed : Int8} (h : speed ≠ 0) :
    (cc.direction speed).toInt = speed.toInt.sign := by
  have hne := (abs_toInt_ne_zero speed).mpr h
  have hzero : speed.toInt ≠ 0 := abs_ne_zero.mp hne
  unfold Compiler.direction Compiler.divide
  rw [if_neg hne]
  rcases lt_or_gt_of_ne hzero with hneg | hpos
  · rw [abs_of_neg hneg, Int.tdiv_neg, Int.tdiv_self hzero, Int.sign_eq_neg_one_of_neg hneg]
    rfl
  · rw [abs_of_pos hpos, Int.tdiv_self hzero, Int.sign_eq_one_of_pos hpos]
    rfl

/-! ## Counts -/

theorem toNat_ne_zero {count : UInt8} (h : count ≠ 0) : count.toNat ≠ 0 :=
  fun hzero => h (UInt8.toNat_inj.mp hzero)

theorem toNat_sub_one {count : UInt8} (h : count ≠ 0) : (count - 1).toNat = count.toNat - 1 := by
  have hpos := toNat_ne_zero h
  have hsub : (count - 1).toNat = (255 + count.toNat) % 256 := UInt8.toNat_sub count 1
  have hlt := count.toNat_lt
  omega

/-! ## Calls of one animation -/

theorem rotate_of_due {ms : UInt32} (hspeed : s.rotation.speed ≠ 0) (hsteps : s.rotation.steps ≠ 0)
    (hdue : Due (cc.interval s.rotation.speed) ms s.rotation.previousUpdateMs) :
    (rotate cc s ms).sketch =
        { s with
          rotation := ⟨ms, s.rotation.speed, s.rotation.steps - 1⟩
          ring := shift s.ring (cc.direction s.rotation.speed).toInt } ∧
      (rotate cc s ms).frame = true := by
  unfold rotate
  dsimp only
  rw [if_neg hspeed, if_neg hsteps, if_pos hdue]
  exact ⟨rfl, rfl⟩

theorem rotate_of_not_due {ms : UInt32} (hspeed : s.rotation.speed ≠ 0)
    (hsteps : s.rotation.steps ≠ 0)
    (hdue : ¬ Due (cc.interval s.rotation.speed) ms s.rotation.previousUpdateMs) :
    (rotate cc s ms).sketch = s ∧ (rotate cc s ms).frame = false := by
  unfold rotate
  dsimp only
  rw [if_neg hspeed, if_neg hsteps, if_neg hdue]
  exact ⟨rfl, rfl⟩

/-- When the steps have run out the speed is set to zero, and is divided by. -/
theorem rotate_of_no_steps (cc : Compiler) (ms : UInt32) (hspeed : s.rotation.speed ≠ 0)
    (hsteps : s.rotation.steps = 0) :
    (rotate cc s ms).frame = decide (Due (cc.interval 0) ms s.rotation.previousUpdateMs) ∧
      (rotate cc s ms).sketch.rotation.speed = 0 := by
  unfold rotate
  dsimp only
  rw [if_neg hspeed, if_pos hsteps]
  split_ifs with hdue <;> simp [hdue]

theorem rotate_of_stopped (cc : Compiler) (ms : UInt32) (hspeed : s.rotation.speed = 0) :
    rotate cc s ms = ⟨s, false, []⟩ := by
  unfold rotate
  rw [if_pos hspeed]

theorem flash_of_stopped (cc : Compiler) (ms : UInt32) (hcount : s.blinky.count = 0) :
    flash cc s ms = ⟨s, false, []⟩ := by
  unfold flash
  rw [if_pos hcount]

theorem aim_of_off (cc : Compiler) (ms : UInt32) (random : Fin LED_COUNT)
    (hoff : s.aimless.style = .off) :
    aim cc s ms random = ⟨s, false, []⟩ := by
  unfold aim
  rw [hoff]

theorem jumpAround_of_due {ms : UInt32} (random : Fin LED_COUNT)
    (hdue : Due (cc.interval s.aimless.speed) ms s.aimless.previousUpdateMs) :
    (jumpAround cc s ms random).sketch =
        { s with
          ring := shift s.ring random.val
          aimless := ⟨if s.aimless.count - 1 = 0 then .off else s.aimless.style, ms,
            s.aimless.speed, s.aimless.count - 1⟩ } ∧
      (jumpAround cc s ms random).frame = true := by
  unfold jumpAround
  dsimp only
  rw [if_pos hdue]
  exact ⟨rfl, rfl⟩

theorem jumpAround_of_not_due {ms : UInt32} (random : Fin LED_COUNT)
    (hdue : ¬ Due (cc.interval s.aimless.speed) ms s.aimless.previousUpdateMs) :
    (jumpAround cc s ms random).sketch = s ∧ (jumpAround cc s ms random).frame = false := by
  unfold jumpAround
  dsimp only
  rw [if_neg hdue]
  exact ⟨rfl, rfl⟩

/-! ## Iterations with one animation -/

/-- Only the rotation may be running. -/
theorem animate_of_rotation (cc : Compiler) (i : Input)
    (hcount : s.blinky.count = 0) (hoff : s.aimless.style = .off) :
    (animate cc s i).sketch = (rotate cc s i.rotateMs).sketch ∧
      (animate cc s i).frame = (rotate cc s i.rotateMs).frame := by
  cases hr : (rotate cc s i.rotateMs).frame with
  | true =>
    rw [animate_of_rotate hr]
    exact ⟨rfl, hr⟩
  | false =>
    have hflash : flash cc (rotate cc s i.rotateMs).sketch i.flashMs =
        ⟨(rotate cc s i.rotateMs).sketch, false, []⟩ :=
      flash_of_stopped cc _ (by rw [rotate_blinky]; exact hcount)
    obtain ⟨hsketch, hframe⟩ := animate_of_aim hr (by rw [hflash])
    rw [hsketch, hframe, aim_of_off cc _ _ (by rw [rotate_aimless]; exact hoff)]
    exact ⟨rfl, rfl⟩

/-- Only the blink may be running. -/
theorem animate_of_blink (cc : Compiler) (i : Input)
    (hspeed : s.rotation.speed = 0) (hoff : s.aimless.style = .off) :
    (animate cc s i).sketch = (flash cc s i.flashMs).sketch ∧
      (animate cc s i).frame = (flash cc s i.flashMs).frame := by
  have hr := rotate_of_stopped cc i.rotateMs hspeed
  have hframe : (rotate cc s i.rotateMs).frame = false := by rw [hr]
  have hsketch : (rotate cc s i.rotateMs).sketch = s := by rw [hr]
  cases hf : (flash cc s i.flashMs).frame with
  | true =>
    have hboth := animate_of_flash hframe (by rw [hsketch]; exact hf)
    rw [hsketch] at hboth
    exact hboth
  | false =>
    have hboth := animate_of_aim hframe (by rw [hsketch]; exact hf)
    rw [hsketch, aim_of_off cc _ _ hoff] at hboth
    rw [flash_of_no_frame cc s hf]
    exact hboth

/-- Only the aimless animation may be running. -/
theorem animate_of_aimless (cc : Compiler) (i : Input)
    (hspeed : s.rotation.speed = 0) (hcount : s.blinky.count = 0) :
    (animate cc s i).sketch = (aim cc s i.aimMs i.random).sketch ∧
      (animate cc s i).frame = (aim cc s i.aimMs i.random).frame := by
  have hr := rotate_of_stopped cc i.rotateMs hspeed
  have hsketch : (rotate cc s i.rotateMs).sketch = s := by rw [hr]
  have hframe : (rotate cc s i.rotateMs).frame = false := by rw [hr]
  have hboth := animate_of_aim hframe (by rw [hsketch, flash_of_stopped cc _ hcount])
  rw [hsketch] at hboth
  exact hboth

/-- What an iteration does whose only animation does `sketch` and shows a frame
if `frame`. -/
theorem loop_of_animate {sketch' : Sketch px} {frame : Bool} (h : NoCommand cc s i)
    (hone : (animate cc (commanded cc s i) i).sketch = sketch' ∧
      (animate cc (commanded cc s i) i).frame = frame) :
    (loop cc s i).1 = sketch' ∧ (loop cc s i).2.frames = if frame then [sketch'.ring] else [] := by
  have hloop : (loop cc s i).1 = sketch' := hone.1
  rw [frames_of_noCommand h, hone.2, hloop]
  exact ⟨rfl, rfl⟩

end ArduinoProjects.BleRgb
