import ArduinoProjects.BleRgb.Animations

/-!
# Divisions by zero

The animations divide by their speeds, and the commands can set every speed to
zero.  The rotation also sets its own speed to zero when its steps have run
out, right before it divides.

`Guarded` says of one iteration that the animations which it calls have a speed
to divide by, and `animate_divisors_ne_zero_iff` that no divisor is zero then.
-/

namespace ArduinoProjects.BleRgb

variable {px : PixelStore} (cc : Compiler) (s : Sketch px)

/-- The rotation makes a frame, if its steps have not run out. -/
def RotateDue (i : Input) : Prop :=
  s.rotation.speed ≠ 0 ∧
    Due (cc.interval s.rotation.speed) i.rotateMs s.rotation.previousUpdateMs

/-- The blink makes a frame. -/
def FlashDue (i : Input) : Prop :=
  s.blinky.count ≠ 0 ∧
    Due (cc.blinkInterval s.blinky.speed) i.flashMs s.blinky.previousUpdateMs

instance (i : Input) : Decidable (FlashDue cc s i) := inferInstanceAs (Decidable (_ ∧ _))

/-- The animations that are called in the iteration have a speed to divide
by. -/
structure Guarded (i : Input) : Prop where
  rotate : s.rotation.speed ≠ 0 → s.rotation.steps ≠ 0
  flash : ¬ RotateDue cc s i → s.blinky.count ≠ 0 → s.blinky.speed ≠ 0
  aim : ¬ RotateDue cc s i → ¬ FlashDue cc s i → s.aimless.style ≠ .off → s.aimless.speed ≠ 0

/-! ## The three animations -/

theorem abs_toInt_ne_zero (speed : Int8) : |speed.toInt| ≠ 0 ↔ speed ≠ 0 := by
  rw [abs_ne_zero, ne_eq, ne_eq, ← Int8.toInt_zero, Int8.toInt_inj]

/-- The rotation divides by zero exactly when its steps have run out. -/
theorem rotate_divisors_ne_zero_iff (ms : UInt32) :
    (∀ d ∈ (rotate cc s ms).divisors, d ≠ 0) ↔
      (s.rotation.speed ≠ 0 → s.rotation.steps ≠ 0) := by
  have hspeed := abs_toInt_ne_zero s.rotation.speed
  rw [rotate_divisors]
  split_ifs with h hsteps
  · simp [h]
  · simp [h, hsteps]
  · simpa [h, hsteps] using hspeed

theorem flash_divisors_ne_zero_iff (ms : UInt32) :
    (∀ d ∈ (flash cc s ms).divisors, d ≠ 0) ↔ (s.blinky.count ≠ 0 → s.blinky.speed ≠ 0) := by
  have hspeed : s.blinky.speed.toInt ≠ 0 ↔ s.blinky.speed ≠ 0 := by
    rw [← abs_ne_zero, abs_toInt_ne_zero]
  rw [flash_divisors]
  split_ifs with h
  · simp [h]
  · simpa [h] using hspeed

theorem aim_divisors_ne_zero_iff (ms : UInt32) (random : Fin LED_COUNT) :
    (∀ d ∈ (aim cc s ms random).divisors, d ≠ 0) ↔
      (s.aimless.style ≠ .off → s.aimless.speed ≠ 0) := by
  have hspeed := abs_toInt_ne_zero s.aimless.speed
  rw [aim_divisors]
  cases hstyle : s.aimless.style with
  | off => simp
  | roulette => simpa using hspeed
  | jump => simpa using hspeed

theorem rotate_frame_iff {i : Input} (h : s.rotation.speed ≠ 0 → s.rotation.steps ≠ 0) :
    (rotate cc s i.rotateMs).frame = true ↔ RotateDue cc s i := by
  unfold rotate RotateDue
  by_cases hspeed : s.rotation.speed = 0
  · simp [hspeed]
  · simp only [hspeed, h hspeed, if_false, ne_eq, not_false_eq_true, true_and]
    split_ifs with hdue <;> simp [hdue]

theorem flash_frame_iff {i : Input} :
    (flash cc s i.flashMs).frame = true ↔ FlashDue cc s i := by
  unfold flash FlashDue
  dsimp only
  split_ifs <;> simp [*]

/-- The rotation before it does not change whether the blink is due. -/
theorem flash_rotate_frame_iff {i : Input} :
    (flash cc (rotate cc s i.rotateMs).sketch i.flashMs).frame = true ↔ FlashDue cc s i := by
  rw [flash_frame_iff, FlashDue, FlashDue, rotate_blinky]

/-! ## An iteration -/

theorem forall_mem_ite_nil {b : Bool} {ds : List Int} :
    (∀ d ∈ (if b then [] else ds), d ≠ 0) ↔ (¬ b = true → ∀ d ∈ ds, d ≠ 0) := by
  cases b <;> simp

/-- No divisor of an iteration is zero exactly when it is guarded. -/
theorem animate_divisors_ne_zero_iff (i : Input) :
    (∀ d ∈ (animate cc s i).divisors, d ≠ 0) ↔ Guarded cc s i := by
  have hrotate := rotate_divisors_ne_zero_iff cc s i.rotateMs
  have hflash := flash_divisors_ne_zero_iff cc (rotate cc s i.rotateMs).sketch i.flashMs
  have haim := aim_divisors_ne_zero_iff cc (rotate cc s i.rotateMs).sketch i.aimMs i.random
  have hflashFrame := flash_frame_iff cc (rotate cc s i.rotateMs).sketch (i := i)
  have hflashDue : FlashDue cc (rotate cc s i.rotateMs).sketch i ↔ FlashDue cc s i := by
    simp [FlashDue]
  rw [rotate_blinky] at hflash
  rw [rotate_aimless] at haim
  rw [animate_divisors]
  dsimp only
  rw [List.forall_mem_append, hrotate, forall_mem_ite_nil, List.forall_mem_append, hflash,
    forall_mem_ite_nil, haim, hflashFrame, hflashDue]
  constructor
  · rintro ⟨hsteps, hrest⟩
    rw [rotate_frame_iff cc s hsteps] at hrest
    exact ⟨hsteps, fun hr => (hrest hr).1, fun hr hf => (hrest hr).2 hf⟩
  · rintro ⟨hsteps, hspeed, haimless⟩
    rw [rotate_frame_iff cc s hsteps]
    exact ⟨hsteps, fun hr => ⟨hspeed hr, fun hf => haimless hr hf⟩⟩

end ArduinoProjects.BleRgb
