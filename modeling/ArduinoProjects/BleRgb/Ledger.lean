import ArduinoProjects.BleRgb.Alone

/-!
# Runs without a division by zero

Which division is executed depends on the speeds, the counts and the style of
the animations, and these on all commands and frames before.  `Ledger` is a
record of the commands only: for the rotation and for the blink the speed and
the count of the last command, the frames made since and the time of the last
one, and for the aimless animation the speed of the last command.  It reads the
received bytes and the times, and nothing of the sketch.

`Safe` is the condition of one iteration on that record.

* A rotation with a speed has a step left, so the last frame of one is followed
  at once by the next rotation command.
* A blink with speed 0 has count 0, or a rotation frame is made in its place.
* An aimless animation with speed 0 is held up by a rotation frame or a blink
  frame.

As long as the iterations are safe the sketch follows its ledger, which is the
invariant `Follows`.  `divisors_ne_zero_iff` is the result: the runs without a
division by zero are the safe ones.
-/

namespace ArduinoProjects.BleRgb

/-! ## The record of the commands -/

/-- What the last command of an animation has ordered, the frames made for it,
and the time of the last frame of the animation. -/
structure Order where
  speed : Int8
  count : UInt8
  made : Nat
  lastMs : UInt32

/-- A command replaces the order and leaves the time of the last frame. -/
def Order.renew (o : Order) (speed count : Int) : Order :=
  ⟨.ofInt speed, .ofInt count, 0, o.lastMs⟩

/-- A frame is made. -/
def Order.frame (o : Order) (ms : UInt32) : Order := ⟨o.speed, o.count, o.made + 1, ms⟩

structure Ledger where
  rotation : Order
  blink : Order
  /-- The speed of the last Jump or Roulette. -/
  aimless : Option Int8
  rx : List UInt8

namespace Ledger

/-- The record after `setup()`, which orders five blink frames. -/
def init : Ledger := ⟨⟨0, 0, 0, 0⟩, ⟨1, 5, 0, 0⟩, none, []⟩

def order (l : Ledger) : Command → Ledger
  | .setOne .. | .setAll .. => l
  | .rotate speed steps => { l with rotation := l.rotation.renew speed steps }
  | .blink speed count | .flash speed count => { l with blink := l.blink.renew speed count }
  | .jump speed _ | .roulette speed => { l with aimless := some (.ofInt speed) }

/-- The record after the command of an iteration and the bytes that arrive. -/
def ordered (cc : Compiler) (l : Ledger) (i : Input) : Ledger :=
  let (command, rx) := if i.connected then receive cc l.rx else (none, l.rx)
  { command.elim l l.order with rx := rx ++ i.received }

/-- The time for a rotation frame has come. -/
def Rotates (l : Ledger) (i : Input) : Prop :=
  l.rotation.speed ≠ 0 ∧ Due (intervalOf l.rotation.speed) i.rotateMs l.rotation.lastMs

/-- The time for a blink frame has come. -/
def Flashes (l : Ledger) (i : Input) : Prop :=
  l.blink.made < l.blink.count.toNat ∧
    Due (blinkIntervalOf l.blink.speed) i.flashMs l.blink.lastMs

instance (l : Ledger) (i : Input) : Decidable (l.Rotates i) := inferInstanceAs (Decidable (_ ∧ _))

instance (l : Ledger) (i : Input) : Decidable (l.Flashes i) := inferInstanceAs (Decidable (_ ∧ _))

/-- The condition on an iteration, after its command. -/
structure Safe (l : Ledger) (i : Input) : Prop where
  rotation : l.rotation.speed ≠ 0 → l.rotation.made < l.rotation.count.toNat
  blink : l.blink.speed = 0 → l.blink.count ≠ 0 → l.Rotates i
  aimless : l.aimless = some 0 → l.Rotates i ∨ l.Flashes i

instance (l : Ledger) (i : Input) : Decidable (l.Safe i) :=
  decidable_of_iff
    ((l.rotation.speed ≠ 0 → l.rotation.made < l.rotation.count.toNat) ∧
      (l.blink.speed = 0 → l.blink.count ≠ 0 → l.Rotates i) ∧
      (l.aimless = some 0 → l.Rotates i ∨ l.Flashes i))
    ⟨fun ⟨rotation, blink, aimless⟩ => ⟨rotation, blink, aimless⟩,
      fun h => ⟨h.rotation, h.blink, h.aimless⟩⟩

/-- The frame of an iteration is counted. -/
def record (l : Ledger) (i : Input) : Ledger :=
  if l.Rotates i then { l with rotation := l.rotation.frame i.rotateMs }
  else if l.Flashes i then { l with blink := l.blink.frame i.flashMs }
  else l

end Ledger

def ledger (cc : Compiler) : Machine Ledger Input Unit where
  step l i := ((l.ordered cc i).record i, ())

/-! ## The sketch follows the record -/

variable {px : PixelStore} {cc : Compiler} {s : Sketch px} {l : Ledger} {i : Input}

/-- What the sketch keeps of the record.  The steps and the count are what is
left of an order. -/
structure Follows (s : Sketch px) (l : Ledger) : Prop where
  rx : s.rx = l.rx
  rotationSpeed : s.rotation.speed = l.rotation.speed
  rotationLast : s.rotation.previousUpdateMs = l.rotation.lastMs
  steps : l.rotation.speed ≠ 0 →
    s.rotation.steps.toNat + l.rotation.made = l.rotation.count.toNat
  blinkSpeed : s.blinky.speed = l.blink.speed
  blinkLast : s.blinky.previousUpdateMs = l.blink.lastMs
  count : s.blinky.count.toNat + l.blink.made = l.blink.count.toNat
  unmade : l.blink.speed = 0 → l.blink.made = 0
  aimless : s.aimless.style ≠ .off ∧ s.aimless.speed = 0 ↔ l.aimless = some 0

theorem follows_init : Follows (setup px).1 Ledger.init :=
  ⟨rfl, rfl, rfl, fun _ => rfl, rfl, rfl, rfl, fun _ => rfl, by simp [setup, Ledger.init]⟩

theorem Follows.execute (h : Follows s l) (c : Command) : Follows (c.execute s) (l.order c) := by
  obtain ⟨hrx, hrs, hrl, hsteps, hbs, hbl, hcount, hunmade, haim⟩ := h
  cases c with
  | setOne => exact ⟨hrx, hrs, hrl, hsteps, hbs, hbl, hcount, hunmade, haim⟩
  | setAll => exact ⟨hrx, hrs, hrl, hsteps, hbs, hbl, hcount, hunmade, haim⟩
  | rotate => exact ⟨hrx, rfl, hrl, fun _ => rfl, hbs, hbl, hcount, hunmade, haim⟩
  | blink => exact ⟨hrx, hrs, hrl, hsteps, rfl, hbl, rfl, fun _ => rfl, haim⟩
  | flash => exact ⟨hrx, hrs, hrl, hsteps, rfl, hbl, rfl, fun _ => rfl, haim⟩
  | jump => exact ⟨hrx, hrs, hrl, hsteps, hbs, hbl, hcount, hunmade,
      by simp [Command.execute, Ledger.order]⟩
  | roulette => exact ⟨hrx, hrs, hrl, hsteps, hbs, hbl, hcount, hunmade,
      by simp [Command.execute, Ledger.order]⟩

/-- The sketch and its record read the same command. -/
theorem Follows.commanded (h : Follows s l) : Follows (commanded cc s i) (l.ordered cc i) := by
  have hnext : nextCommand cc s i = if i.connected then receive cc l.rx else (none, l.rx) := by
    rw [nextCommand, h.rx]
  unfold BleRgb.commanded Ledger.ordered
  rw [hnext]
  generalize (if i.connected then receive cc l.rx else (none, l.rx)) = next
  rcases next with ⟨_ | c, rx⟩
  · exact { h with rx := rfl }
  · exact { h.execute c with rx := rfl }

/-! ## An iteration -/

theorem Follows.rotateDue_iff (h : Follows s l) : RotateDue cc s i ↔ l.Rotates i := by
  unfold RotateDue Ledger.Rotates
  rw [h.rotationSpeed, h.rotationLast]
  apply and_congr_right
  intro hspeed
  rw [cc.interval_eq hspeed]

theorem Follows.count_ne_zero_iff (h : Follows s l) :
    s.blinky.count ≠ 0 ↔ l.blink.made < l.blink.count.toNat := by
  have hcount := h.count
  rw [ne_eq, ← UInt8.toNat_inj, UInt8.toNat_zero]
  omega

theorem Follows.flashDue_iff (h : Follows s l) (hspeed : l.blink.speed ≠ 0) :
    FlashDue cc s i ↔ l.Flashes i := by
  unfold FlashDue Ledger.Flashes
  rw [h.count_ne_zero_iff, h.blinkSpeed, h.blinkLast, cc.blinkInterval_eq hspeed]

theorem Follows.steps_ne_zero_iff (h : Follows s l) (hspeed : l.rotation.speed ≠ 0) :
    s.rotation.steps ≠ 0 ↔ l.rotation.made < l.rotation.count.toNat := by
  have hsteps := h.steps hspeed
  rw [ne_eq, ← UInt8.toNat_inj, UInt8.toNat_zero]
  omega

/-- A blink without a speed makes no frame in an iteration without a rotation
frame, as its count is zero. -/
theorem Follows.flashDue_iff_of_blink (h : Follows s l)
    (hblink : l.blink.speed = 0 → l.blink.count ≠ 0 → l.Rotates i) (hrotates : ¬ l.Rotates i) :
    FlashDue cc s i ↔ l.Flashes i := by
  by_cases hspeed : l.blink.speed = 0
  · have hnone : l.blink.count = 0 := by
      by_contra hcount
      exact hrotates (hblink hspeed hcount)
    have hzero : ¬ l.blink.made < l.blink.count.toNat := by simp [hnone]
    exact iff_of_false (fun hdue => hzero (h.count_ne_zero_iff.mp hdue.1))
      (fun hflashes => hzero hflashes.1)
  · exact h.flashDue_iff hspeed

/-- The animations that are called have a speed exactly when the record is
safe. -/
theorem Follows.guarded_iff (h : Follows s l) : Guarded cc s i ↔ l.Safe i := by
  have hrotation : (s.rotation.speed ≠ 0 → s.rotation.steps ≠ 0) ↔
      (l.rotation.speed ≠ 0 → l.rotation.made < l.rotation.count.toNat) := by
    rw [h.rotationSpeed]
    exact imp_congr_right fun hspeed => h.steps_ne_zero_iff hspeed
  have hblink : (¬ RotateDue cc s i → s.blinky.count ≠ 0 → s.blinky.speed ≠ 0) ↔
      (l.blink.speed = 0 → l.blink.count ≠ 0 → l.Rotates i) := by
    have hcount (hspeed : l.blink.speed = 0) : s.blinky.count ≠ 0 ↔ l.blink.count ≠ 0 := by
      have hsum := h.count
      have hmade := h.unmade hspeed
      rw [ne_eq, ne_eq, ← UInt8.toNat_inj, ← UInt8.toNat_inj]
      omega
    rw [h.rotateDue_iff, h.blinkSpeed]
    constructor
    · intro hguard hspeed hne
      by_contra hrotates
      exact hguard hrotates ((hcount hspeed).mpr hne) hspeed
    · intro hguard hrotates hne hspeed
      exact hrotates (hguard hspeed ((hcount hspeed).mp hne))
  have haim (hb : l.blink.speed = 0 → l.blink.count ≠ 0 → l.Rotates i) :
      (¬ RotateDue cc s i → ¬ FlashDue cc s i → s.aimless.style ≠ .off → s.aimless.speed ≠ 0) ↔
        (l.aimless = some 0 → l.Rotates i ∨ l.Flashes i) := by
    rw [h.rotateDue_iff, ← h.aimless]
    constructor
    · rintro hguard ⟨hstyle, hspeed⟩
      by_contra hnone
      rw [not_or] at hnone
      rw [h.flashDue_iff_of_blink hb hnone.1] at hguard
      exact hguard hnone.1 hnone.2 hstyle hspeed
    · intro hguard hrotates hflashes hstyle hspeed
      rw [h.flashDue_iff_of_blink hb hrotates] at hflashes
      rcases hguard ⟨hstyle, hspeed⟩ with hr | hf
      · exact hrotates hr
      · exact hflashes hf
  constructor
  · intro hguard
    have hb := hblink.mp hguard.flash
    exact ⟨hrotation.mp hguard.rotate, hb, (haim hb).mp hguard.aim⟩
  · intro hsafe
    exact ⟨hrotation.mpr hsafe.rotation, hblink.mpr hsafe.blink,
      (haim hsafe.blink).mpr hsafe.aimless⟩

/-- A rotation frame is one step less. -/
theorem Follows.rotated (h : Follows s l) (hsafe : l.Safe i) (hrotates : l.Rotates i) :
    Follows (rotate cc s i.rotateMs).sketch
      { l with rotation := l.rotation.frame i.rotateMs } := by
  have hdue : RotateDue cc s i := h.rotateDue_iff.mpr hrotates
  have hsteps : s.rotation.steps ≠ 0 :=
    (h.steps_ne_zero_iff hrotates.1).mpr (hsafe.rotation hrotates.1)
  have hmade := h.steps hrotates.1
  have hless := toNat_sub_one hsteps
  have hpos := toNat_ne_zero hsteps
  rw [(rotate_of_due hdue.1 hsteps hdue.2).1]
  refine { h with rotationLast := rfl, steps := fun _ => ?_ }
  show (s.rotation.steps - 1).toNat + (l.rotation.made + 1) = l.rotation.count.toNat
  omega

variable (cc) in
/-- Without a frame the rotation does nothing. -/
theorem Follows.rotate_sketch (h : Follows s l) (hsafe : l.Safe i) (hrotates : ¬ l.Rotates i) :
    (rotate cc s i.rotateMs).sketch = s ∧ (rotate cc s i.rotateMs).frame = false := by
  by_cases hspeed : s.rotation.speed = 0
  · rw [rotate_of_stopped cc _ hspeed]
    exact ⟨rfl, rfl⟩
  · have hnotDue : ¬ RotateDue cc s i := fun hdue => hrotates (h.rotateDue_iff.mp hdue)
    have hordered : l.rotation.speed ≠ 0 := h.rotationSpeed ▸ hspeed
    apply rotate_of_not_due hspeed ((h.steps_ne_zero_iff hordered).mpr (hsafe.rotation hordered))
    exact fun hdue => hnotDue ⟨hspeed, hdue⟩

/-- A blink frame is one count less. -/
theorem Follows.flashed (h : Follows s l) (hspeed : l.blink.speed ≠ 0)
    (hframe : (flash cc s i.flashMs).frame = true) :
    Follows (flash cc s i.flashMs).sketch { l with blink := l.blink.frame i.flashMs } := by
  have hne := count_ne_zero_of_flash hframe
  have hless := toNat_sub_one hne
  have hpos := toNat_ne_zero hne
  have hcount := h.count
  rcases flash_blinky_of_frame hframe with ⟨hlast', hspeed', hcount'⟩
  constructor
  · rw [flash_rx]
    exact h.rx
  · rw [flash_rotation]
    exact h.rotationSpeed
  · rw [flash_rotation]
    exact h.rotationLast
  · rw [flash_rotation]
    exact h.steps
  · rw [hspeed']
    exact h.blinkSpeed
  · exact hlast'
  · show _ + (l.blink.made + 1) = l.blink.count.toNat
    rw [hcount']
    omega
  · exact fun hzero => absurd hzero hspeed
  · rw [flash_aimless]
    exact h.aimless

/-- A roulette that slows down to speed 0 stops, and a jump keeps its speed. -/
theorem aim_speed_ne_zero (ms : UInt32) (random : Fin LED_COUNT)
    (h : s.aimless.style ≠ .off → s.aimless.speed ≠ 0)
    (hstyle : (aim cc s ms random).sketch.aimless.style ≠ .off) :
    (aim cc s ms random).sketch.aimless.speed ≠ 0 := by
  revert hstyle
  unfold aim
  cases hs : s.aimless.style with
  | off => simp [hs]
  | roulette =>
    have hne := h (by rw [hs]; decide)
    unfold spinRoulette
    dsimp only
    split_ifs <;> simp_all
  | jump =>
    have hne := h (by rw [hs]; decide)
    unfold jumpAround
    dsimp only
    split_ifs <;> simp_all

/-- A frame of the aimless animation is not recorded. -/
theorem Follows.aimed (h : Follows s l) (ms : UInt32) (random : Fin LED_COUNT)
    (hspeed : s.aimless.style ≠ .off → s.aimless.speed ≠ 0) :
    Follows (aim cc s ms random).sketch l := by
  have hnone : l.aimless ≠ some 0 := by
    rw [ne_eq, ← h.aimless]
    exact fun hzero => hspeed hzero.1 hzero.2
  constructor
  · rw [aim_rx]
    exact h.rx
  · rw [aim_rotation]
    exact h.rotationSpeed
  · rw [aim_rotation]
    exact h.rotationLast
  · rw [aim_rotation]
    exact h.steps
  · rw [aim_blinky]
    exact h.blinkSpeed
  · rw [aim_blinky]
    exact h.blinkLast
  · rw [aim_blinky]
    exact h.count
  · exact h.unmade
  · apply iff_of_false _ hnone
    exact fun hzero => aim_speed_ne_zero ms random hspeed hzero.1 hzero.2

/-- A safe iteration makes the frame that is recorded. -/
theorem Follows.animate (h : Follows s l) (hsafe : l.Safe i) :
    Follows (animate cc s i).sketch (l.record i) := by
  have hguard : Guarded cc s i := h.guarded_iff.mpr hsafe
  unfold Ledger.record
  split_ifs with hrotates hflashes
  · have hframe : (rotate cc s i.rotateMs).frame = true :=
      (rotate_frame_iff cc s hguard.rotate).mpr (h.rotateDue_iff.mpr hrotates)
    rw [animate_of_rotate hframe]
    exact h.rotated hsafe hrotates
  · rcases h.rotate_sketch cc hsafe hrotates with ⟨hsketch, hnone⟩
    have hflashDue : FlashDue cc s i :=
      (h.flashDue_iff_of_blink hsafe.blink hrotates).mpr hflashes
    have hframe : (flash cc (rotate cc s i.rotateMs).sketch i.flashMs).frame = true :=
      (flash_rotate_frame_iff cc s).mpr hflashDue
    have hspeed : l.blink.speed ≠ 0 :=
      h.blinkSpeed ▸ hguard.flash (fun hdue => hrotates (h.rotateDue_iff.mp hdue)) hflashDue.1
    rw [(animate_of_flash hnone hframe).1, hsketch]
    rw [hsketch] at hframe
    exact h.flashed hspeed hframe
  · rcases h.rotate_sketch cc hsafe hrotates with ⟨hsketch, hnone⟩
    have hnotDue : ¬ FlashDue cc s i := fun hdue =>
      hflashes ((h.flashDue_iff_of_blink hsafe.blink hrotates).mp hdue)
    have hframe : (flash cc (rotate cc s i.rotateMs).sketch i.flashMs).frame = false := by
      rw [← Bool.not_eq_true, flash_rotate_frame_iff]
      exact hnotDue
    rw [(animate_of_aim hnone hframe).1, hsketch]
    apply h.aimed
    exact hguard.aim (fun hdue => hrotates (h.rotateDue_iff.mp hdue)) hnotDue

/-! ## Runs -/

/-- In a run from `setup()` no divisor is zero exactly when the record of its
commands is safe in every iteration. -/
theorem divisors_ne_zero_iff (px : PixelStore) (cc : Compiler) (inputs : List Input) :
    (∀ o ∈ (sketch px cc).trace (setup px).1 inputs, ∀ d ∈ o.divisors, d ≠ 0) ↔
      (ledger cc).Always (fun l i => (l.ordered cc i).Safe i) Ledger.init inputs := by
  have hiteration (s : Sketch px) (i : Input) :
      (∀ d ∈ ((sketch px cc).out s i).divisors, d ≠ 0) ↔ Guarded cc (commanded cc s i) i :=
    animate_divisors_ne_zero_iff cc (commanded cc s i) i
  rw [Machine.forall_mem_trace_iff, Machine.always_congr hiteration]
  rw [← Machine.always_pair_fst (sketch px cc) (ledger cc) (p := ((setup px).1, Ledger.init)),
    ← Machine.always_pair_snd (sketch px cc) (ledger cc) (p := ((setup px).1, Ledger.init))]
  apply Machine.always_iff (fun p => Follows p.1 p.2)
  · intro p i hfollows
    exact hfollows.commanded.guarded_iff
  · intro p i hfollows hsafe
    exact hfollows.commanded.animate hsafe
  · exact follows_init

/-- A rotation of one step, and its end right behind the frame. -/
example :
    (ledger ⟨.indexFirst, id⟩).Always (fun l i => (l.ordered ⟨.indexFirst, id⟩ i).Safe i)
      Ledger.init
      [⟨true, ['R'.toUInt8, 100, 1, 'R'.toUInt8, 0, 0], 0, 0, 0, 0⟩, ⟨true, [], 10, 10, 10, 0⟩,
        ⟨true, [], 11, 11, 11, 0⟩, ⟨true, [], 12, 12, 12, 0⟩] := by
  decide

/-- Roulette with speed 0, right after `setup()`. -/
def rouletteZero : List Input :=
  [⟨true, ['G'.toUInt8, 0], 0, 0, 0, 0⟩, ⟨true, [], 0, 0, 0, 0⟩]

theorem rouletteZero_divides_by_zero :
    ¬ ∀ o ∈ (sketch ledStore ⟨.indexFirst, id⟩).trace (setup ledStore).1 rouletteZero,
      ∀ d ∈ o.divisors, d ≠ 0 := by
  decide

end ArduinoProjects.BleRgb
