import ArduinoProjects.BleRgb.Concurrent
import ArduinoProjects.Lib.Clock

/-!
# The pace of the animations

Each of the four animations compares the time since its last frame with
`1000 / speed`.  Here `millis()` is a clock that wraps, and the time of an
iteration is a true one.

`tracked` runs the sketch and remembers when each animation made its last frame.
Three of the animations take the absolute value of the speed first, and are
paced for every speed.  `flash()` does not, so a negative speed becomes an
interval of almost 50 days.
-/

namespace ArduinoProjects.BleRgb

open Clock

variable {px : PixelStore}

/-! ## Runs in true time -/

/-- What one iteration reads, with the true times of its calls of `millis()`. -/
structure Timed where
  connected : Bool
  received : List UInt8
  rotateTime : Nat
  flashTime : Nat
  aimTime : Nat
  random : Fin LED_COUNT

def Timed.input (i : Timed) : Input :=
  ⟨i.connected, i.received, Clock.read i.rotateTime, Clock.read i.flashTime,
    Clock.read i.aimTime, i.random⟩

/-- The sketch, the time of its last iteration, and the times of the last frames
of the rotation, the blink and the aimless animation. -/
structure Tracked (px : PixelStore) where
  sketch : Sketch px
  now : Nat
  rotated : Option Nat
  blinked : Option Nat
  aimed : Option Nat

/-- The sketch before any frame is remembered. -/
def untracked (s : Sketch px) : Tracked px := ⟨s, 0, none, none, none⟩

def tracked (px : PixelStore) (cc : Compiler) : Machine (Tracked px) Timed Unit where
  step t i :=
    ({ sketch := (loop cc t.sketch i.input).1
       now := i.aimTime
       rotated := if rotates cc t.sketch i.input then some i.rotateTime else t.rotated
       blinked := if blinks cc t.sketch i.input then some i.flashTime else t.blinked
       aimed := if aims cc t.sketch i.input then some i.aimTime else t.aimed }, ())

/-- Time does not go back. -/
structure InOrder (t : Tracked px) (i : Timed) : Prop where
  rotate : t.now ≤ i.rotateTime
  flash : i.rotateTime ≤ i.flashTime
  aim : i.flashTime ≤ i.aimTime

/-! ## Calls -/

/-- The four functions that draw the frames. -/
inductive Drawing where
  | rotate
  | flash
  | spinRoulette
  | jumpAround

/-- What one of the functions does in an iteration: whether it is called with a
frame left to draw and a speed that is not zero, the speed, the time, the time of
the last frame, and whether there is a frame. -/
structure Call where
  called : Prop
  speed : Int8
  time : Nat
  last : Option Nat
  frame : Bool

def call (cc : Compiler) (t : Tracked px) (i : Timed) : Drawing → Call
  | .rotate =>
    let c := commanded cc t.sketch i.input
    ⟨c.rotation.speed ≠ 0 ∧ c.rotation.steps ≠ 0, c.rotation.speed, i.rotateTime, t.rotated,
      rotates cc t.sketch i.input⟩
  | .flash =>
    let c := commanded cc t.sketch i.input
    ⟨¬ RotationDue cc t.sketch i.input ∧ c.blinky.count ≠ 0 ∧ c.blinky.speed ≠ 0,
      c.blinky.speed, i.flashTime, t.blinked, blinks cc t.sketch i.input⟩
  | .spinRoulette =>
    let c := commanded cc t.sketch i.input
    ⟨¬ RotationDue cc t.sketch i.input ∧ ¬ BlinkDue cc t.sketch i.input ∧
        c.aimless.style = .roulette ∧ c.aimless.speed ≠ 0,
      c.aimless.speed, i.aimTime, t.aimed, aims cc t.sketch i.input⟩
  | .jumpAround =>
    let c := commanded cc t.sketch i.input
    ⟨¬ RotationDue cc t.sketch i.input ∧ ¬ BlinkDue cc t.sketch i.input ∧
        c.aimless.style = .jump ∧ c.aimless.speed ≠ 0,
      c.aimless.speed, i.aimTime, t.aimed, aims cc t.sketch i.input⟩

/-- The milliseconds between two frames. -/
def Call.interval (c : Call) : Nat := 1000 / c.speed.toInt.natAbs

/-- The call is not early, and is in time until the clock has gone round. -/
def Call.KeepsPace (c : Call) : Prop :=
  c.called → ∀ p, c.last = some p → Paced c.interval (c.time - p) (c.frame = true)

/-- A call with a negative speed comes before the interval has passed, or so
long after it that the negative interval has passed as well. -/
def Call.AvoidsNegative (c : Call) : Prop :=
  c.called → ∀ p, c.last = some p → c.speed.toInt < 0 →
    c.time - p < c.interval ∨ 2 ^ 32 - c.interval ≤ c.time - p

/-! ## Clocks of the animations -/

variable {cc : Compiler} {s : Sketch px} {i : Input}

/-- The commands do not touch the clocks. -/
theorem commanded_previous (cc : Compiler) (s : Sketch px) (i : Input) :
    (commanded cc s i).rotation.previousUpdateMs = s.rotation.previousUpdateMs ∧
      (commanded cc s i).blinky.previousUpdateMs = s.blinky.previousUpdateMs ∧
      (commanded cc s i).aimless.previousUpdateMs = s.aimless.previousUpdateMs := by
  apply commanded_of_execute
    (P := fun t => t.rotation.previousUpdateMs = s.rotation.previousUpdateMs ∧
      t.blinky.previousUpdateMs = s.blinky.previousUpdateMs ∧
      t.aimless.previousUpdateMs = s.aimless.previousUpdateMs)
    (fun _ _ hs => hs) ⟨rfl, rfl, rfl⟩
  intro c _
  cases c <;> exact ⟨rfl, rfl, rfl⟩

theorem loop_rotation_previous (cc : Compiler) (s : Sketch px) (i : Input) :
    (loop cc s i).1.rotation.previousUpdateMs =
      if rotates cc s i then i.rotateMs else s.rotation.previousUpdateMs := by
  rw [loop_rotation, rotates, ← (commanded_previous cc s i).1]
  unfold rotate
  dsimp only
  split_ifs <;> simp_all

theorem loop_blinky_previous (cc : Compiler) (s : Sketch px) (i : Input) :
    (loop cc s i).1.blinky.previousUpdateMs =
      if blinks cc s i then i.flashMs else s.blinky.previousUpdateMs := by
  cases hb : blinks cc s i with
  | true => exact (blinky_of_blinks hb).1
  | false =>
    rw [loop_of_not_blinks hb, (commanded_previous cc s i).2.1]
    rfl

theorem rotateMove_ne_none_iff (h : s.rotation.steps ≠ 0) :
    rotateMove cc s i ≠ none ↔
      s.rotation.speed ≠ 0 ∧
        Due (cc.interval s.rotation.speed) i.rotateMs s.rotation.previousUpdateMs := by
  unfold rotateMove
  rw [if_neg h]
  exact ite_ne_right_iff.trans (and_iff_left (Option.some_ne_none _))

theorem aim_previous_of_due (h : aimMove cc s i ≠ none) :
    (aim cc s i.aimMs i.random).sketch.aimless.previousUpdateMs = i.aimMs := by
  have hdue : Due (cc.interval s.aimless.speed) i.aimMs s.aimless.previousUpdateMs := by
    by_contra hnot
    exact h (if_neg hnot)
  unfold aim
  cases hstyle : s.aimless.style with
  | off =>
    rw [aimMove, if_pos hdue, hstyle] at h
    exact absurd rfl h
  | roulette =>
    dsimp only
    rw [spinRoulette_aimless, if_pos hdue]
    rfl
  | jump =>
    dsimp only
    rw [jumpAround_aimless, if_pos hdue]

theorem loop_aimless_previous (cc : Compiler) (s : Sketch px) (i : Input) :
    (loop cc s i).1.aimless.previousUpdateMs =
      if aims cc s i then i.aimMs else s.aimless.previousUpdateMs := by
  cases ha : aims cc s i with
  | true =>
    obtain ⟨hr, hb, hdue⟩ := aims_iff_due.mp ha
    rw [loop_of_aims ⟨not_not.mp hr, hb⟩]
    exact aim_previous_of_due (by rw [aimMove_rotate]; exact hdue)
  | false =>
    rw [aimless_of_not_aims_frame ha, (commanded_previous cc s i).2.2]
    rfl

/-! ## Tracking -/

/-- A clock of the sketch holds the reading of a remembered time. -/
def Remembers (now : Nat) (previousUpdateMs : UInt32) (last : Option Nat) : Prop :=
  ∀ p, last = some p → p ≤ now ∧ previousUpdateMs = Clock.read p

theorem Remembers.update {now later time : Nat} {previousUpdateMs : UInt32} {last : Option Nat}
    (h : Remembers now previousUpdateMs last) (hnow : now ≤ later) (htime : time ≤ later)
    (frame : Bool) :
    Remembers later (if frame then Clock.read time else previousUpdateMs)
      (if frame then some time else last) := by
  intro p hp
  cases frame with
  | true =>
    obtain rfl : time = p := Option.some.inj hp
    exact ⟨htime, rfl⟩
  | false => exact ⟨(h p hp).1.trans hnow, (h p hp).2⟩

/-- The clocks of the sketch hold the readings of the last frames. -/
structure Tracks (t : Tracked px) : Prop where
  rotated : Remembers t.now t.sketch.rotation.previousUpdateMs t.rotated
  blinked : Remembers t.now t.sketch.blinky.previousUpdateMs t.blinked
  aimed : Remembers t.now t.sketch.aimless.previousUpdateMs t.aimed

theorem Tracks.step {t : Tracked px} {i : Timed} (h : Tracks t) (horder : InOrder t i) :
    Tracks ((tracked px cc).next t i) := by
  have hflash : i.rotateTime ≤ i.aimTime := horder.flash.trans horder.aim
  have hnow : t.now ≤ i.aimTime := horder.rotate.trans hflash
  refine ⟨?_, ?_, ?_⟩
  · have hprevious := loop_rotation_previous cc t.sketch i.input
    show Remembers i.aimTime (loop cc t.sketch i.input).1.rotation.previousUpdateMs _
    rw [hprevious]
    exact h.rotated.update hnow hflash _
  · have hprevious := loop_blinky_previous cc t.sketch i.input
    show Remembers i.aimTime (loop cc t.sketch i.input).1.blinky.previousUpdateMs _
    rw [hprevious]
    exact h.blinked.update hnow horder.aim _
  · have hprevious := loop_aimless_previous cc t.sketch i.input
    show Remembers i.aimTime (loop cc t.sketch i.input).1.aimless.previousUpdateMs _
    rw [hprevious]
    exact h.aimed.update hnow le_rfl _

/-! ## Pace -/

theorem natAbs_pos {speed : Int8} (h : speed ≠ 0) : 0 < speed.toInt.natAbs := by
  have hne := (abs_toInt_ne_zero speed).mpr h
  have hzero : speed.toInt ≠ 0 := abs_ne_zero.mp hne
  omega

theorem paced_of_due {speed : Int8} {p time : Nat} (hle : p ≤ time) :
    Paced (1000 / speed.toInt.natAbs) (time - p)
      (Due (intervalOf speed) (Clock.read time) (Clock.read p)) := by
  have hquotient : 1000 / speed.toInt.natAbs ≤ 1000 := Nat.div_le_self _ _
  exact paced_of_interval hle (by omega)

section Step

variable {t : Tracked px} {i : Timed}

theorem keepsPace_rotate (h : Tracks t) (horder : InOrder t i) :
    (call cc t i .rotate).KeepsPace := by
  rintro ⟨hspeed, hsteps⟩ p hp
  obtain ⟨hle, hprevious⟩ := h.rotated p hp
  have hframe : rotates cc t.sketch i.input = true ↔
      Due (intervalOf (commanded cc t.sketch i.input).rotation.speed) (Clock.read i.rotateTime)
        (Clock.read p) := by
    rw [rotates_iff, RotationDue, rotateMove_ne_none_iff hsteps, and_iff_right hspeed,
      cc.interval_eq hspeed, (commanded_previous cc t.sketch i.input).1, hprevious]
    rfl
  show Paced _ (i.rotateTime - p) (rotates cc t.sketch i.input = true)
  rw [hframe]
  exact paced_of_due (hle.trans horder.rotate)

/-- The two aimless animations. -/
theorem paced_aims (h : Tracks t) (horder : InOrder t i)
    (hcalled : ¬ RotationDue cc t.sketch i.input ∧ ¬ BlinkDue cc t.sketch i.input)
    (hstyle : (commanded cc t.sketch i.input).aimless.style ≠ .off)
    (hspeed : (commanded cc t.sketch i.input).aimless.speed ≠ 0) {p : Nat}
    (hp : t.aimed = some p) :
    Paced (1000 / (commanded cc t.sketch i.input).aimless.speed.toInt.natAbs) (i.aimTime - p)
      (aims cc t.sketch i.input = true) := by
  obtain ⟨hle, hprevious⟩ := h.aimed p hp
  have hframe : aims cc t.sketch i.input = true ↔
      Due (intervalOf (commanded cc t.sketch i.input).aimless.speed) (Clock.read i.aimTime)
        (Clock.read p) := by
    rw [aims_iff_due, and_iff_right hcalled.1, and_iff_right hcalled.2, AimlessDue,
      aimMove_ne_none_iff hstyle, cc.interval_eq hspeed,
      (commanded_previous cc t.sketch i.input).2.2, hprevious]
    rfl
  rw [hframe]
  exact paced_of_due (hle.trans (horder.rotate.trans (horder.flash.trans horder.aim)))

theorem keepsPace_aimless (h : Tracks t) (horder : InOrder t i) :
    (call cc t i .spinRoulette).KeepsPace ∧ (call cc t i .jumpAround).KeepsPace := by
  constructor
  · rintro ⟨hr, hb, hstyle, hspeed⟩ p hp
    exact paced_aims h horder ⟨hr, hb⟩ (by rw [hstyle]; decide) hspeed hp
  · rintro ⟨hr, hb, hstyle, hspeed⟩ p hp
    exact paced_aims h horder ⟨hr, hb⟩ (by rw [hstyle]; decide) hspeed hp

/-- The blink. -/
theorem keepsPace_flash_iff (h : Tracks t) (horder : InOrder t i) :
    (call cc t i .flash).KeepsPace ↔ (call cc t i .flash).AvoidsNegative := by
  have hpaced (hcalled : (call cc t i .flash).called) {p : Nat} (hp : t.blinked = some p) :
      Paced (call cc t i .flash).interval (i.flashTime - p) (blinks cc t.sketch i.input = true) ↔
        ((call cc t i .flash).speed.toInt < 0 → i.flashTime - p < (call cc t i .flash).interval ∨
          2 ^ 32 - (call cc t i .flash).interval ≤ i.flashTime - p) := by
    obtain ⟨hr, hcount, hspeed⟩ := hcalled
    obtain ⟨hle, hprevious⟩ := h.blinked p hp
    have hle' := hle.trans (horder.rotate.trans horder.flash)
    have hframe : blinks cc t.sketch i.input = true ↔
        Due (cc.blinkInterval (commanded cc t.sketch i.input).blinky.speed)
          (Clock.read i.flashTime) (Clock.read p) := by
      rw [blinks_iff_due, and_iff_right hr, BlinkDue, FlashDue, and_iff_right hcount,
        (commanded_previous cc t.sketch i.input).2.1, hprevious]
      rfl
    rw [hframe, cc.blinkInterval_eq hspeed, blinkIntervalOf]
    split_ifs with hneg
    · have hbound := natAbs_toInt_le (commanded cc t.sketch i.input).blinky.speed
      have hpos := Nat.div_pos (by omega : _ ≤ 1000) (natAbs_pos hspeed)
      have hquotient : 1000 / (commanded cc t.sketch i.input).blinky.speed.toInt.natAbs ≤ 1000 :=
        Nat.div_le_self _ _
      exact (paced_iff_of_negative hle' hpos (by omega)).trans
        ⟨fun hwait _ => hwait, fun hwait => hwait hneg⟩
    · exact iff_of_true (paced_of_due hle') fun hneg' => absurd hneg' hneg
  constructor
  · intro hpace hcalled p hp
    exact (hpaced hcalled hp).mp (hpace hcalled p hp)
  · intro havoids hcalled p hp
    exact (hpaced hcalled hp).mpr (havoids hcalled p hp)

end Step

/-- In every run in which time does not go back all four animations keep their
pace exactly when no call of `flash()` with a negative speed comes after the
interval and before the negative interval have passed. -/
theorem keepsPace_iff (cc : Compiler) (s : Sketch px) (inputs : List Timed)
    (horder : (tracked px cc).Always InOrder (untracked s) inputs) :
    (tracked px cc).Always (fun t i => ∀ drawing, (call cc t i drawing).KeepsPace)
        (untracked s) inputs ↔
      (tracked px cc).Always (fun t i => (call cc t i .flash).AvoidsNegative) (untracked s)
        inputs := by
  refine Machine.always_iff_of_guarded Tracks (fun t i h horder => ?_)
    (fun t i h horder _ => h.step horder) ⟨nofun, nofun, nofun⟩ horder
  have hspin : (call cc t i .spinRoulette).KeepsPace := (keepsPace_aimless h horder).1
  have hjump : (call cc t i .jumpAround).KeepsPace := (keepsPace_aimless h horder).2
  rw [← keepsPace_flash_iff h horder]
  constructor
  · exact fun hall => hall .flash
  · intro hflash drawing
    cases drawing with
    | rotate => exact keepsPace_rotate h horder
    | flash => exact hflash
    | spinRoulette => exact hspin
    | jumpAround => exact hjump

/-! ## A negative speed -/

/-- An iteration while connected, at one time. -/
def timed (received : List UInt8) (time : Nat) : Timed := ⟨true, received, time, time, time, 0⟩

/-- Two blink frames of `setup()`. -/
theorem keepsPace_setup :
    (tracked ledStore ⟨.indexFirst, id⟩).Always
        (fun t i => ∀ drawing, (call ⟨.indexFirst, id⟩ t i drawing).KeepsPace)
        (untracked (setup ledStore).1) [timed [] 1000, timed [] 2000] ↔
      (tracked ledStore ⟨.indexFirst, id⟩).Always
        (fun t i => (call ⟨.indexFirst, id⟩ t i .flash).AvoidsNegative)
        (untracked (setup ledStore).1) [timed [] 1000, timed [] 2000] :=
  keepsPace_iff ⟨.indexFirst, id⟩ (setup ledStore).1 [timed [] 1000, timed [] 2000]
    ⟨⟨by decide, by decide, by decide⟩, ⟨by decide, by decide, by decide⟩, trivial⟩

/-- `B` with speed -1 and count 3, a blink frame as late as its interval asks
for, and a call two seconds later. -/
def negativeBlink : List Timed :=
  [timed ['B'.toUInt8, 255, 3] 0, timed [] (2 ^ 32 - 1000), timed [] (2 ^ 32 + 1000)]

/-- The last call makes no frame, although a second has passed. -/
theorem negativeBlink_not_keepsPace :
    ¬ (tracked ledStore ⟨.indexFirst, id⟩).Always
      (fun t i => ∀ drawing, (call ⟨.indexFirst, id⟩ t i drawing).KeepsPace)
      (untracked (setup ledStore).1) negativeBlink := by
  rintro ⟨_, _, hlast, _⟩
  have hcalled : (call ⟨.indexFirst, id⟩
      ((tracked ledStore ⟨.indexFirst, id⟩).run (untracked (setup ledStore).1)
        [timed ['B'.toUInt8, 255, 3] 0, timed [] (2 ^ 32 - 1000)])
      (timed [] (2 ^ 32 + 1000)) .flash).called :=
    ⟨by unfold RotationDue; decide, by decide, by decide⟩
  have hpace := hlast .flash hcalled (2 ^ 32 - 1000) (by decide)
  exact absurd (hpace.after (by decide) (by decide)) (by decide)

end ArduinoProjects.BleRgb
