import ArduinoProjects.BleRgb.Alone
import ArduinoProjects.BleRgb.Blink
import ArduinoProjects.Lib.Schedule

/-!
# A roulette that slows down

`spinRoulette` is to slow down step by step and to stop.  A frame at a count of
zero takes one from the speed and reloads the count with it, and a speed of zero
turns the roulette off.  But no frame counts down, so a count that is not zero
stays as it is, and the speed with it.

`Spinning` is the invariant of a roulette that never stops, and `stops_iff` says
that all of them are like that but one.
-/

namespace ArduinoProjects.BleRgb

variable {px : PixelStore} {cc : Compiler} {s : Sketch px} {i : Input}

/-! ## Roulette frames -/

variable (cc) in
/-- The iteration executes no command for the aimless animation. -/
def NoAimlessCommand (s : Sketch px) (i : Input) : Prop :=
  ∀ speed count, (nextCommand cc s i).1 ≠ some (.jump speed count) ∧
    (nextCommand cc s i).1 ≠ some (.roulette speed)

theorem commanded_aimless (h : NoAimlessCommand cc s i) :
    (commanded cc s i).aimless = s.aimless := by
  apply commanded_of_execute (P := fun t => t.aimless = s.aimless) (fun _ _ hs => hs) rfl
  intro c hc
  cases c with
  | jump speed count => exact absurd hc (h speed count).1
  | roulette speed => exact absurd hc (h speed 0).2
  | _ => rfl

variable (cc) in
/-- The iteration calls the aimless animation. -/
def Aims (s : Sketch px) (i : Input) : Prop :=
  rotateMove cc (commanded cc s i) i = none ∧ ¬ FlashDue cc (commanded cc s i) i

variable (cc) in
/-- The iteration makes a roulette frame. -/
def Spins (s : Sketch px) (i : Input) : Prop :=
  Aims cc s i ∧ (commanded cc s i).aimless.style = .roulette ∧
    Due (cc.interval (commanded cc s i).aimless.speed) i.aimMs
      (commanded cc s i).aimless.previousUpdateMs

/-- What a roulette frame does to the speed, the count and the style. -/
def Aimless.spun (a : Aimless) (currentMillis : UInt32) : Aimless :=
  let speed := if a.count = 0 then a.speed - 1 else a.speed
  let count := if a.count = 0 then .ofInt speed.toInt else a.count
  ⟨if speed = 0 then .off else a.style, currentMillis, speed, count⟩

theorem spinRoulette_aimless (cc : Compiler) (s : Sketch px) (ms : UInt32) :
    (spinRoulette cc s ms).sketch.aimless =
      if Due (cc.interval s.aimless.speed) ms s.aimless.previousUpdateMs then s.aimless.spun ms
      else s.aimless := by
  unfold spinRoulette
  by_cases hdue : Due (cc.interval s.aimless.speed) ms s.aimless.previousUpdateMs
  · dsimp only
    rw [if_pos hdue, if_pos hdue, Aimless.spun]
  · dsimp only
    rw [if_neg hdue, if_neg hdue]

/-- When the rotation and the blink make no frame, the aimless animation is
called. -/
theorem loop_of_aims (h : Aims cc s i) :
    (loop cc s i).1 =
      (aim cc (rotate cc (commanded cc s i) i.rotateMs).sketch i.aimMs i.random).sketch := by
  obtain ⟨hmove, hflash⟩ := h
  have hr : (rotate cc (commanded cc s i) i.rotateMs).frame = false := by
    rw [rotate_draws.1, hmove]
    rfl
  have hf : (flash cc (rotate cc (commanded cc s i) i.rotateMs).sketch i.flashMs).frame =
      false := by
    rw [← Bool.not_eq_true, flash_rotate_frame_iff]
    exact hflash
  exact (animate_of_aim hr hf).1

theorem aimless_of_not_aims (h : ¬ Aims cc s i) :
    (loop cc s i).1.aimless = (commanded cc s i).aimless := by
  show (animate cc (commanded cc s i) i).sketch.aimless = _
  cases hr : (rotate cc (commanded cc s i) i.rotateMs).frame with
  | true => rw [animate_of_rotate hr, rotate_aimless]
  | false =>
    have hf : (flash cc (rotate cc (commanded cc s i) i.rotateMs).sketch i.flashMs).frame =
        true := by
      rw [flash_rotate_frame_iff]
      by_contra hflash
      refine h ⟨?_, hflash⟩
      rw [rotate_draws.1] at hr
      simpa using hr
    rw [(animate_of_flash hr hf).1, flash_aimless, rotate_aimless]

/-- A roulette frame. -/
theorem aimless_of_spins (h : Spins cc s i) :
    (loop cc s i).1.aimless = (commanded cc s i).aimless.spun i.aimMs := by
  obtain ⟨haims, hstyle, hdue⟩ := h
  rw [loop_of_aims haims]
  unfold aim
  rw [rotate_aimless, hstyle]
  dsimp only
  rw [spinRoulette_aimless, rotate_aimless, if_pos hdue]

/-- An iteration without a roulette frame. -/
theorem aimless_of_not_spins (hjump : (commanded cc s i).aimless.style ≠ .jump)
    (h : ¬ Spins cc s i) : (loop cc s i).1.aimless = (commanded cc s i).aimless := by
  by_cases haims : Aims cc s i
  · rw [loop_of_aims haims]
    unfold aim
    rw [rotate_aimless]
    cases hstyle : (commanded cc s i).aimless.style with
    | off => exact rotate_aimless cc _ _
    | roulette =>
      have hdue : ¬ Due (cc.interval (commanded cc s i).aimless.speed) i.aimMs
          (commanded cc s i).aimless.previousUpdateMs := fun hdue => h ⟨haims, hstyle, hdue⟩
      dsimp only
      rw [spinRoulette_aimless, rotate_aimless, if_neg hdue]
    | jump => exact absurd hstyle hjump
  · exact aimless_of_not_aims haims

/-! ## A roulette that never stops -/

/-- The roulette is on, and its next frame does not stop it. -/
structure Spinning (a : Aimless) : Prop where
  style : a.style = .roulette
  speed : a.speed ≠ 0
  count : a.count = 0 → a.speed ≠ 1

theorem ofInt_toInt_ne_zero {speed : Int8} (h : speed ≠ 0) : UInt8.ofInt speed.toInt ≠ 0 := by
  intro hzero
  have hnat : (UInt8.ofNat (speed.toInt % 2 ^ 8).toNat).toNat = 0 := congrArg UInt8.toNat hzero
  rw [UInt8.toNat_ofNat'] at hnat
  have hlt := speed.toInt_lt
  have hle := speed.le_toInt
  have hint : speed.toInt = 0 := by omega
  exact h (Int8.toInt_inj.mp hint)

/-- A frame at a count of zero reloads the count, and no other frame changes
it. -/
theorem Spinning.spun {a : Aimless} (h : Spinning a) (ms : UInt32) : Spinning (a.spun ms) := by
  unfold Aimless.spun
  dsimp only
  by_cases hcount : a.count = 0
  · rw [if_pos hcount, if_pos hcount]
    have hspeed : a.speed - 1 ≠ 0 := by
      intro hzero
      have hone := Int8.sub_add_cancel a.speed 1
      rw [hzero, Int8.zero_add] at hone
      exact h.count hcount hone.symm
    exact ⟨(if_neg hspeed).trans h.style, hspeed,
      fun hreload => absurd hreload (ofInt_toInt_ne_zero hspeed)⟩
  · rw [if_neg hcount, if_neg hcount]
    exact ⟨(if_neg h.speed).trans h.style, h.speed, fun hzero => absurd hzero hcount⟩

theorem Spinning.loop (hno : NoAimlessCommand cc s i) (h : Spinning s.aimless) :
    Spinning (BleRgb.loop cc s i).1.aimless := by
  have hcommanded := commanded_aimless hno
  by_cases hspins : Spins cc s i
  · rw [aimless_of_spins hspins, hcommanded]
    exact h.spun _
  · rw [aimless_of_not_spins _ hspins, hcommanded]
    · exact h
    · rw [hcommanded, h.style]
      decide

/-! ## Schedules -/

variable {schedule : Nat → Input}

/-- No iteration of the schedule executes a command for the aimless
animation. -/
def NoAimlessCommands (cc : Compiler) (s : Sketch px) (schedule : Nat → Input) : Prop :=
  ∀ k, NoAimlessCommand cc ((sketch px cc).after s schedule k) (schedule k)

/-- The roulette keeps making frames until it is off. -/
def KeepsSpinning (cc : Compiler) (s : Sketch px) (schedule : Nat → Input) : Prop :=
  ∀ k, ((sketch px cc).after s schedule k).aimless.style = .roulette →
    ∃ j, k ≤ j ∧ Spins cc ((sketch px cc).after s schedule j) (schedule j)

/-- The intervals before the roulette frames never decrease, and at last the
roulette is off. -/
structure Stops (cc : Compiler) (s : Sketch px) (schedule : Nat → Input) : Prop where
  slows : ∀ j k, j ≤ k → Spins cc ((sketch px cc).after s schedule j) (schedule j) →
    Spins cc ((sketch px cc).after s schedule k) (schedule k) →
      cc.interval ((sketch px cc).after s schedule j).aimless.speed ≤
        cc.interval ((sketch px cc).after s schedule k).aimless.speed
  off : ∃ N, ∀ k, N ≤ k → ((sketch px cc).after s schedule k).aimless.style = .off

theorem after_spinning (hno : NoAimlessCommands cc s schedule) (h : Spinning s.aimless) (k : Nat) :
    Spinning ((sketch px cc).after s schedule k).aimless := by
  induction k with
  | zero => exact h
  | succ k ih =>
    rw [Machine.after_succ]
    exact ih.loop (hno k)

/-- A roulette that is off stays off. -/
theorem after_off (hno : NoAimlessCommands cc s schedule) {j k : Nat} (hjk : j ≤ k)
    (h : ((sketch px cc).after s schedule j).aimless.style = .off) :
    ((sketch px cc).after s schedule k).aimless.style = .off := by
  induction k, hjk using Nat.le_induction with
  | base => exact h
  | succ k _ ih =>
    have hcommanded := commanded_aimless (hno k)
    have hspins : ¬ Spins cc ((sketch px cc).after s schedule k) (schedule k) := by
      rintro ⟨_, hstyle, _⟩
      rw [hcommanded, ih] at hstyle
      cases hstyle
    have hnext := aimless_of_not_spins (by rw [hcommanded, ih]; decide) hspins
    rw [Machine.after_succ]
    exact (congrArg Aimless.style (hnext.trans hcommanded)).trans ih

/-- The roulette has speed 1 and a count of zero. -/
structure LastSpin (a : Aimless) : Prop where
  style : a.style = .roulette
  speed : a.speed = 1
  count : a.count = 0

theorem LastSpin.spun {a : Aimless} (h : LastSpin a) (ms : UInt32) :
    (a.spun ms).style = .off := by
  unfold Aimless.spun
  rw [h.speed, h.count]
  rfl

/-- The last frame turns the roulette off. -/
theorem LastSpin.loop_of_spins (hno : NoAimlessCommand cc s i) (h : LastSpin s.aimless)
    (hspins : Spins cc s i) : (BleRgb.loop cc s i).1.aimless.style = .off := by
  rw [aimless_of_spins hspins, commanded_aimless hno]
  exact h.spun _

/-- Before its last frame the roulette stays as it is. -/
theorem after_lastSpin (hno : NoAimlessCommands cc s schedule) (h : LastSpin s.aimless) (k : Nat) :
    LastSpin ((sketch px cc).after s schedule k).aimless ∨
      ((sketch px cc).after s schedule k).aimless.style = .off := by
  induction k with
  | zero => exact .inl h
  | succ k ih =>
    rcases ih with hlast | hoff
    · have hcommanded := commanded_aimless (hno k)
      rw [Machine.after_succ]
      by_cases hspins : Spins cc ((sketch px cc).after s schedule k) (schedule k)
      · exact .inr (hlast.loop_of_spins (hno k) hspins)
      · have hnext := aimless_of_not_spins (by rw [hcommanded, hlast.style]; decide) hspins
        left
        show LastSpin (loop cc _ _).1.aimless
        rw [hnext, hcommanded]
        exact hlast
    · exact .inr (after_off hno (Nat.le_succ k) hoff)

/-- A roulette that is about to make its last frame stops. -/
theorem LastSpin.stops (h : LastSpin s.aimless) (hno : NoAimlessCommands cc s schedule)
    (hspins : KeepsSpinning cc s schedule) : Stops cc s schedule := by
  have hspin {k : Nat} (hk : Spins cc ((sketch px cc).after s schedule k) (schedule k)) :
      ((sketch px cc).after s schedule (k + 1)).aimless.style = .off := by
    have hstyle := hk.2.1
    rw [commanded_aimless (hno k)] at hstyle
    rcases after_lastSpin hno h k with hlast | hoff
    · rw [Machine.after_succ]
      exact hlast.loop_of_spins (hno k) hk
    · rw [hoff] at hstyle
      cases hstyle
  constructor
  · intro j k hjk hj hk
    rcases Nat.eq_or_lt_of_le hjk with rfl | hlt
    · exact UInt32.le_refl _
    · -- a second frame would find the roulette off
      have hoff := after_off hno hlt (hspin hj)
      have hstyle := hk.2.1
      rw [commanded_aimless (hno k), hoff] at hstyle
      cases hstyle
  · obtain ⟨j, _, hj⟩ := hspins 0 h.style
    exact ⟨j + 1, fun k hk => after_off hno hk (hspin hj)⟩

/-- After `G` with a speed that is not zero the roulette slows down and stops,
on every schedule on which it keeps being due, exactly when the speed is 1 and
the count that an earlier command has left is zero. -/
theorem stops_iff (cc : Compiler) (s : Sketch px) (speed : UInt8) (schedule : Nat → Input)
    (hspeed : speed ≠ 0)
    (hno : NoAimlessCommands cc ((Command.roulette speed.toNat).execute s) schedule)
    (hspins : KeepsSpinning cc ((Command.roulette speed.toNat).execute s) schedule) :
    Stops cc ((Command.roulette speed.toNat).execute s) schedule ↔
      s.aimless.count = 0 ∧ speed = 1 := by
  have hone : Int8.ofInt (speed.toNat : Int) = 1 ↔ speed = 1 := by
    constructor
    · intro h
      have hbits := congrArg Int8.toBitVec h
      rw [Int8.toBitVec_ofInt] at hbits
      exact UInt8.toBitVec_inj.mp (by simpa using hbits)
    · rintro rfl
      rfl
  constructor
  · rintro ⟨_, N, hoff⟩
    by_contra hlast
    have hspinning : Spinning ((Command.roulette speed.toNat).execute s).aimless :=
      ⟨rfl, speed_ne_zero hspeed, fun hcount hspeed' => hlast ⟨hcount, hone.mp hspeed'⟩⟩
    have hstyle := (after_spinning hno hspinning N).style
    rw [hoff N le_rfl] at hstyle
    cases hstyle
  · rintro ⟨hcount, hspeed'⟩
    have hlast : LastSpin ((Command.roulette speed.toNat).execute s).aimless :=
      ⟨rfl, hone.mpr hspeed', hcount⟩
    exact hlast.stops hno hspins

/-! ## Two roulettes from the start -/

/-- An iteration every second, with the blink not due. -/
def aimEverySecond (k : Nat) : Input := ⟨false, [], 0, 0, .ofNat (1000 * (k + 1)), 0⟩

/-- The sketch after `G`, right after `setup()`. -/
def rouletteFrom (speed : UInt8) : Sketch ledStore :=
  (Command.roulette speed.toNat).execute (setup ledStore).1

theorem aimEverySecond_noAimlessCommands (cc : Compiler) (s : Sketch px) :
    NoAimlessCommands cc s aimEverySecond := by
  intro k speed count
  have hnone : (nextCommand cc ((sketch px cc).after s aimEverySecond k)
      (aimEverySecond k)).1 = none := rfl
  rw [hnone]
  exact ⟨nofun, nofun⟩

/-- A roulette of speed 1 that starts with a count of zero. -/
theorem rouletteFrom_one_keepsSpinning :
    KeepsSpinning ⟨.indexFirst, id⟩ (rouletteFrom 1) aimEverySecond := by
  intro k hstyle
  cases k with
  | zero =>
    refine ⟨0, le_rfl, ⟨?_, ?_⟩, ?_, ?_⟩
    · decide
    · unfold FlashDue
      decide
    · decide
    · decide
  | succ k =>
    have hoff := after_off (aimEverySecond_noAimlessCommands ⟨.indexFirst, id⟩ (rouletteFrom 1))
      (Nat.le_add_left 1 k) (by decide)
    rw [hoff] at hstyle
    cases hstyle

/-- What the schedule keeps from a roulette of speed 2: it makes a frame every
second, and after the first one its speed and its count are 1. -/
structure SpinsEverySecond (k : Nat) (s : Sketch ledStore) : Prop where
  stopped : s.rotation.speed = 0
  blinky : s.blinky = (setup ledStore).1.blinky
  style : s.aimless.style = .roulette
  previous : s.aimless.previousUpdateMs = .ofNat (1000 * k)
  spin : s.aimless.speed = 2 ∧ s.aimless.count = 0 ∨ s.aimless.speed = 1 ∧ s.aimless.count = 1

theorem SpinsEverySecond.spins {k : Nat} {s : Sketch ledStore} (h : SpinsEverySecond k s) :
    Spins ⟨.indexFirst, id⟩ s (aimEverySecond k) := by
  have hno : NoCommand ⟨.indexFirst, id⟩ s (aimEverySecond k) := rfl
  obtain ⟨rx, hcommanded⟩ := commanded_of_noCommand hno
  have hpassed : (aimEverySecond k).aimMs - s.aimless.previousUpdateMs = 1000 := by
    rw [h.previous]
    show UInt32.ofNat (1000 * (k + 1)) - UInt32.ofNat (1000 * k) = 1000
    rw [Nat.mul_succ, UInt32.ofNat_add, UInt32.add_comm, UInt32.add_sub_cancel]
    rfl
  rw [Spins, Aims, FlashDue, hcommanded]
  refine ⟨⟨?_, fun hflash => ?_⟩, h.style, ?_⟩
  · unfold rotateMove
    exact if_neg fun hrun => hrun.1 h.stopped
  · have hdue : Due _ 0 s.blinky.previousUpdateMs := hflash.2
    dsimp only at hdue
    rw [h.blinky] at hdue
    exact absurd hdue (by decide)
  · show _ ≤ (aimEverySecond k).aimMs - s.aimless.previousUpdateMs
    rw [hpassed]
    dsimp only
    rcases h.spin with ⟨hspeed, _⟩ | ⟨hspeed, _⟩
    · rw [hspeed]
      decide
    · rw [hspeed]
      decide

theorem SpinsEverySecond.next {k : Nat} {s : Sketch ledStore} (h : SpinsEverySecond k s) :
    SpinsEverySecond (k + 1) (loop ⟨.indexFirst, id⟩ s (aimEverySecond k)).1 := by
  have hno : NoCommand ⟨.indexFirst, id⟩ s (aimEverySecond k) := rfl
  obtain ⟨rx, hcommanded⟩ := commanded_of_noCommand hno
  have hrotate := rotate_of_stopped (s := commanded ⟨.indexFirst, id⟩ s (aimEverySecond k))
    ⟨.indexFirst, id⟩ (aimEverySecond k).rotateMs (by rw [hcommanded]; exact h.stopped)
  have hspun : s.aimless.spun (aimEverySecond k).aimMs =
      ⟨.roulette, (aimEverySecond k).aimMs, 1, 1⟩ := by
    unfold Aimless.spun
    rcases h.spin with ⟨hspeed, hcount⟩ | ⟨hspeed, hcount⟩
    · rw [hspeed, hcount, h.style]
      rfl
    · rw [hspeed, hcount, h.style]
      rfl
  have haimless := aimless_of_spins h.spins
  rw [hcommanded, hspun] at haimless
  have hloop := loop_of_aims h.spins.1
  refine ⟨?_, ?_, by rw [haimless], by rw [haimless]; rfl,
    .inr ⟨by rw [haimless], by rw [haimless]⟩⟩
  · rw [hloop, aim_rotation, hrotate, hcommanded]
    exact h.stopped
  · rw [hloop, aim_blinky, rotate_blinky, hcommanded]
    exact h.blinky

theorem rouletteFrom_two_spins (k : Nat) :
    SpinsEverySecond k
      ((sketch ledStore ⟨.indexFirst, id⟩).after (rouletteFrom 2) aimEverySecond k) := by
  induction k with
  | zero => exact ⟨rfl, rfl, rfl, rfl, .inl ⟨rfl, rfl⟩⟩
  | succ k ih =>
    rw [Machine.after_succ]
    exact ih.next

theorem rouletteFrom_one_stops :
    Stops ⟨.indexFirst, id⟩ (rouletteFrom 1) aimEverySecond ↔
      (setup ledStore).1.aimless.count = 0 ∧ (1 : UInt8) = 1 :=
  stops_iff ⟨.indexFirst, id⟩ (setup ledStore).1 1 aimEverySecond (by decide)
    (aimEverySecond_noAimlessCommands _ _) rouletteFrom_one_keepsSpinning

/-- A roulette of speed 2 makes a frame every second and does not stop. -/
theorem rouletteFrom_two_not_stops :
    KeepsSpinning ⟨.indexFirst, id⟩ (rouletteFrom 2) aimEverySecond ∧
      ¬ Stops ⟨.indexFirst, id⟩ (rouletteFrom 2) aimEverySecond := by
  refine ⟨fun k _ => ⟨k, le_rfl, (rouletteFrom_two_spins k).spins⟩, ?_⟩
  rintro ⟨_, N, hoff⟩
  have hstyle := (rouletteFrom_two_spins N).style
  rw [hoff N le_rfl] at hstyle
  cases hstyle

end ArduinoProjects.BleRgb
