import ArduinoProjects.Timer.Basic

/-!
# The display of the timer agrees with its state

The minutes left are kept in three places: in `secondsRemaining`, in the
position of the encoder and in the pattern of the ring.  The stopped branch
derives the seconds from the position, and the running branch derives the
position from the seconds.

`InStep` is the invariant that ties the first two together.  `loop_inStep`
shows that every iteration keeps it, whatever the knob, the button and the
clock did.  `loop_showsMinutes` adds the ring, which the last statement of
`loop()` draws.
-/

namespace ArduinoProjects.Timer

/-- The seconds and the position agree, and a running timer has time left. -/
structure InStep (t : Timer) : Prop where
  range : t.ringcoder.range = 16
  nonneg : 0 ≤ t.secondsRemaining
  le_max : t.secondsRemaining ≤ 900
  running : t.timerRunning = true → 0 < t.secondsRemaining
  position : t.ringcoder.encoderPosition = t.secondsRemaining / 60

/-- The ring lights the lowest LEDs, one for every minute left. -/
def ShowsMinutes (t : Timer) : Prop :=
  ∀ led : Nat, t.ringcoder.currentShift.testBit led =
    decide ((led : Int) < t.secondsRemaining / 60)

theorem setup_inStep (register : ShiftRegister) (pushButton : Bool) :
    InStep (setup register pushButton).1 := by
  have hspin := RingCoder.spinReverse_sameDial (RingCoder.construct register pushButton).1 false
  have hdial := ((RingCoder.construct_sameDial register pushButton).trans hspin).trans
    (RingCoder.spinReverse_sameDial _ true)
  exact
    { range := hdial.range
      nonneg := le_refl _
      le_max := Int.le_of_lt (by decide : (0 : Int) < 900)
      running := by simp [setup]
      position := hdial.encoderPosition }

/-! ## The state after the branches -/

/-- The running branch without a tick. -/
theorem branches_idle_inStep {t : Timer} (h : InStep t) {i : Input}
    (hrun : t.timerRunning = true) (htick : i.elapsedSecond = false) :
    InStep (t.branches i).1 := by
  rw [branches_idle hrun htick]
  exact
    { range := h.range
      nonneg := h.nonneg
      le_max := h.le_max
      running := fun _ => h.running hrun
      position := h.position }

/-- The running branch with a tick: the encoder takes the minutes left. -/
theorem branches_tick_inStep {t : Timer} (h : InStep t) {i : Input}
    (hrun : t.timerRunning = true) (htick : i.elapsedSecond = true) :
    InStep (t.branches i).1 := by
  obtain ⟨hsecs, hrunning, hdial⟩ := branches_tick hrun htick
  have hpos : 0 < t.secondsRemaining := h.running hrun
  have hle : t.secondsRemaining ≤ 900 := h.le_max
  have hrest : 0 ≤ t.secondsRemaining - 1 := by omega
  refine ⟨hdial.range.trans h.range, by omega, by omega, ?_, ?_⟩
  · intro hon
    rw [hrunning] at hon
    have hlt : 1 < t.secondsRemaining := by simp_all
    omega
  · rw [hdial.encoderPosition, hsecs]
    exact Int.tdiv_eq_ediv_of_nonneg hrest

/-- The stopped branch: a dial that has moved sets the seconds. -/
theorem branches_adjust_inStep {t : Timer} (h : InStep t) {i : Input}
    (hstop : t.timerRunning = false) : InStep (t.branches i).1 := by
  obtain ⟨hsecs, hrunning, hdial⟩ := branches_adjust (i := i) hstop
  have hrange : (t.readInputs i).ringcoder.range = 16 := h.range
  have hposition : (t.readInputs i).ringcoder.encoderPosition = t.secondsRemaining / 60 :=
    h.position
  have hnonneg := h.nonneg
  have hle := h.le_max
  have hpos : 0 < (t.readInputs i).ringcoder.range := by omega
  have h0 := RingCoder.readEncoder_encoderPosition_nonneg hpos
  have hlt := RingCoder.readEncoder_encoderPosition_lt hpos
  rw [hrange] at hlt
  have hrunning' : (t.branches i).1.timerRunning = true →
      0 < (t.branches i).1.secondsRemaining := by
    intro hon
    rw [hrunning] at hon
    simp_all
  have hmoved := RingCoder.readEncoder_moved (t.readInputs i).ringcoder
  have hgoal : 0 ≤ (t.branches i).1.secondsRemaining ∧
      (t.branches i).1.secondsRemaining ≤ 900 ∧
      (t.readInputs i).ringcoder.readEncoder.encoderPosition =
        (t.branches i).1.secondsRemaining / 60 := by
    rw [hsecs, hmoved]
    simp only [minute]
    split_ifs with hne
    · omega
    · have hsame := hne
      simp only [ne_eq, decide_not, Bool.not_eq_true', decide_eq_false_iff_not,
        not_not] at hsame
      omega
  exact ⟨by rw [hdial]; exact hrange, hgoal.1, hgoal.2.1, hrunning', by rw [hdial]; exact hgoal.2.2⟩

theorem branches_inStep {t : Timer} (h : InStep t) (i : Input) :
    InStep (t.branches i).1 := by
  cases hrun : t.timerRunning with
  | false => exact branches_adjust_inStep h hrun
  | true =>
    cases htick : i.elapsedSecond with
    | false => exact branches_idle_inStep h hrun htick
    | true => exact branches_tick_inStep h hrun htick

/-! ## The state after an iteration -/

/-- Every iteration keeps the seconds and the position in step. -/
theorem loop_inStep {t : Timer} (h : InStep t) (i : Input) : InStep (t.loop i).1 := by
  have hb := branches_inStep h i
  have hdial := loop_sameDial t i
  exact
    { range := hdial.range.trans hb.range
      nonneg := hb.nonneg
      le_max := hb.le_max
      running := hb.running
      position := hdial.encoderPosition.trans hb.position }

/-- On the dial of 16 positions the LED index is the position. -/
theorem ledIndex_of_inStep {t : Timer} (h : InStep t) :
    t.ringcoder.ledIndex = t.secondsRemaining / 60 := by
  rw [RingCoder.ledIndex, h.range, h.position, RingCoder.ledCount]
  exact Int.mul_tdiv_cancel_left _ (by decide)

/-- The last statement of `loop()` draws the minutes left. -/
theorem loop_showsMinutes {t : Timer} (h : InStep t) (i : Input) :
    ShowsMinutes (t.loop i).1 := by
  intro led
  have hb := branches_inStep h i
  have hshift : (t.loop i).1.ringcoder.currentShift =
      2 ^ ((t.branches i).1.secondsRemaining / 60).toNat - 1 := by
    rw [← ledIndex_of_inStep hb, ← RingCoder.calculateShiftAt_true]
    exact RingCoder.setShift_currentShift _ _
  rw [hshift, Nat.testBit_two_pow_sub_one, loop_secondsRemaining, decide_eq_decide]
  exact Int.lt_toNat

theorem run_inStep (register : ShiftRegister) (pushButton : Bool) (inputs : List Input) :
    InStep (sketch.run (setup register pushButton).1 inputs) :=
  Machine.invariant (m := sketch) InStep (fun _ i h => loop_inStep h i)
    (setup_inStep register pushButton) inputs

/-- After every iteration of every run the seconds are in range, a running
timer has time left, and the encoder and the ring show the minutes left. -/
theorem display_agrees (register : ShiftRegister) (pushButton : Bool)
    (before : List Input) (i : Input) :
    let t := sketch.run (setup register pushButton).1 (before ++ [i])
    (0 ≤ t.secondsRemaining ∧ t.secondsRemaining ≤ 900) ∧
      (t.timerRunning = true → 0 < t.secondsRemaining) ∧
      t.ringcoder.encoderPosition = t.secondsRemaining / 60 ∧
      ∀ led : Nat, t.ringcoder.currentShift.testBit led =
        decide ((led : Int) < t.secondsRemaining / 60) := by
  have hbefore := run_inStep register pushButton before
  have hafter := run_inStep register pushButton (before ++ [i])
  have hring := loop_showsMinutes hbefore i
  refine ⟨⟨hafter.nonneg, hafter.le_max⟩, hafter.running, hafter.position, ?_⟩
  rw [Machine.run_concat]
  exact hring

end ArduinoProjects.Timer
