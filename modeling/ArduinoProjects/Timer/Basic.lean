import ArduinoProjects.Lib.Machine
import ArduinoProjects.RingCoder.Basic

/-!
# The kitchen timer

`src/timer/timer.ino` sets a number of minutes with the knob, counts the
seconds down after a press of the button, and shows the minutes left on the
ring.  A second press stops the countdown and a third one resumes it.

One call of `loop()` reads three inputs.  The knob has been turned by some
counts since the last call, the button may show a debounced edge, and the
`Metro` object may report that a second has passed.  The `Metro` object is
asked in every iteration, whether the timer runs or not, so its answer is an
input of the iteration.

The running branch and the stopped branch of `loop()` are two functions each:
the check of the button and the work of the branch, in the order of the
source.
-/

namespace ArduinoProjects

/-- The globals of the sketch. -/
structure Timer where
  ringcoder : RingCoder
  secondsRemaining : Int
  timerRunning : Bool
  deriving DecidableEq, Repr

namespace Timer

/-- What one iteration reads: the counts that the knob was turned by, the
result of `ringcoder.update()` and the result of `timer.check()`. -/
structure Input where
  counts : Int
  stateChanged : Bool
  elapsedSecond : Bool
  deriving DecidableEq, Repr

/-- `MINUTE` -/
def minute : Int := 60

/-- The line that `expirationAnimation` prints first. -/
def timesUp : Output := .serial "Times up!"

/-- `expirationAnimation` -/
def expirationAnimation : List Output :=
  [timesUp] ++ RingCoder.setKnobRgb 255 0 0 ++ RingCoder.setKnobRgb 0 255 0 ++
    RingCoder.setKnobRgb 0 0 255 ++ RingCoder.setKnobRgb 255 255 255

/-- The power-up state after `setup()`. -/
def setup (register : ShiftRegister) (pushButton : Bool) : Timer × List Output :=
  let (rc, out) := RingCoder.construct register pushButton
  let (rc, spin) := rc.spin
  let (rc, reverseSpin) := rc.reverseSpin
  ({ ringcoder := rc, secondsRemaining := 0, timerRunning := false },
    out ++ spin ++ reverseSpin ++ expirationAnimation)

/-! ## The running branch -/

/-- A press stops the timer. -/
def stopTimer (t : Timer) (pressed : Bool) : Timer × List Output :=
  if pressed then
    ({ t with timerRunning := false },
      [.serial ("Stop timer (sec): " ++ toString t.secondsRemaining)])
  else
    (t, [])

/-- A second has passed: count it, move the ring and check for completion. -/
def countSecond (t : Timer) (elapsedSecond : Bool) : Timer × List Output :=
  if elapsedSecond then
    let secondsRemaining := t.secondsRemaining - 1
    let segments := secondsRemaining.tdiv minute
    let (rc, ring) := (t.ringcoder.writeEncoder segments).blinkLed segments
    if secondsRemaining ≤ 0 then
      ({ ringcoder := rc, secondsRemaining, timerRunning := false }, ring ++ expirationAnimation)
    else
      ({ t with ringcoder := rc, secondsRemaining }, ring)
  else
    (t, [])

/-! ## The stopped branch -/

/-- The knob adjusts the timer. -/
def adjustTimer (t : Timer) : Timer × List Output :=
  let rc := t.ringcoder.readEncoder
  if rc.moved then
    let secondsRemaining := rc.encoderPosition * minute
    ({ t with ringcoder := rc, secondsRemaining },
      [.serial ("Set timer (sec): " ++ toString secondsRemaining)])
  else
    ({ t with ringcoder := rc }, [])

/-- A press starts the timer when there is time on it. -/
def startTimer (t : Timer) (pressed : Bool) : Timer × List Output :=
  if pressed ∧ t.secondsRemaining > 0 then
    ({ t with timerRunning := true },
      [.serial ("Start timer (sec): " ++ toString t.secondsRemaining)])
  else
    (t, [])

/-! ## The loop -/

/-- The knob is turned and the button is read. -/
def readInputs (t : Timer) (i : Input) : Timer :=
  { t with ringcoder := (t.ringcoder.turn i.counts).update i.stateChanged }

/-- `stateChanged && state == HIGH` -/
def pressed (t : Timer) (i : Input) : Bool :=
  i.stateChanged && (t.readInputs i).ringcoder.pushButton

/-- The two branches of `loop()`, up to the bar graph. -/
def branches (t : Timer) (i : Input) : Timer × List Output :=
  let pressed := t.pressed i
  let t := t.readInputs i
  if t.timerRunning then
    let (t, out) := t.stopTimer pressed
    let (t, outs) := t.countSecond i.elapsedSecond
    (t, out ++ outs)
  else
    let (t, out) := t.adjustTimer
    let (t, outs) := t.startTimer pressed
    (t, out ++ outs)

/-- `loop()` -/
def loop (t : Timer) (i : Input) : Timer × List Output :=
  let (t, out) := t.branches i
  let (rc, ring) := t.ringcoder.ledRingFiller
  ({ t with ringcoder := rc }, out ++ ring)

/-- The sketch as a machine. -/
def sketch : Machine Timer Input (List Output) where
  step := loop

/-! ## The parts of an iteration -/

@[simp] theorem readInputs_secondsRemaining (t : Timer) (i : Input) :
    (t.readInputs i).secondsRemaining = t.secondsRemaining := rfl

@[simp] theorem readInputs_timerRunning (t : Timer) (i : Input) :
    (t.readInputs i).timerRunning = t.timerRunning := rfl

theorem stopTimer_fst (t : Timer) (pressed : Bool) :
    (t.stopTimer pressed).1 = { t with timerRunning := t.timerRunning && !pressed } := by
  cases pressed <;> simp [stopTimer]

@[simp] theorem countSecond_false (t : Timer) : t.countSecond false = (t, []) := rfl

@[simp] theorem countSecond_secondsRemaining (t : Timer) :
    (t.countSecond true).1.secondsRemaining = t.secondsRemaining - 1 := by
  simp only [countSecond, if_true]
  split_ifs <;> rfl

theorem countSecond_timerRunning (t : Timer) :
    (t.countSecond true).1.timerRunning =
      (t.timerRunning && decide (1 < t.secondsRemaining)) := by
  simp only [countSecond, if_true]
  split_ifs with hlast
  · have hle : ¬ 1 < t.secondsRemaining := by omega
    simp [hle]
  · have hlt : 1 < t.secondsRemaining := by omega
    simp [hlt]

/-- A counted second writes the minutes left to the encoder. -/
theorem countSecond_sameDial (t : Timer) :
    RingCoder.SameDial
      (t.ringcoder.writeEncoder ((t.secondsRemaining - 1).tdiv minute))
      (t.countSecond true).1.ringcoder := by
  simp only [countSecond, if_true]
  split_ifs <;> exact RingCoder.blinkLed_sameDial _ _

theorem adjustTimer_secondsRemaining (t : Timer) :
    t.adjustTimer.1.secondsRemaining =
      if t.ringcoder.readEncoder.moved then
        t.ringcoder.readEncoder.encoderPosition * minute
      else t.secondsRemaining := by
  unfold adjustTimer
  split_ifs with hmoved <;> simp [hmoved]

@[simp] theorem adjustTimer_timerRunning (t : Timer) :
    t.adjustTimer.1.timerRunning = t.timerRunning := by
  simp only [adjustTimer]
  split_ifs <;> rfl

@[simp] theorem adjustTimer_ringcoder (t : Timer) :
    t.adjustTimer.1.ringcoder = t.ringcoder.readEncoder := by
  simp only [adjustTimer]
  split_ifs <;> rfl

theorem startTimer_fst (t : Timer) (pressed : Bool) :
    (t.startTimer pressed).1 =
      { t with
        timerRunning := t.timerRunning || (pressed && decide (0 < t.secondsRemaining)) } := by
  unfold startTimer
  split_ifs with hstart
  · simp [hstart.1, hstart.2]
  · cases pressed with
    | false => simp
    | true =>
      have hzero : ¬ 0 < t.secondsRemaining := by simpa using hstart
      simp [hzero]

/-! ## What one iteration does -/

/-- The bar graph at the end of the iteration leaves the dial alone. -/
theorem loop_sameDial (t : Timer) (i : Input) :
    RingCoder.SameDial (t.branches i).1.ringcoder (t.loop i).1.ringcoder :=
  RingCoder.setShift_sameDial _ _

@[simp] theorem loop_secondsRemaining (t : Timer) (i : Input) :
    (t.loop i).1.secondsRemaining = (t.branches i).1.secondsRemaining := rfl

theorem branches_running {t : Timer} (hrun : t.timerRunning = true) (i : Input) :
    t.branches i =
      ((((t.readInputs i).stopTimer (t.pressed i)).1.countSecond i.elapsedSecond).1,
        ((t.readInputs i).stopTimer (t.pressed i)).2 ++
          (((t.readInputs i).stopTimer (t.pressed i)).1.countSecond i.elapsedSecond).2) := by
  simp [branches, hrun]

theorem branches_stopped {t : Timer} (hstop : t.timerRunning = false) (i : Input) :
    t.branches i =
      (((t.readInputs i).adjustTimer.1.startTimer (t.pressed i)).1,
        (t.readInputs i).adjustTimer.2 ++
          ((t.readInputs i).adjustTimer.1.startTimer (t.pressed i)).2) := by
  simp [branches, hstop]

/-- A running timer without a tick: a press stops it and nothing else
changes. -/
theorem branches_idle {t : Timer} {i : Input} (hrun : t.timerRunning = true)
    (htick : i.elapsedSecond = false) :
    (t.branches i).1 = { t.readInputs i with timerRunning := !t.pressed i } := by
  rw [branches_running hrun, htick, countSecond_false, stopTimer_fst]
  simp [hrun]

/-- A running timer with a tick: one second is counted, the encoder is set to
the minutes left, and the timer stops at zero or on a press. -/
theorem branches_tick {t : Timer} {i : Input} (hrun : t.timerRunning = true)
    (htick : i.elapsedSecond = true) :
    (t.branches i).1.secondsRemaining = t.secondsRemaining - 1 ∧
      (t.branches i).1.timerRunning = (!t.pressed i && decide (1 < t.secondsRemaining)) ∧
      RingCoder.SameDial
        ((t.readInputs i).ringcoder.writeEncoder ((t.secondsRemaining - 1).tdiv minute))
        (t.branches i).1.ringcoder := by
  have hstop := stopTimer_fst (t.readInputs i) (t.pressed i)
  have hdial := countSecond_sameDial ((t.readInputs i).stopTimer (t.pressed i)).1
  rw [branches_running hrun, htick]
  refine ⟨?_, ?_, ?_⟩
  · rw [countSecond_secondsRemaining, hstop]
    rfl
  · rw [countSecond_timerRunning, hstop, readInputs_timerRunning, hrun, Bool.true_and]
    rfl
  · rw [hstop] at hdial ⊢
    exact hdial

/-- A stopped timer: the knob sets it when the dial has moved, and a press
starts it when there is time on it. -/
theorem branches_adjust {t : Timer} {i : Input} (hstop : t.timerRunning = false) :
    (t.branches i).1.secondsRemaining =
        (if (t.readInputs i).ringcoder.readEncoder.moved then
          (t.readInputs i).ringcoder.readEncoder.encoderPosition * minute
        else t.secondsRemaining) ∧
      (t.branches i).1.timerRunning =
        (t.pressed i && decide (0 < (t.branches i).1.secondsRemaining)) ∧
      (t.branches i).1.ringcoder = (t.readInputs i).ringcoder.readEncoder := by
  rw [branches_stopped hstop, startTimer_fst]
  refine ⟨adjustTimer_secondsRemaining _, ?_, adjustTimer_ringcoder _⟩
  simp [hstop]

/-! ## The alarm -/

/-- No pattern of the ring is the line of the alarm. -/
theorem timesUp_not_mem_setShifts (rc : RingCoder) (patterns : List Nat) :
    timesUp ∉ (rc.setShifts patterns).2 := by
  intro h
  obtain ⟨pattern, hp⟩ := RingCoder.setShifts_out h
  cases hp

theorem timesUp_not_mem_ledRingFiller (rc : RingCoder) : timesUp ∉ rc.ledRingFiller.2 := by
  intro h
  obtain ⟨pattern, hp⟩ := RingCoder.setShift_out h
  cases hp

/-- A line that starts with another text is not the alarm. -/
theorem timesUp_ne_line {label : String} (h : ¬ label.toList <+: "Times up!".toList)
    (rest : String) : timesUp ≠ .serial (label ++ rest) := by
  intro heq
  have hline : "Times up!" = label ++ rest := Output.serial.inj heq
  refine h ⟨rest.toList, ?_⟩
  rw [hline, String.toList_append]

theorem timesUp_not_mem_stopTimer (t : Timer) (pressed : Bool) :
    timesUp ∉ (t.stopTimer pressed).2 := by
  cases pressed with
  | false => simp [stopTimer]
  | true => simpa [stopTimer] using timesUp_ne_line (by decide) _

theorem timesUp_not_mem_adjustTimer (t : Timer) : timesUp ∉ t.adjustTimer.2 := by
  simp only [adjustTimer]
  split_ifs
  · simpa using timesUp_ne_line (by decide) _
  · simp

theorem timesUp_not_mem_startTimer (t : Timer) (pressed : Bool) :
    timesUp ∉ (t.startTimer pressed).2 := by
  simp only [startTimer]
  split_ifs
  · simpa using timesUp_ne_line (by decide) _
  · simp

/-- A counted second raises the alarm exactly when it was the last one. -/
theorem timesUp_mem_countSecond (t : Timer) :
    timesUp ∈ (t.countSecond true).2 ↔ t.secondsRemaining ≤ 1 := by
  have hring := timesUp_not_mem_setShifts
    (t.ringcoder.writeEncoder ((t.secondsRemaining - 1).tdiv minute))
  simp only [countSecond, if_true]
  split_ifs with hlast
  · refine iff_of_true ?_ (by omega)
    exact List.mem_append_right _ (by simp [expirationAnimation])
  · exact iff_of_false (hring _) (by omega)

/-- The alarm goes off in exactly the iterations that count the last second
of a running timer. -/
theorem timesUp_mem_loop (t : Timer) (i : Input) :
    timesUp ∈ (t.loop i).2 ↔
      t.timerRunning = true ∧ i.elapsedSecond = true ∧ t.secondsRemaining ≤ 1 := by
  have hring : timesUp ∉ ((t.branches i).1.ringcoder.ledRingFiller).2 :=
    timesUp_not_mem_ledRingFiller _
  have hout : timesUp ∈ (t.loop i).2 ↔ timesUp ∈ (t.branches i).2 := by
    simp [loop, hring]
  rw [hout]
  cases hrun : t.timerRunning with
  | false =>
    rw [branches_stopped hrun]
    simp [timesUp_not_mem_adjustTimer, timesUp_not_mem_startTimer]
  | true =>
    rw [branches_running hrun]
    cases htick : i.elapsedSecond with
    | false => simp [timesUp_not_mem_stopTimer]
    | true =>
      have hsecs : ((t.readInputs i).stopTimer (t.pressed i)).1.secondsRemaining =
          t.secondsRemaining := by
        rw [stopTimer_fst]
        rfl
      simp [timesUp_not_mem_stopTimer, timesUp_mem_countSecond, hsecs]

end Timer

end ArduinoProjects
