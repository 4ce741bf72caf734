import ArduinoProjects.Timer.Countdown

/-!
# Stopping the timer

A press stops the timer and prints the seconds that are left.  Two things can
still change them.

* The check for a tick comes after the check of the button in the same branch, so
  a tick in the iteration of the press is counted.
* The running branch does not read the encoder.  A turn of the knob stays in the
  hardware count until a tick writes the minutes over it, and when the timer is
  stopped first, the next iteration reads it as an adjustment.

`freezes_iff` says that nothing else does.
-/

namespace ArduinoProjects.Timer

/-- The iteration starts with a stopped timer and the knob rests. -/
def Resting (t : Timer) (i : Input) : Prop := t.timerRunning = false ∧ i.counts = 0

/-- From the iteration of the press on the seconds stay what they were before it,
and the alarm does not go off. -/
def Freezes (t : Timer) (press : Input) (rest : List Input) : Prop :=
  sketch.Always
    (fun s i => (sketch.next s i).secondsRemaining = t.secondsRemaining ∧
      timesUp ∉ sketch.out s i) t (press :: rest)

theorem press_stops {t : Timer} {i : Input} (hrun : t.timerRunning = true)
    (hpress : t.pressed i = true) : (sketch.next t i).timerRunning = false := by
  show (t.branches i).1.timerRunning = false
  cases htick : i.elapsedSecond with
  | false => rw [branches_idle hrun htick, hpress, Bool.not_true]
  | true => rw [(branches_tick hrun htick).2.1, hpress, Bool.not_true, Bool.false_and]

/-- The iteration of the press changes nothing when it sees no tick, and counts
one second when it does. -/
theorem stop_keeps_iff {t : Timer} {i : Input} (hrun : t.timerRunning = true) :
    ((sketch.next t i).secondsRemaining = t.secondsRemaining ∧ timesUp ∉ sketch.out t i) ↔
      i.elapsedSecond = false := by
  have hout : timesUp ∈ sketch.out t i ↔ _ := timesUp_mem_loop t i
  cases htick : i.elapsedSecond with
  | false =>
    refine iff_of_true ⟨?_, by simp [hout, htick]⟩ rfl
    show (t.loop i).1.secondsRemaining = t.secondsRemaining
    rw [loop_secondsRemaining, branches_idle hrun htick]
    rfl
  | true =>
    refine iff_of_false ?_ (by simp)
    rintro ⟨hsecs, _⟩
    have hcount : (sketch.next t i).secondsRemaining = t.secondsRemaining - 1 :=
      (branches_tick hrun htick).1
    omega

/-- After the press without a tick the dial stands where the inputs found it. -/
theorem settled_next_iff {t : Timer} {i : Input} (hrun : t.timerRunning = true)
    (htick : i.elapsedSecond = false) :
    Settled (sketch.next t i) ↔ Settled (t.readInputs i) := by
  have hdial : RingCoder.SameDial (t.readInputs i).ringcoder (sketch.next t i).ringcoder := by
    have h := loop_sameDial t i
    rwa [branches_idle hrun htick] at h
  constructor
  · intro h
    exact settled_of_sameDial hdial.symm h
  · exact settled_of_sameDial hdial

/-- An iteration of a stopped timer with the knob at rest keeps the seconds
exactly when the encoder reads back what is stored. -/
theorem rest_keeps_iff {t : Timer} {i : Input} (h : InStep t) (hrest : Resting t i) :
    (sketch.next t i).secondsRemaining = t.secondsRemaining ↔ Settled t := by
  obtain ⟨hstop, hstill⟩ := hrest
  constructor
  · intro hsecs
    have hposition := (loop_inStep h i).position
    have hread : (t.loop i).1.ringcoder.encoderPosition =
        (t.readInputs i).ringcoder.readEncoder.encoderPosition := by
      rw [(loop_sameDial t i).encoderPosition, (branches_adjust (i := i) hstop).2.2]
    rw [hread, show (t.loop i).1.secondsRemaining = t.secondsRemaining from hsecs,
      ← h.position] at hposition
    exact (settled_readInputs_iff hstill).mp hposition
  · intro hs
    have hstep := (loop_still h hs hstill).1
    rw [countsTick, hstop, Bool.false_and, Bool.toNat_false, Int.natCast_zero,
      Int.sub_zero] at hstep
    exact hstep

/-- The seconds of a stopped timer whose dial is settled stay what they are. -/
theorem rest_freezes {t : Timer} (h : InStep t) (hs : Settled t) {rest : List Input}
    (hrest : sketch.Always Resting t rest) :
    sketch.Always
      (fun s i => (sketch.next s i).secondsRemaining = t.secondsRemaining ∧
        timesUp ∉ sketch.out s i) t rest := by
  refine Machine.always_of_guarded
    (fun s => InStep s ∧ Settled s ∧ s.secondsRemaining = t.secondsRemaining) ?_ ?_ ⟨h, hs, rfl⟩
    hrest
  · rintro s i ⟨hin, hset, hsecs⟩ hr
    have hkeeps := (rest_keeps_iff hin hr).mpr hset
    exact ⟨loop_inStep hin i, (loop_still hin hset hr.2).2, hkeeps.trans hsecs⟩
  · rintro s i ⟨hin, hset, hsecs⟩ hr
    refine ⟨((rest_keeps_iff hin hr).mpr hset).trans hsecs, ?_⟩
    rw [show sketch.out s i = (s.loop i).2 from rfl, timesUp_mem_loop, hr.1]
    simp

/-- A press stops a running timer.  From the press on the seconds stay what they
were, for as long as the timer is stopped and the knob rests, exactly when no
tick coincides with the press and, if another iteration follows, the knob has not
been moved to another position at the press. -/
theorem freezes_iff (register : ShiftRegister) (pushButton : Bool) (before : List Input)
    (press : Input) (rest : List Input)
    (hrun : (sketch.run (setup register pushButton).1 before).timerRunning = true)
    (hpress : (sketch.run (setup register pushButton).1 before).pressed press = true)
    (hrest : sketch.Always Resting
      (sketch.next (sketch.run (setup register pushButton).1 before) press) rest) :
    (sketch.next (sketch.run (setup register pushButton).1 before) press).timerRunning = false ∧
      (Freezes (sketch.run (setup register pushButton).1 before) press rest ↔
        press.elapsedSecond = false ∧
          (rest = [] ∨
            Settled ((sketch.run (setup register pushButton).1 before).readInputs press))) := by
  have hin := run_inStep register pushButton before
  generalize sketch.run (setup register pushButton).1 before = t at *
  refine ⟨press_stops hrun hpress, ?_⟩
  have hnext : InStep (sketch.next t press) := loop_inStep hin press
  rw [Freezes, Machine.Always, stop_keeps_iff hrun]
  refine and_congr_right fun htick => ?_
  rw [← settled_next_iff hrun htick]
  have hsecs := ((stop_keeps_iff hrun).mpr htick).1
  cases rest with
  | nil => exact iff_of_true trivial (Or.inl rfl)
  | cons i rest =>
    constructor
    · intro h
      have hkeeps := h.1.1.trans hsecs.symm
      exact Or.inr ((rest_keeps_iff hnext hrest.1).mp hkeeps)
    · rintro (hnil | hs)
      · exact absurd hnil (List.cons_ne_nil i rest)
      · rw [← hsecs]
        exact rest_freezes hnext hs hrest

/-- One minute, started by a press, stopped by another one after two seconds. -/
theorem freezes_one_minute :
    Freezes (sketch.run (setup ⟨0, 0⟩ false).1
        [⟨4, false, false⟩, ⟨0, true, false⟩, ⟨0, true, true⟩, ⟨0, false, true⟩])
      ⟨0, true, false⟩ [⟨0, false, true⟩, ⟨0, true, false⟩] :=
  (freezes_iff ⟨0, 0⟩ false
    [⟨4, false, false⟩, ⟨0, true, false⟩, ⟨0, true, true⟩, ⟨0, false, true⟩] ⟨0, true, false⟩
    [⟨0, false, true⟩, ⟨0, true, false⟩] (by decide) (by decide)
    ⟨⟨by decide, rfl⟩, ⟨by decide, rfl⟩, trivial⟩).2.mpr ⟨rfl, Or.inr (by unfold Settled; decide)⟩

/-- A press that coincides with a tick loses a second. -/
theorem stop_with_tick_counts :
    ¬ Freezes (sketch.run (setup ⟨0, 0⟩ false).1
        [⟨4, false, false⟩, ⟨0, true, false⟩, ⟨0, true, false⟩]) ⟨0, true, true⟩ [] := by
  rintro ⟨⟨hsecs, _⟩, _⟩
  exact absurd hsecs (by decide)

end ArduinoProjects.Timer
