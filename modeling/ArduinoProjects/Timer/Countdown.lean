import ArduinoProjects.Timer.Display
import Mathlib.Data.List.Induction

/-!
# The countdown consumes the time it was set for

While the knob rests, the hardware count changes only through
`writeEncoder`.  The running branch writes the minutes left to the encoder,
and the stopped branch reads the encoder again.  A pause therefore loses no
second as long as that read finds the position that was written.  `Settled`
is that fact, and `loop_still` shows that every iteration keeps it and counts
one second for a tick of a running timer.

`countdown` follows a whole run from the iteration that sets the knob.
-/

namespace ArduinoProjects.Timer

/-- The next read of the encoder finds the position that is stored. -/
def Settled (t : Timer) : Prop :=
  t.ringcoder.readEncoder.encoderPosition = t.ringcoder.encoderPosition

/-- The iteration sets the timer to `p` minutes: it starts with a stopped
timer, and the knob has moved to `p`. -/
def SetsTo (t : Timer) (i : Input) (p : Int) : Prop :=
  t.timerRunning = false ∧
    (t.readInputs i).ringcoder.readEncoder.moved = true ∧
    (t.readInputs i).ringcoder.readEncoder.encoderPosition = p

/-- A tick seen in an iteration that began with `timerRunning`. -/
def countsTick (t : Timer) (i : Input) : Bool := t.timerRunning && i.elapsedSecond

/-- The number of ticks that a run counted. -/
def ticks (t : Timer) (inputs : List Input) : Nat := sketch.count countsTick t inputs

/-- The knob rests in every iteration. -/
def Still (inputs : List Input) : Prop := ∀ i ∈ inputs, i.counts = 0

theorem settled_of_sameDial {t t' : Timer}
    (h : RingCoder.SameDial t.ringcoder t'.ringcoder) (hs : Settled t) : Settled t' := by
  unfold Settled RingCoder.readEncoder at *
  rw [h.enc, h.range, h.encoderPosition]
  exact hs

/-- A position in range that `writeEncoder` wrote is read back. -/
theorem settled_writeEncoder {t : Timer} {rc : RingCoder} {p : Int}
    (hdial : RingCoder.SameDial (rc.writeEncoder p) t.ringcoder) (h0 : 0 ≤ p)
    (hlt : p < rc.range) : Settled t := by
  have hread : (rc.writeEncoder p).readEncoder.encoderPosition = p := by
    simp only [RingCoder.readEncoder, RingCoder.writeEncoder, RingCoder.positiveModulo,
      RingCoder.tdiv_encoderStep]
    exact CInt.floorMod_of_lt h0 hlt
  have hwritten : Settled { t with ringcoder := rc.writeEncoder p } := hread
  exact settled_of_sameDial hdial hwritten

/-- While the knob rests the inputs of an iteration leave the dial alone. -/
theorem settled_readInputs_iff {t : Timer} {i : Input} (hstill : i.counts = 0) :
    Settled (t.readInputs i) ↔ Settled t := by
  simp only [Settled, readInputs, RingCoder.readEncoder, RingCoder.update, RingCoder.turn, hstill,
    add_zero]

/-! ## One iteration with the knob at rest -/

theorem branches_still {t : Timer} (h : InStep t) (hs : Settled t) {i : Input}
    (hstill : i.counts = 0) :
    (t.branches i).1.secondsRemaining = t.secondsRemaining - ((countsTick t i).toNat : Int) ∧
      Settled (t.branches i).1 := by
  have hin : Settled (t.readInputs i) := (settled_readInputs_iff hstill).mpr hs
  cases hrun : t.timerRunning with
  | false =>
    obtain ⟨hsecs, _, hdial⟩ := branches_adjust (i := i) hrun
    have hmoved : (t.readInputs i).ringcoder.readEncoder.moved = false := by
      rw [RingCoder.readEncoder_moved, hin]
      simp
    refine ⟨?_, ?_⟩
    · rw [hsecs, hmoved]
      simp [countsTick, hrun]
    · unfold Settled
      rw [hdial]
      rfl
  | true =>
    cases htick : i.elapsedSecond with
    | false =>
      rw [branches_idle hrun htick]
      exact ⟨by simp [countsTick, htick], hin⟩
    | true =>
      obtain ⟨hsecs, _, hdial⟩ := branches_tick hrun htick
      have hpos : 0 < t.secondsRemaining := h.running hrun
      have hmax : t.secondsRemaining ≤ 900 := h.le_max
      have hrest : 0 ≤ t.secondsRemaining - 1 := by omega
      have hminutes : (t.secondsRemaining - 1).tdiv minute =
          (t.secondsRemaining - 1) / 60 := Int.tdiv_eq_ediv_of_nonneg hrest
      have hrange : (t.readInputs i).ringcoder.range = 16 := h.range
      refine ⟨?_, settled_writeEncoder hdial (by omega) (by omega)⟩
      rw [hsecs]
      simp [countsTick, hrun, htick]

/-- An iteration with the knob at rest counts one second for a tick of a
running timer and leaves the dial where it is. -/
theorem loop_still {t : Timer} (h : InStep t) (hs : Settled t) {i : Input}
    (hstill : i.counts = 0) :
    (t.loop i).1.secondsRemaining = t.secondsRemaining - ((countsTick t i).toNat : Int) ∧
      Settled (t.loop i).1 := by
  obtain ⟨hsecs, hsettled⟩ := branches_still h hs hstill
  exact ⟨hsecs, settled_of_sameDial (loop_sameDial t i) hsettled⟩

/-- The iteration that sets the knob. -/
theorem loop_setsTo {t : Timer} {i : Input} {p : Int} (hset : SetsTo t i p) :
    (t.loop i).1.secondsRemaining = 60 * p ∧ Settled (t.loop i).1 := by
  obtain ⟨hstop, hmoved, hpos⟩ := hset
  obtain ⟨hsecs, _, hdial⟩ := branches_adjust (i := i) hstop
  refine ⟨?_, settled_of_sameDial (loop_sameDial t i) ?_⟩
  · rw [loop_secondsRemaining, hsecs, hmoved, hpos, minute]
    exact Int.mul_comm p 60
  · unfold Settled
    rw [hdial]
    rfl

/-! ## The whole countdown -/

/-- The seconds left are the seconds set minus the ticks counted. -/
theorem run_still {t : Timer} (h : InStep t) (hs : Settled t) {inputs : List Input}
    (hstill : Still inputs) :
    (sketch.run t inputs).secondsRemaining = t.secondsRemaining - (ticks t inputs : Int) ∧
      InStep (sketch.run t inputs) ∧ Settled (sketch.run t inputs) := by
  induction inputs using List.reverseRecOn with
  | nil => simpa [ticks, Machine.count] using ⟨h, hs⟩
  | append_singleton inputs i ih =>
    obtain ⟨hsecs, hin, hset⟩ := ih fun j hj => hstill j (List.mem_append_left _ hj)
    have hi : i.counts = 0 := hstill i (List.mem_append_right _ (List.mem_singleton_self i))
    obtain ⟨hstep, hset'⟩ := loop_still hin hset hi
    rw [Machine.run_concat, ticks, Machine.count_concat]
    refine ⟨?_, loop_inStep hin i, hset'⟩
    show (Timer.loop _ i).1.secondsRemaining = _
    rw [hstep, hsecs, ticks]
    push_cast
    omega

/-- A timer that is set to `p` minutes and whose knob then rests loses one
second for each tick of an iteration that began with `timerRunning` and for
nothing else.  The alarm goes off in the iteration of tick number `60 * p`,
in no other one, and after it the timer is stopped at zero. -/
theorem countdown (register : ShiftRegister) (pushButton : Bool) (before : List Input)
    (setting : Input) (p : Int)
    (hset : SetsTo (sketch.run (setup register pushButton).1 before) setting p)
    (inputs : List Input) (hstill : Still inputs) :
    let start := sketch.next (sketch.run (setup register pushButton).1 before) setting
    let t := sketch.run start inputs
    t.secondsRemaining = 60 * p - (ticks start inputs : Int) ∧
      (∀ i : Input, i.counts = 0 →
        (sketch.next t i).secondsRemaining =
            t.secondsRemaining - (if t.timerRunning ∧ i.elapsedSecond then 1 else 0) ∧
          (timesUp ∈ sketch.out t i ↔
            t.timerRunning = true ∧ i.elapsedSecond = true ∧
              (ticks start (inputs ++ [i]) : Int) = 60 * p)) ∧
      (60 * p ≤ (ticks start inputs : Int) →
        t.timerRunning = false ∧ t.secondsRemaining = 0) := by
  intro start t
  have hbefore := run_inStep register pushButton before
  have hstart : InStep start := loop_inStep hbefore setting
  obtain ⟨hsecs, hsettled⟩ := loop_setsTo hset
  obtain ⟨hleft, hin, hset'⟩ := run_still hstart hsettled hstill
  have hleft' : t.secondsRemaining = 60 * p - (ticks start inputs : Int) := by
    rw [← hsecs]
    exact hleft
  refine ⟨hleft', fun i hi => ⟨?_, ?_⟩, fun hdone => ?_⟩
  · refine (loop_still hin hset' hi).1.trans ?_
    cases hrun : t.timerRunning <;> cases htick : i.elapsedSecond <;>
      simp [countsTick, t, hrun, htick]
  · refine (timesUp_mem_loop t i).trans ?_
    refine and_congr_right fun hrun => and_congr_right fun htick => ?_
    have hpos : 0 < t.secondsRemaining := hin.running hrun
    have hcount : ticks start (inputs ++ [i]) = ticks start inputs + 1 := by
      rw [ticks, Machine.count_concat]
      show _ + (countsTick t i).toNat = _
      rw [countsTick, hrun, htick]
      rfl
    rw [hcount]
    push_cast
    omega
  · have hzero : t.secondsRemaining = 0 := by
      have hnonneg : 0 ≤ t.secondsRemaining := hin.nonneg
      omega
    refine ⟨?_, hzero⟩
    cases hrun : t.timerRunning with
    | false => rfl
    | true =>
      have hpos : 0 < t.secondsRemaining := hin.running hrun
      omega

/-- One minute, started by a press, after the first tick. -/
theorem countdown_one_minute :
    (sketch.run (setup ⟨0, 0⟩ false).1
      [⟨4, false, false⟩, ⟨0, true, false⟩, ⟨0, false, true⟩]).secondsRemaining = 59 := by
  have hrun := countdown ⟨0, 0⟩ false [] ⟨4, false, false⟩ 1
    ⟨by decide, by decide, by decide⟩ [⟨0, true, false⟩, ⟨0, false, true⟩] (by simp [Still])
  have hticks : ticks (sketch.next (sketch.run (setup ⟨0, 0⟩ false).1 []) ⟨4, false, false⟩)
      [⟨0, true, false⟩, ⟨0, false, true⟩] = 1 := by decide
  refine hrun.1.trans ?_
  rw [hticks]
  rfl

end ArduinoProjects.Timer
