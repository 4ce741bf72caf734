import ArduinoProjects.Combolock.Basic
import Mathlib.Data.List.Induction

/-!
# When the lock opens

The lock is meant to open for a combination that was dialled.  The comparison
runs on a press with RED selected, so from the second such press on the BLUE
and GREEN channels have been selected and committed in between.

The first such press comes before that.  The three values start at
`KNOB_LED_MAX`, and the comparison takes the two untouched ones as if they
were dialled.  `History` is the invariant of a run that says which channels
are committed and which values are still the initial ones.
`opens_dialled_iff` gives the EEPROM contents for which the difference shows.
-/

namespace ArduinoProjects.Combolock

variable (eeprom : LedCounter → UInt8)

/-- In the run a press has committed the channel: some iteration with a rising
edge started with the channel selected. -/
def Committed (start : Combolock) (inputs : List Input) (channel : LedCounter) : Prop :=
  ∃ pre i post, inputs = pre ++ i :: post ∧
    ((sketch eeprom).run start pre).pressed i = true ∧
    ((sketch eeprom).run start pre).ledCount = channel

/-- An iteration after a run opens the lock only for a dialled combination. -/
def OpensDialled (start : Combolock) (inputs : List Input) (i : Input) : Prop :=
  let c := (sketch eeprom).run start inputs
  secretWord ∈ (sketch eeprom).out c i →
    (c.pressed i = true ∧ c.ledCount = .red) ∧
      (Committed eeprom start inputs .blue ∧ Committed eeprom start inputs .green) ∧
      (c.ledValue .red = eeprom .red ∧ c.ledValue .green = eeprom .green ∧
        c.ledValue .blue = eeprom .blue)

/-! ## The values that a dial can set -/

/-- The knob dials the multiples of `17`. -/
theorem seventeen_dvd_dialled {pos : Int} (h0 : 0 ≤ pos) (hlt : pos < 16) :
    17 ∣ (dialled pos).toNat := by
  have hvalue := dialled_toNat h0 hlt
  omega

/-! ## The history of a run -/

theorem Committed.append {start : Combolock} {inputs : List Input} {channel : LedCounter}
    (h : Committed eeprom start inputs channel) (i : Input) :
    Committed eeprom start (inputs ++ [i]) channel := by
  obtain ⟨pre, j, post, rfl, hp, hc⟩ := h
  exact ⟨pre, j, post ++ [i], by simp, hp, hc⟩

theorem committed_of_pressed {start : Combolock} {inputs : List Input} {i : Input}
    (hp : ((sketch eeprom).run start inputs).pressed i = true) :
    Committed eeprom start (inputs ++ [i]) ((sketch eeprom).run start inputs).ledCount :=
  ⟨inputs, i, [], rfl, hp, rfl⟩

/-- What a run from power-up has done so far.  While GREEN is selected BLUE
has been committed.  While RED is selected either both others have been
committed, or neither has been touched and RED holds a dialled value or the
initial one. -/
structure History (start : Combolock) (inputs : List Input) : Prop where
  range : ((sketch eeprom).run start inputs).ringcoder.range = 16
  green : ((sketch eeprom).run start inputs).ledCount = .green →
    Committed eeprom start inputs .blue
  red : ((sketch eeprom).run start inputs).ledCount = .red →
    (Committed eeprom start inputs .blue ∧ Committed eeprom start inputs .green) ∨
      (((sketch eeprom).run start inputs).ledValue .blue = 255 ∧
        ((sketch eeprom).run start inputs).ledValue .green = 255 ∧
        17 ∣ (((sketch eeprom).run start inputs).ledValue .red).toNat)

theorem setup_history (register : ShiftRegister) (pushButton : Bool) (rolls : List Nat) :
    History eeprom (setup register pushButton rolls).1 [] := by
  exact
    { range := (setup_sameDial register pushButton rolls).range
      green := fun h => by simp [setup] at h
      red := fun _ => Or.inr ⟨rfl, rfl, (by decide : 17 ∣ (255 : UInt8).toNat)⟩ }

/-- An iteration without a press keeps the selected channel.  When that is
RED, the other two values are untouched and RED takes a dialled value. -/
theorem loop_ledValue_red {c : Combolock} {i : Input} (hrange : c.ringcoder.range = 16)
    (hp : c.pressed i = false) (hred : c.ledCount = .red)
    (h : c.ledValue .blue = 255 ∧ c.ledValue .green = 255 ∧ 17 ∣ (c.ledValue .red).toNat) :
    (c.loop eeprom i).1.ledValue .blue = 255 ∧ (c.loop eeprom i).1.ledValue .green = 255 ∧
      17 ∣ ((c.loop eeprom i).1.ledValue .red).toNat := by
  obtain ⟨h0, hlt⟩ := readPosition_mem hrange i
  rw [loop_ledValue, hp, hred]
  simp only [Bool.false_eq_true, if_false]
  split_ifs
  · exact ⟨h.1, h.2.1, seventeen_dvd_dialled h0 hlt⟩
  · exact h

/-- Every iteration keeps the history. -/
theorem History.step {start : Combolock} {inputs : List Input}
    (h : History eeprom start inputs) (i : Input) :
    History eeprom start (inputs ++ [i]) := by
  have hcount := loop_ledCount eeprom ((sketch eeprom).run start inputs) i
  have hrange := loop_range eeprom ((sketch eeprom).run start inputs) i
  cases hp : ((sketch eeprom).run start inputs).pressed i with
  | false =>
    rw [hp] at hcount
    refine ⟨?_, fun hgreen => ?_, fun hred => ?_⟩ <;> rw [Machine.run_concat] at *
    · exact hrange.trans h.range
    · exact (h.green (hcount.symm.trans hgreen)).append eeprom i
    · have hred' := hcount.symm.trans hred
      rcases h.red hred' with ⟨hblue, hgreen⟩ | hfresh
      · exact Or.inl ⟨hblue.append eeprom i, hgreen.append eeprom i⟩
      · exact Or.inr (loop_ledValue_red eeprom h.range hp hred' hfresh)
  | true =>
    have hcommit := committed_of_pressed eeprom hp
    rw [hp] at hcount
    refine ⟨?_, fun hgreen => ?_, fun hred => ?_⟩ <;> rw [Machine.run_concat] at *
    · exact hrange.trans h.range
    · -- The press that selects GREEN has committed BLUE.
      have hblue : ((sketch eeprom).run start inputs).ledCount = .blue := by
        have hnext := hcount.symm.trans hgreen
        cases hc : ((sketch eeprom).run start inputs).ledCount <;> simp_all [LedCounter.next]
      rwa [hblue] at hcommit
    · -- The press that selects RED has committed GREEN, and BLUE came before.
      have hgreen : ((sketch eeprom).run start inputs).ledCount = .green := by
        have hnext := hcount.symm.trans hred
        cases hc : ((sketch eeprom).run start inputs).ledCount <;> simp_all [LedCounter.next]
      rw [hgreen] at hcommit
      exact Or.inl ⟨(h.green hgreen).append eeprom i, hcommit⟩

theorem run_history (register : ShiftRegister) (pushButton : Bool) (rolls : List Nat)
    (inputs : List Input) : History eeprom (setup register pushButton rolls).1 inputs := by
  induction inputs using List.reverseRecOn with
  | nil => exact setup_history eeprom register pushButton rolls
  | append_singleton inputs i ih => exact ih.step eeprom i

/-! ## The EEPROM contents that open too early -/

/-- A run after which the first press opens the lock: the knob goes one detent
past the value of RED and back, and then the button is pressed. -/
def earlyInputs (red : UInt8) : List Input :=
  [⟨4 * (red.toNat / 17 + 1 : Nat), false⟩, ⟨-4, false⟩]

/-- An iteration without an edge that turns the knob to an exact detent. -/
theorem loop_turn {c : Combolock} {counts n : Int} (hrange : c.ringcoder.range = 16)
    (henc : c.ringcoder.enc + counts = 4 * n) :
    let c' := (c.loop eeprom ⟨counts, false⟩).1
    c'.ledCount = c.ledCount ∧
      (c'.ringcoder.range = 16 ∧ c'.ringcoder.enc = 4 * n ∧
        c'.ringcoder.pushButton = c.ringcoder.pushButton ∧
        c'.ringcoder.encoderPosition = n % 16) ∧
      c'.ledValue =
        if n % 16 ≠ c.ringcoder.encoderPosition then
          Function.update c.ledValue c.ledCount (dialled (n % 16))
        else c.ledValue := by
  intro c'
  have hp : c.pressed ⟨counts, false⟩ = false := rfl
  have hdial := loop_ringcoder eeprom c ⟨counts, false⟩
  have hcount := loop_ledCount eeprom c ⟨counts, false⟩
  have hvalue := loop_ledValue eeprom c ⟨counts, false⟩
  have hpos : (c.readInputs ⟨counts, false⟩).ringcoder.encoderPosition = n % 16 := by
    show RingCoder.positiveModulo ((c.ringcoder.enc + counts).tdiv 4) c.ringcoder.range = _
    rw [henc, hrange, Int.mul_tdiv_cancel_left _ (by decide)]
    exact CInt.floorMod_eq_emod (by decide) n
  have hmoved : (c.readInputs ⟨counts, false⟩).ringcoder.moved =
      decide ((c.readInputs ⟨counts, false⟩).ringcoder.encoderPosition ≠
        c.ringcoder.encoderPosition) := rfl
  rw [hp] at hcount hdial hvalue
  refine ⟨hcount, ⟨hdial.range.trans hrange, hdial.enc.trans henc, ?_, ?_⟩, ?_⟩
  · exact hdial.pushButton.trans (Bool.xor_false _)
  · exact hdial.encoderPosition.trans hpos
  · rw [hvalue, hmoved, hpos]
    simp

/-- Past a detent and back to it: RED holds the value of the detent. -/
theorem run_early {c : Combolock} (hrange : c.ringcoder.range = 16)
    (henc : c.ringcoder.enc = 0) (hred : c.ledCount = .red) {k : Nat} (hk : k < 16) :
    let c' := (sketch eeprom).run c [⟨4 * (k + 1 : Nat), false⟩, ⟨-4, false⟩]
    c'.ledCount = .red ∧ c'.ringcoder.pushButton = c.ringcoder.pushButton ∧
      c'.ledValue = Function.update c.ledValue .red (dialled k) := by
  intro c'
  obtain ⟨hred1, ⟨hrange1, henc1, hbutton1, hpos1⟩, hvalue1⟩ :=
    loop_turn eeprom (c := c) (n := (k + 1 : Nat)) hrange (by rw [henc, zero_add])
  have hback : ((c.loop eeprom ⟨4 * (k + 1 : Nat), false⟩).1).ringcoder.enc + -4 =
      4 * (k : Int) := by
    rw [henc1]
    omega
  obtain ⟨hred2, ⟨_, _, hbutton2, _⟩, hvalue2⟩ := loop_turn eeprom hrange1 hback
  have hmod : (k : Int) % 16 = k := by omega
  have hmoved : (k : Int) ≠ ((k + 1 : Nat) : Int) % 16 := by omega
  refine ⟨hred2.trans (hred1.trans hred), hbutton2.trans hbutton1, hvalue2.trans ?_⟩
  rw [hmod, hpos1, if_pos hmoved, hred1, hred, hvalue1, hred]
  split_ifs
  · exact Function.update_idem _ _ _
  · rfl

/-- The early run from power-up. -/
theorem early_run {k : Nat} (hk : k < 16) :
    let c := (sketch eeprom).run (setup ⟨0, 0⟩ false (List.replicate 16 0)).1
      [⟨4 * (k + 1 : Nat), false⟩, ⟨-4, false⟩]
    c.ledCount = .red ∧ c.ringcoder.pushButton = false ∧
      c.ledValue = Function.update (fun _ => 255) .red (dialled k) := by
  have hstart := setup_sameDial ⟨0, 0⟩ false (List.replicate 16 0)
  obtain ⟨hred, hbutton, hvalue⟩ :=
    run_early eeprom (c := (setup ⟨0, 0⟩ false (List.replicate 16 0)).1) hstart.range
      hstart.enc rfl hk
  exact ⟨hred, hbutton.trans hstart.pushButton, hvalue⟩

theorem not_committed_early (red : UInt8) (start : Combolock) (channel : LedCounter) :
    ¬ Committed eeprom start (earlyInputs red) channel := by
  rintro ⟨pre, i, post, hinputs, hp, _⟩
  have hmem : i ∈ earlyInputs red := by
    rw [hinputs]
    simp
  have hflat : i.stateChanged = false := by
    simp only [earlyInputs, List.mem_cons, List.not_mem_nil, or_false] at hmem
    rcases hmem with rfl | rfl <;> rfl
  simp [pressed, hflat] at hp

/-- An edge while the button is low is a press. -/
theorem pressed_of_low {c : Combolock} (h : c.ringcoder.pushButton = false) :
    c.pressed ⟨0, true⟩ = true := by
  show (true && xor c.ringcoder.pushButton true) = true
  rw [h]
  rfl

/-- The lock opens only for a dialled combination, in every run from power-up,
exactly for the EEPROM contents that the first press cannot match. -/
theorem opens_dialled_iff :
    (∀ (register : ShiftRegister) (pushButton : Bool) (rolls : List Nat)
        (inputs : List Input) (i : Input),
      OpensDialled eeprom (setup register pushButton rolls).1 inputs i) ↔
      ¬ (eeprom .blue = 255 ∧ eeprom .green = 255 ∧ 17 ∣ (eeprom .red).toNat) := by
  constructor
  · rintro hall ⟨hblue, hgreen, hred⟩
    obtain ⟨k, hk⟩ := hred
    have hlt : k < 16 := by
      have := (eeprom .red).toNat_lt
      omega
    obtain ⟨hc, hbutton, hvalues⟩ := early_run eeprom hlt
    have hinputs : earlyInputs (eeprom .red) = [⟨4 * (k + 1 : Nat), false⟩, ⟨-4, false⟩] := by
      simp [earlyInputs, hk]
    have hdial : eeprom .red = dialled k := by
      have hall : ∀ p : Fin 16, UInt8.ofNat (17 * p.val) = dialled (p.val : Int) := by decide
      rw [← hall ⟨k, hlt⟩, ← hk, UInt8.ofNat_toNat]
    rw [← hinputs] at hc hbutton hvalues
    have hopen := hall ⟨0, 0⟩ false (List.replicate 16 0) (earlyInputs (eeprom .red)) ⟨0, true⟩
      ((secretWord_mem_loop eeprom _ _).mpr ⟨?_, hc, ?_⟩)
    · exact not_committed_early eeprom _ _ _ hopen.2.1.1
    · exact pressed_of_low hbutton
    · unfold Matches
      rw [hvalues]
      exact ⟨hdial, hgreen, hblue⟩
  · intro hearly register pushButton rolls inputs i hout
    obtain ⟨hp, hc, hr, hg, hb⟩ := (secretWord_mem_loop eeprom _ i).mp hout
    refine ⟨⟨hp, hc⟩, ?_, hr.symm, hg.symm, hb.symm⟩
    rcases (run_history eeprom register pushButton rolls inputs).red hc with hdone | hfresh
    · exact hdone
    · exact absurd ⟨hb.trans hfresh.1, hg.trans hfresh.2.1, by rw [hr]; exact hfresh.2.2⟩ hearly

/-- An erased EEPROM, with `0xFF` in every byte, opens at the first press
although no channel was dialled. -/
theorem erased_opens_undialled :
    ¬ OpensDialled (fun _ => 255) (setup ⟨0, 0⟩ false (List.replicate 16 0)).1 [] ⟨0, true⟩ := by
  intro h
  have hopen := h ((secretWord_mem_loop (fun _ => 255) _ _).mpr (by decide))
  obtain ⟨pre, i, post, hnil, _⟩ := hopen.2.1.1
  simp at hnil

end ArduinoProjects.Combolock
