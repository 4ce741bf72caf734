import ArduinoProjects.RingCoder.Position
import Mathlib.Data.Int.ModEq
import Mathlib.Logic.Function.Iterate

/-!
# Detents, counts and positions

The dial has four counts to a detent.  `readEncoder` divides the count by
`ENCODER_STEP` and reduces the quotient modulo the range, and `writeEncoder`
multiplies by `ENCODER_STEP`.

The division truncates.  So the counts `-3 .. 3` all belong to position `0`,
which is seven counts where every other position has four, and `positive_modulo`
comes too late to tell the negative ones apart.  `positionAt_add_iff` says where
this is felt.

`writeEncoder` keeps its argument as it comes and leaves `_moved` alone.
`roundTrips_iff` says when a read after the write finds nothing new.
-/

namespace ArduinoProjects.RingCoder

/-! ## The position of a count -/

/-- The position that `readEncoder` computes when the hardware count is `count`. -/
def positionAt (rc : RingCoder) (count : Int) : Int :=
  ({ rc with enc := count } : RingCoder).readEncoder.encoderPosition

/-- The counts around `count` that have its position are four in a row. -/
def FourCounts (rc : RingCoder) (count : Int) : Prop :=
  ∃ first : Int, first ≤ count ∧ count < first + encoderStep ∧
    (∀ c, first ≤ c → c < first + encoderStep → rc.positionAt c = rc.positionAt count) ∧
    rc.positionAt (first - 1) ≠ rc.positionAt count ∧
    rc.positionAt (first + encoderStep) ≠ rc.positionAt count

theorem positionAt_eq {rc : RingCoder} (hrange : 0 < rc.range) (count : Int) :
    rc.positionAt count = count.tdiv encoderStep % rc.range :=
  CInt.floorMod_eq_emod hrange _

/-- The truncated quotient is the floor of the count for a non-negative count
and of the count plus three for a negative one. -/
theorem tdiv_encoderStep_eq (count : Int) :
    count.tdiv encoderStep = (if 0 ≤ count then count else count + 3) / 4 := by
  rw [encoderStep, Int.tdiv_eq_ediv]
  split_ifs with h h0 h0
  · omega
  · have hdvd : (4 : Int) ∣ count := h.resolve_left h0
    omega
  · exact absurd (Or.inl h0) h
  · have hdvd : ¬ (4 : Int) ∣ count := fun hdvd => h (Or.inr hdvd)
    show count / 4 + 1 = (count + 3) / 4
    omega

/-- The quotients next to each other are different positions, unless there is
only one position. -/
theorem emod_eq_emod_succ_iff {n : Int} (hn : 0 < n) (a : Int) :
    a % n = (a + 1) % n ↔ n = 1 := by
  constructor
  · intro h
    have hdvd : n ∣ a + 1 - a := Int.modEq_iff_dvd.mp h
    exact Int.eq_one_of_dvd_one hn.le (by rwa [add_sub_cancel_left] at hdvd)
  · rintro rfl
    rw [Int.emod_one, Int.emod_one]

/-- Four counts further the quotient is one more, except from a count that the
truncation takes to `0` from below. -/
theorem tdiv_encoderStep_add (count : Int) :
    (count + encoderStep).tdiv encoderStep =
      count.tdiv encoderStep + if -encoderStep < count ∧ count < 0 then 0 else 1 := by
  rw [tdiv_encoderStep_eq, tdiv_encoderStep_eq, encoderStep]
  split_ifs <;> omega

/-- Four counts further is one position further, unless the count is one of
`-3 .. -1`. -/
theorem positionAt_add_encoderStep {rc : RingCoder} (hrange : 0 < rc.range) (count : Int) :
    rc.positionAt (count + encoderStep) = (rc.positionAt count + 1) % rc.range ↔
      ¬ (-encoderStep < count ∧ count < 0) ∨ rc.range = 1 := by
  rw [positionAt_eq hrange, positionAt_eq hrange, tdiv_encoderStep_add, Int.emod_add_emod]
  split_ifs with h
  · rw [Int.add_zero, emod_eq_emod_succ_iff hrange]
    exact ⟨Or.inr, fun h' => h'.resolve_left (not_not_intro h)⟩
  · exact iff_of_true rfl (Or.inl h)

/-- Where the quotient is a floor, the counts of a position are four in a row. -/
theorem fourCounts_of_floor {rc : RingCoder} (hrange : 1 < rc.range) {count : Int} (shift : Int)
    (hquot : ∀ c, count - 4 ≤ c → c ≤ count + 4 → c.tdiv encoderStep = (c + shift) / 4) :
    FourCounts rc count := by
  have hpos : 0 < rc.range := by omega
  have hcount := hquot count (by omega) (by omega)
  refine ⟨4 * ((count + shift) / 4) - shift, by omega, ?_, ?_, ?_, ?_⟩
  · simp only [encoderStep]
    omega
  · intro c hle hlt
    simp only [encoderStep] at hlt
    have hsame : (c + shift) / 4 = (count + shift) / 4 := by omega
    rw [positionAt_eq hpos, positionAt_eq hpos, hcount, hquot c (by omega) (by omega), hsame]
  · -- the count below the stretch has the quotient before
    have hbefore : (4 * ((count + shift) / 4) - shift - 1 + shift) / 4 =
        (count + shift) / 4 - 1 := by omega
    rw [positionAt_eq hpos, positionAt_eq hpos, hcount, hquot _ (by omega) (by omega), hbefore]
    intro h
    have hsucc := (emod_eq_emod_succ_iff hpos ((count + shift) / 4 - 1)).mp
    rw [Int.sub_add_cancel] at hsucc
    have hone := hsucc h
    omega
  · -- and the count above it the quotient after
    have hafter : (4 * ((count + shift) / 4) - shift + 4 + shift) / 4 =
        (count + shift) / 4 + 1 := by omega
    show rc.positionAt (4 * ((count + shift) / 4) - shift + 4) ≠ rc.positionAt count
    rw [positionAt_eq hpos, positionAt_eq hpos, hcount, hquot _ (by omega) (by omega), hafter]
    intro h
    have hone := (emod_eq_emod_succ_iff hpos _).mp h.symm
    omega

/-- The counts with the position of `count` are four in a row exactly when the
truncation does not take `count` to `0`. -/
theorem fourCounts_iff {rc : RingCoder} (hrange : 1 < rc.range) (count : Int) :
    FourCounts rc count ↔ count ≤ -encoderStep ∨ encoderStep ≤ count := by
  have hpos : 0 < rc.range := by omega
  constructor
  · rintro ⟨first, hle, hlt, _, hbefore, hafter⟩
    by_contra hnear
    simp only [encoderStep] at hle hlt hafter hnear
    have hzero : ∀ c : Int, -4 < c → c < 4 → rc.positionAt c = 0 := by
      intro c hgt hlt
      have hquot : c.tdiv encoderStep = 0 := by
        rw [tdiv_encoderStep_eq]
        split_ifs <;> omega
      rw [positionAt_eq hpos, hquot, Int.zero_emod]
    rw [hzero count (by omega) (by omega)] at hbefore hafter
    -- the stretch leaves out a neighbour that the truncation takes to 0 as well
    rcases lt_or_ge (-4) (first - 1) with h | h
    · exact hbefore (hzero (first - 1) h (by omega))
    · exact hafter (hzero (first + 4) (by omega) (by omega))
  · simp only [encoderStep]
    rintro (hneg | hnonneg)
    · apply fourCounts_of_floor hrange 3
      intro c _ hle
      rw [tdiv_encoderStep_eq]
      split_ifs <;> omega
    · apply fourCounts_of_floor hrange 0
      intro c hge _
      rw [tdiv_encoderStep_eq, if_pos (by omega), Int.add_zero]

/-- One detent is one position exactly from the counts outside `-3 .. -1`, and
a position has exactly four counts around every count outside `-3 .. 3`. -/
theorem one_detent_iff (rc : RingCoder) (hrange : 0 < rc.range) (count : Int) :
    (rc.positionAt (count + encoderStep) = (rc.positionAt count + 1) % rc.range ↔
      ¬ (-encoderStep < count ∧ count < 0) ∨ rc.range = 1) ∧
    (1 < rc.range →
      (FourCounts rc count ↔ count ≤ -encoderStep ∨ encoderStep ≤ count)) :=
  ⟨positionAt_add_encoderStep hrange count, fun h => fourCounts_iff h count⟩

/-- The dial of 16 positions at rest on the count `5`. -/
theorem one_detent_five :
    (construct ⟨0, 0⟩ false).1.positionAt 9 =
      ((construct ⟨0, 0⟩ false).1.positionAt 5 + 1) % 16 ∧
    FourCounts (construct ⟨0, 0⟩ false).1 5 := by
  have h := one_detent_iff (construct ⟨0, 0⟩ false).1 (by decide) 5
  exact ⟨h.1.mpr (by decide), (h.2 (by decide)).mpr (by decide)⟩

/-- One detent up from the count `-1` stays at position `0`. -/
theorem detent_from_neg_one :
    (construct ⟨0, 0⟩ false).1.positionAt (-1 + encoderStep) ≠
      ((construct ⟨0, 0⟩ false).1.positionAt (-1) + 1) % 16 := by
  decide

/-! ## A write and the reads after it -/

/-- The write and the first `reads` reads after it, with the knob at rest, agree
on the position, and no movement is reported. -/
structure RoundTrips (rc : RingCoder) (newPosition : Int) (reads : Nat) : Prop where
  written : (rc.writeEncoder newPosition).moved = false
  read : ∀ k < reads, (readEncoder^[k + 1] (rc.writeEncoder newPosition)).encoderPosition =
      newPosition % rc.range ∧
    InRange (readEncoder^[k + 1] (rc.writeEncoder newPosition)) ∧
    (readEncoder^[k + 1] (rc.writeEncoder newPosition)).moved = false

/-- The first read after a write reduces the position. -/
theorem readEncoder_writeEncoder {rc : RingCoder} (hrange : 0 < rc.range) (newPosition : Int) :
    (rc.writeEncoder newPosition).readEncoder =
      { rc with
        encoderPosition := newPosition % rc.range
        moved := decide (newPosition % rc.range ≠ newPosition)
        enc := newPosition * encoderStep } := by
  rw [readEncoder, writeEncoder]
  simp only [tdiv_encoderStep, positiveModulo, CInt.floorMod_eq_emod hrange]

/-- A second read with the knob at rest finds what the first one found. -/
theorem readEncoder_readEncoder (rc : RingCoder) :
    rc.readEncoder.readEncoder = { rc.readEncoder with moved := false } := by
  simp [readEncoder]

theorem iterate_readEncoder (rc : RingCoder) (k : Nat) :
    readEncoder^[k + 2] rc = { rc.readEncoder with moved := false } := by
  induction k with
  | zero => exact readEncoder_readEncoder rc
  | succ k ih =>
    rw [Function.iterate_succ_apply', ih]
    exact readEncoder_readEncoder rc

/-- Every read after the write of a position in range returns that position and
reports no movement. -/
theorem iterate_readEncoder_writeEncoder {rc : RingCoder} {newPosition : Int}
    (h0 : 0 ≤ newPosition) (hlt : newPosition < rc.range) (k : Nat) :
    readEncoder^[k + 1] (rc.writeEncoder newPosition) =
      { rc with
        encoderPosition := newPosition
        moved := false
        enc := newPosition * encoderStep } := by
  have hrange : 0 < rc.range := by omega
  have hread := readEncoder_writeEncoder hrange newPosition
  simp only [Int.emod_eq_of_lt h0 hlt, ne_eq, not_true_eq_false, decide_false] at hread
  cases k with
  | zero => exact hread
  | succ k => rw [iterate_readEncoder, hread]

/-- The write and the reads after it agree exactly when no movement was pending
at the write and, if there is a read, the written position is in range. -/
theorem roundTrips_iff (rc : RingCoder) (hrange : 0 < rc.range) (newPosition : Int)
    (reads : Nat) :
    RoundTrips rc newPosition reads ↔
      rc.moved = false ∧ (reads = 0 ∨ 0 ≤ newPosition ∧ newPosition < rc.range) := by
  constructor
  · intro h
    refine ⟨h.written, ?_⟩
    rcases Nat.eq_zero_or_pos reads with hreads | hreads
    · exact Or.inl hreads
    · -- the first read reports a movement when the reduction changes the position
      have hmoved := (h.read 0 hreads).2.2
      rw [Function.iterate_one, readEncoder_writeEncoder hrange, decide_eq_false_iff_not,
        not_ne_iff] at hmoved
      rw [← hmoved]
      exact Or.inr ⟨Int.emod_nonneg _ hrange.ne', Int.emod_lt_of_pos _ hrange⟩
  · rintro ⟨hmoved, hwritten⟩
    refine ⟨hmoved, fun k hk => ?_⟩
    obtain ⟨h0, hlt⟩ := hwritten.resolve_left (by omega)
    rw [iterate_readEncoder_writeEncoder h0 hlt, Int.emod_eq_of_lt h0 hlt]
    exact ⟨rfl, ⟨h0, hlt⟩, rfl⟩

/-- Three reads after position `5` is written to the dial of 16 positions. -/
theorem roundTrips_five : RoundTrips (construct ⟨0, 0⟩ false).1 5 3 :=
  (roundTrips_iff _ (by decide) 5 3).mpr (by decide)

/-- The first read after a write of `16` returns `0` and reports a movement. -/
theorem not_roundTrips_sixteen : ¬ RoundTrips (construct ⟨0, 0⟩ false).1 16 1 := by
  intro h
  exact absurd (h.read 0 (by decide)).2.2 (by decide)

end ArduinoProjects.RingCoder
