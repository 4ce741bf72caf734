import ArduinoProjects.Lib.Signed
import ArduinoProjects.RingCoder.Position

/-!
# The arithmetic of the dial in 32 bits

`setEncoderRange` refuses a range that is not positive and accepts all others.  The
functions below compute with positions up to the range in an `int` or a `long`, and
none of them checks anything.

They are the functions of the object once more, with the operators that can overflow
on 32 bits.  Where nothing overflows they agree with those over the integers, which is
what `readEncoder32_eq`, `calculateShift32_eq`, `spinTheWheel32_eq` and
`writeEncoder32_eq` say.

A read of the count `-4` gives the position `range - 1`, so every range is felt in
full.  `overflowFree_iff` has the bound of each function.
-/

namespace ArduinoProjects.RingCoder

open CInt (Fits)

/-! ## The functions in 32 bits -/

/-- `RingCoder::readEncoder` -/
def readEncoder32 (rc : RingCoder) : Option RingCoder := do
  let detents ← CInt.div 32 rc.enc encoderStep
  let newPosition ← CInt.signedFloorMod 32 detents rc.range
  return { rc with
    moved := decide (newPosition ≠ rc.encoderPosition)
    encoderPosition := newPosition }

/-- `RingCoder::calculateShift(bool)` -/
def calculateShift32 (rc : RingCoder) (fill : Bool) : Option Nat := do
  let scaled ← CInt.mul 32 ledCount rc.encoderPosition
  let pos ← CInt.div 32 scaled rc.range
  return calculateShiftAt fill pos

/-- `RingCoder::spin_the_wheel`.  Its other delays are computed without a sign. -/
def spinTheWheel32 (rc : RingCoder) (randNumber : Nat) : Option (RingCoder × List Output) := do
  let rc ← rc.readEncoder32
  let scaled ← CInt.mul 32 rc.encoderPosition 50
  let scaleDelay ← CInt.div 32 scaled rc.range
  let _ ← CInt.mul 32 scaleDelay 2 -- delay(scaleDelay * 2)
  return rc.setShifts ((List.range randNumber).map (fun i => 1 <<< (i % 16)))

/-- `RingCoder::writeEncoder` -/
def writeEncoder32 (rc : RingCoder) (newPosition : Int) : Option RingCoder := do
  let counts ← CInt.mul 32 newPosition encoderStep
  return { rc with
    encoderPosition := newPosition
    enc := counts }

/-! ## What should not overflow -/

/-- The object after `setEncoderRange(range)` with the knob at some count. -/
def withRange (rc : RingCoder) (range count : Int) : RingCoder :=
  { rc.setEncoderRange range with enc := count }

def ReadsSafely (rc : RingCoder) : Prop := rc.readEncoder32.isSome

/-- The position that is read can be shown. -/
def ShowsSafely (rc : RingCoder) : Prop :=
  ∀ rc' ∈ rc.readEncoder32, ∀ fill, (rc'.calculateShift32 fill).isSome

def SpinsSafely (rc : RingCoder) : Prop := ∀ randNumber, (rc.spinTheWheel32 randNumber).isSome

/-- The position that is read can be written back. -/
def WritesSafely (rc : RingCoder) : Prop :=
  ∀ rc' ∈ rc.readEncoder32, (rc'.writeEncoder32 rc'.encoderPosition).isSome

/-- Nothing overflows at the count where the knob stands. -/
structure OverflowFree (rc : RingCoder) : Prop where
  reads : ReadsSafely rc
  shows : ShowsSafely rc
  spins : SpinsSafely rc
  writes : WritesSafely rc

/-- A property of the object with some range, wherever the knob stands. -/
def AtEveryCount (P : RingCoder → Prop) (rc : RingCoder) (range : Int) : Prop :=
  ∀ count, Fits 32 count → P (rc.withRange range count)

/-! ## The functions where nothing overflows -/

theorem readEncoder32_eq {rc : RingCoder} (hrange : 0 < rc.range) (henc : Fits 32 rc.enc) :
    rc.readEncoder32 =
      if (rc.enc.tdiv encoderStep).tmod rc.range + rc.range < 2 ^ 31 then some rc.readEncoder
      else none := by
  have hstep : 0 < encoderStep := by decide
  rw [readEncoder32, CInt.div_of_pos henc hstep, Option.bind_eq_bind, Option.bind_some,
    CInt.signedFloorMod_eq hrange (henc.tdiv hstep)]
  split_ifs <;> rfl

theorem calculateShift32_eq {rc : RingCoder} (h : InRange rc) (fill : Bool) :
    rc.calculateShift32 fill =
      if ledCount * rc.encoderPosition < 2 ^ 31 then some (rc.calculateShift fill) else none := by
  obtain ⟨h0, hlt⟩ := h
  have hscaled : 0 ≤ ledCount * rc.encoderPosition := mul_nonneg (by decide) h0
  rw [calculateShift32, CInt.mul, CInt.signed_of_nonneg hscaled]
  split_ifs with hfits
  · have hdiv := CInt.div_of_pos ((CInt.fits_iff_of_nonneg hscaled).mpr hfits)
      (h0.trans_lt hlt)
    rw [Option.bind_eq_bind, Option.bind_some, hdiv]
    rfl
  · rfl

theorem writeEncoder32_eq {rc : RingCoder} {newPosition : Int} (h0 : 0 ≤ newPosition) :
    rc.writeEncoder32 newPosition =
      if newPosition * encoderStep < 2 ^ 31 then some (rc.writeEncoder newPosition)
      else none := by
  have hcounts : 0 ≤ newPosition * encoderStep := mul_nonneg h0 (by decide)
  rw [writeEncoder32, CInt.mul, CInt.signed_of_nonneg hcounts]
  split_ifs <;> rfl

/-- The delay is less than 50 for every position, so only the product overflows. -/
theorem spinTheWheel32_eq {rc rc' : RingCoder} (hread : rc.readEncoder32 = some rc')
    (h : InRange rc') (randNumber : Nat) :
    rc.spinTheWheel32 randNumber =
      if rc'.encoderPosition * 50 < 2 ^ 31 then
        some (rc'.setShifts ((List.range randNumber).map (fun i => 1 <<< (i % 16))))
      else none := by
  obtain ⟨h0, hlt⟩ := h
  have hpos : 0 < rc'.range := h0.trans_lt hlt
  have hscaled : 0 ≤ rc'.encoderPosition * 50 := mul_nonneg h0 (by decide)
  have hdelay : 0 ≤ (rc'.encoderPosition * 50).tdiv rc'.range := Int.tdiv_nonneg hscaled hpos.le
  have hlt50 : (rc'.encoderPosition * 50).tdiv rc'.range < 50 := by
    rw [Int.tdiv_eq_ediv_of_nonneg hscaled]
    exact Int.ediv_lt_of_lt_mul hpos (by omega)
  have htwice : CInt.mul 32 ((rc'.encoderPosition * 50).tdiv rc'.range) 2 =
      some ((rc'.encoderPosition * 50).tdiv rc'.range * 2) :=
    CInt.signed_of_fits ((CInt.fits_iff_of_nonneg (by omega)).mpr (by omega))
  rw [spinTheWheel32, hread, Option.bind_eq_bind, Option.bind_some, CInt.mul,
    CInt.signed_of_nonneg hscaled]
  split_ifs with hfits
  · have hdiv := CInt.div_of_pos ((CInt.fits_iff_of_nonneg hscaled).mpr hfits) hpos
    rw [Option.bind_eq_bind, Option.bind_some, hdiv, Option.bind_some, htwice]
    rfl
  · rfl

/-! ## One count -/

theorem withRange_range (rc : RingCoder) {range : Int} (hrange : 0 < range) (count : Int) :
    (rc.withRange range count).range = range := by
  rw [withRange, setEncoderRange, if_pos hrange]

/-- The sum in `positive_modulo` overflows for large remainders only. -/
theorem readsSafely_iff {rc : RingCoder} (hrange : 0 < rc.range) (henc : Fits 32 rc.enc) :
    ReadsSafely rc ↔ (rc.enc.tdiv encoderStep).tmod rc.range + rc.range < 2 ^ 31 := by
  rw [ReadsSafely, readEncoder32_eq hrange henc, Option.isSome_ite]

/-- The remainder of a count that is not positive leaves room for every range. -/
theorem readsSafely_of_nonpos {rc : RingCoder} (hrange : 0 < rc.range) (hfits : Fits 32 rc.range)
    (henc : Fits 32 rc.enc) (h : rc.enc ≤ 0) : ReadsSafely rc := by
  have hquot : rc.enc.tdiv encoderStep ≤ 0 := by
    have hle := Int.tdiv_le_tdiv (show 0 < encoderStep by decide) h
    rwa [Int.zero_tdiv] at hle
  have hmod := CInt.tmod_le hrange le_rfl hquot
  have hlt := hfits.2
  rw [readsSafely_iff hrange henc]
  omega

/-- A read that overflows nothing is the one over the integers. -/
theorem eq_readEncoder_of_mem {rc rc' : RingCoder} (hrange : 0 < rc.range) (henc : Fits 32 rc.enc)
    (hread : rc' ∈ rc.readEncoder32) : rc' = rc.readEncoder := by
  rw [Option.mem_def, readEncoder32_eq hrange henc] at hread
  split_ifs at hread
  exact (Option.some.inj hread).symm

/-- The position that is read is at most the bound, if there is one. -/
def PositionLe (bound : Int) (rc : RingCoder) : Prop :=
  ∀ rc' ∈ rc.readEncoder32, rc'.encoderPosition ≤ bound

theorem inRange_of_mem {rc rc' : RingCoder} (hrange : 0 < rc.range) (henc : Fits 32 rc.enc)
    (hread : rc' ∈ rc.readEncoder32) : InRange rc' := by
  rw [eq_readEncoder_of_mem hrange henc hread]
  exact readEncoder_inRange hrange

theorem showsSafely_iff {rc : RingCoder} (hrange : 0 < rc.range) (henc : Fits 32 rc.enc) :
    ShowsSafely rc ↔ PositionLe 134217727 rc := by
  refine forall₂_congr fun rc' hread => ?_
  have hfits (fill : Bool) : (rc'.calculateShift32 fill).isSome ↔
      rc'.encoderPosition ≤ 134217727 := by
    rw [calculateShift32_eq (inRange_of_mem hrange henc hread), Option.isSome_ite, ledCount]
    omega
  exact ⟨fun h => (hfits true).mp (h true), fun h fill => (hfits fill).mpr h⟩

theorem writesSafely_iff {rc : RingCoder} (hrange : 0 < rc.range) (henc : Fits 32 rc.enc) :
    WritesSafely rc ↔ PositionLe 536870911 rc := by
  refine forall₂_congr fun rc' hread => ?_
  rw [writeEncoder32_eq (inRange_of_mem hrange henc hread).1, Option.isSome_ite, encoderStep]
  omega

theorem spinsSafely_iff {rc : RingCoder} (hrange : 0 < rc.range) (henc : Fits 32 rc.enc) :
    SpinsSafely rc ↔ ReadsSafely rc ∧ PositionLe 42949672 rc := by
  unfold SpinsSafely ReadsSafely PositionLe
  cases hread : rc.readEncoder32 with
  | none =>
    have hnone (randNumber : Nat) : rc.spinTheWheel32 randNumber = none := by
      rw [spinTheWheel32, hread, Option.bind_eq_bind, Option.bind_none]
    simp [hnone]
  | some rc' =>
    have hfits (randNumber : Nat) : (rc.spinTheWheel32 randNumber).isSome ↔
        rc'.encoderPosition ≤ 42949672 := by
      rw [spinTheWheel32_eq hread (inRange_of_mem hrange henc hread), Option.isSome_ite]
      omega
    simp [hfits]

/-- The wheel has the largest factor, so it decides for the display and the write. -/
theorem overflowFree_iff_spinsSafely {rc : RingCoder} (hrange : 0 < rc.range)
    (henc : Fits 32 rc.enc) : OverflowFree rc ↔ SpinsSafely rc := by
  constructor
  · exact OverflowFree.spins
  · intro hspins
    obtain ⟨hreads, hle⟩ := (spinsSafely_iff hrange henc).mp hspins
    refine ⟨hreads, (showsSafely_iff hrange henc).mpr ?_, hspins,
      (writesSafely_iff hrange henc).mpr ?_⟩
    · intro rc' hread
      exact (hle rc' hread).trans (by decide)
    · intro rc' hread
      exact (hle rc' hread).trans (by decide)

/-- At one count: the position that the count belongs to is small enough for the
wheel, and a count that is not negative leaves room for the sum. -/
theorem overflowFree_count_iff {rc : RingCoder} (hrange : 0 < rc.range) (hfits : Fits 32 rc.range)
    (henc : Fits 32 rc.enc) :
    OverflowFree rc ↔ rc.enc.tdiv encoderStep % rc.range ≤ 42949672 ∧
      (0 ≤ rc.enc → rc.enc.tdiv encoderStep % rc.range + rc.range < 2 ^ 31) := by
  have hposition : rc.readEncoder.encoderPosition = rc.enc.tdiv encoderStep % rc.range :=
    CInt.floorMod_eq_emod hrange _
  have hsum : ReadsSafely rc ↔
      (0 ≤ rc.enc → rc.enc.tdiv encoderStep % rc.range + rc.range < 2 ^ 31) := by
    rcases le_or_gt 0 rc.enc with h0 | hneg
    · rw [readsSafely_iff hrange henc,
        Int.tmod_eq_emod_of_nonneg (Int.tdiv_nonneg h0 (by decide))]
      exact ⟨fun h _ => h, fun h => h h0⟩
    · refine iff_of_true (readsSafely_of_nonpos hrange hfits henc hneg.le) ?_
      intro h0
      omega
  rw [overflowFree_iff_spinsSafely hrange henc, spinsSafely_iff hrange henc, ← hsum, and_comm]
  refine and_congr_left fun hreads => ?_
  rw [← hposition]
  obtain ⟨rc', hread⟩ := Option.isSome_iff_exists.mp hreads
  have hrc' := eq_readEncoder_of_mem hrange henc hread
  rw [hrc'] at hread
  simp [PositionLe, hread]

/-! ## All counts -/

/-- The quotients reach up to `2 ^ 29 - 1`, and so do the remainders of a larger
range. -/
theorem everyRead_iff (rc : RingCoder) {range : Int} (hrange : 0 < range) :
    AtEveryCount ReadsSafely rc range ↔ range ≤ 1610612736 := by
  have hreads (count : Int) (hcount : Fits 32 count) : ReadsSafely (rc.withRange range count) ↔
      (count.tdiv encoderStep).tmod range + range < 2 ^ 31 := by
    have hpos : 0 < (rc.withRange range count).range := by rwa [withRange_range rc hrange]
    have h := readsSafely_iff hpos (show Fits 32 (rc.withRange range count).enc from hcount)
    rwa [withRange_range rc hrange] at h
  constructor
  · intro h
    by_contra hlarge
    -- the largest count, whose quotient is its own remainder
    have hmax := (hreads 2147483647 (by decide)).mp (h _ (by decide))
    have hquot : (2147483647 : Int).tdiv encoderStep = 536870911 := by decide
    rw [hquot, Int.tmod_eq_emod_of_nonneg (by decide), Int.emod_eq_of_lt (by decide) (by omega)]
      at hmax
    omega
  · intro hle count hcount
    rw [hreads count hcount]
    have hmax : count ≤ 2147483647 := by
      have hlt := hcount.2
      omega
    have hquot : count.tdiv encoderStep ≤ 536870911 :=
      Int.tdiv_le_tdiv (show 0 < encoderStep by decide) hmax
    have hmod := CInt.tmod_le hrange (by decide) hquot
    omega

/-- One detent back from zero is the last position. -/
theorem readEncoder_of_detentBack {rc : RingCoder} (hrange : 0 < rc.range) (henc : rc.enc = -4) :
    rc.readEncoder.encoderPosition = rc.range - 1 := by
  have hquot : rc.enc.tdiv encoderStep = -1 := by
    rw [henc]
    decide
  show CInt.floorMod (rc.enc.tdiv encoderStep) rc.range = rc.range - 1
  rw [hquot, CInt.floorMod_eq_emod hrange, ← Int.add_emod_right,
    Int.emod_eq_of_lt (by omega) (by omega)]
  omega

/-- Every range is read up to its last position. -/
theorem everyPosition_iff (rc : RingCoder) {range : Int} (hrange : 0 < range)
    (hfits : Fits 32 range) (bound : Int) :
    AtEveryCount (PositionLe bound) rc range ↔ range ≤ bound + 1 := by
  have hpos (count : Int) : 0 < (rc.withRange range count).range := by
    rwa [withRange_range rc hrange]
  constructor
  · intro h
    have hset := withRange_range rc hrange (-4)
    have henc : Fits 32 (rc.withRange range (-4)).enc := show Fits 32 (-4) by decide
    have hreads : ReadsSafely (rc.withRange range (-4)) := by
      apply readsSafely_of_nonpos (hpos _) _ henc (show (-4 : Int) ≤ 0 by decide)
      rwa [hset]
    obtain ⟨rc', hread⟩ := Option.isSome_iff_exists.mp hreads
    have hle := h (-4) henc rc' hread
    rw [eq_readEncoder_of_mem (hpos _) henc hread, readEncoder_of_detentBack (hpos _) rfl,
      hset] at hle
    omega
  · intro hle count hcount rc' hread
    have hmem := inRange_of_mem (hpos count) (show Fits 32 (rc.withRange range count).enc from
      hcount) hread
    rw [eq_readEncoder_of_mem (hpos count) hcount hread] at hmem ⊢
    have hlt : (rc.withRange range count).readEncoder.encoderPosition < range :=
      hmem.2.trans_eq (withRange_range rc hrange count)
    omega

/-- Properties that agree at every count hold alike at every count. -/
theorem atEveryCount_congr {P Q : RingCoder → Prop} {rc : RingCoder} {range : Int}
    (hrange : 0 < range)
    (h : ∀ rc' : RingCoder, 0 < rc'.range → Fits 32 rc'.enc → (P rc' ↔ Q rc')) :
    AtEveryCount P rc range ↔ AtEveryCount Q rc range := by
  refine forall₂_congr fun count hcount => h _ ?_ hcount
  rwa [withRange_range rc hrange]

theorem everySpin_iff (rc : RingCoder) {range : Int} (hrange : 0 < range)
    (hfits : Fits 32 range) : AtEveryCount SpinsSafely rc range ↔ range ≤ 42949673 := by
  have hreads := everyRead_iff rc hrange
  have hpositions := everyPosition_iff rc hrange hfits 42949672
  rw [atEveryCount_congr hrange fun _ hpos henc => spinsSafely_iff hpos henc]
  constructor
  · intro h
    exact hpositions.mp fun count hcount => (h count hcount).2
  · intro hle count hcount
    exact ⟨hreads.mpr (by omega) count hcount, hpositions.mpr hle count hcount⟩

/-- For every range that `setEncoderRange` accepts.  The first part is about one count.
The others say for which ranges each function, and all of them together, overflow at
no count. -/
theorem overflowFree_iff (rc : RingCoder) {range : Int} (hrange : 0 < range)
    (hfits : Fits 32 range) :
    (∀ count, Fits 32 count →
      (OverflowFree (rc.withRange range count) ↔
        count.tdiv encoderStep % range ≤ 42949672 ∧
          (0 ≤ count → count.tdiv encoderStep % range + range < 2 ^ 31))) ∧
    (AtEveryCount ReadsSafely rc range ↔ range ≤ 1610612736) ∧
    (AtEveryCount ShowsSafely rc range ↔ range ≤ 134217728) ∧
    (AtEveryCount SpinsSafely rc range ↔ range ≤ 42949673) ∧
    (AtEveryCount WritesSafely rc range ↔ range ≤ 536870912) ∧
    (AtEveryCount OverflowFree rc range ↔ range ≤ 42949673) := by
  refine ⟨?_, everyRead_iff rc hrange, ?_, everySpin_iff rc hrange hfits, ?_, ?_⟩
  · intro count hcount
    have hset := withRange_range rc hrange count
    have h := overflowFree_count_iff (show 0 < (rc.withRange range count).range by rwa [hset])
      (show Fits 32 (rc.withRange range count).range by rwa [hset]) hcount
    rwa [hset] at h
  · rw [atEveryCount_congr hrange fun _ hpos henc => showsSafely_iff hpos henc]
    exact everyPosition_iff rc hrange hfits 134217727
  · rw [atEveryCount_congr hrange fun _ hpos henc => writesSafely_iff hpos henc]
    exact everyPosition_iff rc hrange hfits 536870911
  · rw [atEveryCount_congr hrange fun _ hpos henc => overflowFree_iff_spinsSafely hpos henc]
    exact everySpin_iff rc hrange hfits

/-- The dial of 16 positions. -/
theorem overflowFree_sixteen : AtEveryCount OverflowFree (construct ⟨0, 0⟩ false).1 16 :=
  (overflowFree_iff _ (by decide) (by decide)).2.2.2.2.2.mpr (by decide)

/-- The wheel overflows at the last position of the least range that is too large. -/
theorem wheel_overflows :
    Fits 32 42949674 ∧ Fits 32 (-4) ∧
      ¬ OverflowFree ((construct ⟨0, 0⟩ false).1.withRange 42949674 (-4)) := by
  refine ⟨by decide, by decide, fun h => ?_⟩
  exact absurd (h.spins 64) (by decide)

end ArduinoProjects.RingCoder
