import ArduinoProjects.Lib.Machine
import ArduinoProjects.Lib.Proportional
import ArduinoProjects.RingCoder.Basic

/-!
# The position of the dial stays in range

The display functions of RingCoder shift by `16 * _encoderPosition / _range`
and check nothing themselves.  They rely on `0 <= _encoderPosition < _range`.
Three public functions write the position or the range, in any order, while
the knob moves the hardware count between the calls.

* `readEncoder` always restores the relation.
* `writeEncoder` stores its argument as it comes, so the caller has to reduce
  it.  `readEncoder` reduces the same value when it reads it back.
* `setEncoderRange` leaves a position above the new range where it is.

`inRange_iff_callInRange` is the exact condition on the calls.
-/

namespace ArduinoProjects.RingCoder

/-- The public functions that write the position or the range. -/
inductive DialCall where
  | readEncoder
  | writeEncoder (newPosition : Int)
  | setEncoderRange (range : Int)
  deriving DecidableEq, Repr

/-- One public call. -/
def DialCall.apply (rc : RingCoder) : DialCall → RingCoder
  | .readEncoder => rc.readEncoder
  | .writeEncoder newPosition => rc.writeEncoder newPosition
  | .setEncoderRange range => rc.setEncoderRange range

/-- A step finds some hardware count and makes one call. -/
def dial : Machine RingCoder (Int × DialCall) Unit where
  step rc input := (DialCall.apply { rc with enc := input.1 } input.2, ())

/-- The relation that the display functions rely on. -/
def InRange (rc : RingCoder) : Prop :=
  0 ≤ rc.encoderPosition ∧ rc.encoderPosition < rc.range

instance (rc : RingCoder) : Decidable (InRange rc) :=
  inferInstanceAs (Decidable (_ ∧ _))

/-- The object after a step is in range, and the LED index is one of `0..15`. -/
def InRangeAfter (rc : RingCoder) (input : Int × DialCall) : Prop :=
  InRange (dial.next rc input) ∧
    0 ≤ (dial.next rc input).ledIndex ∧ (dial.next rc input).ledIndex ≤ 15

/-- The condition on a call: a written position lies in the range, and an
accepted range lies above the position. -/
def CallInRange (rc : RingCoder) : Int × DialCall → Prop
  | (_, .readEncoder) => True
  | (_, .writeEncoder newPosition) => 0 ≤ newPosition ∧ newPosition < rc.range
  | (_, .setEncoderRange range) => range ≤ 0 ∨ rc.encoderPosition < range

/-! ## One call -/

/-- A position in range has an LED. -/
theorem ledIndex_of_inRange {rc : RingCoder} (h : InRange rc) :
    0 ≤ rc.ledIndex ∧ rc.ledIndex ≤ 15 := by
  obtain ⟨h0, hlt⟩ := h
  have hslot := Proportional.slot_mem (b := ledCount) (by decide) (h0.trans_lt hlt) h0 hlt
  rw [ledIndex, Int.tdiv_eq_ediv_of_nonneg (mul_nonneg (by decide) h0)]
  exact ⟨hslot.1, Int.le_of_lt_add_one hslot.2⟩

theorem construct_inRange (register : ShiftRegister) (pushButton : Bool) :
    InRange (construct register pushButton).1 := by
  simp [InRange, construct, setShift, ledCount]

/-- A read always leaves a position in range. -/
theorem readEncoder_inRange {rc : RingCoder} (hrange : 0 < rc.range) :
    InRange rc.readEncoder :=
  ⟨readEncoder_encoderPosition_nonneg hrange, readEncoder_encoderPosition_lt hrange⟩

/-- A write leaves the position in range exactly when its argument is. -/
theorem writeEncoder_inRange (rc : RingCoder) (newPosition : Int) :
    InRange (rc.writeEncoder newPosition) ↔ 0 ≤ newPosition ∧ newPosition < rc.range :=
  Iff.rfl

/-- A new range leaves the position in range exactly when it is refused or
lies above the position. -/
theorem setEncoderRange_inRange {rc : RingCoder} (h : InRange rc) (range : Int) :
    InRange (rc.setEncoderRange range) ↔ range ≤ 0 ∨ rc.encoderPosition < range := by
  obtain ⟨h0, hlt⟩ := h
  unfold setEncoderRange
  split_ifs with hpos
  · simp only [InRange]
    omega
  · simp only [InRange]
    omega

theorem inRangeAfter_iff (rc : RingCoder) (input : Int × DialCall) :
    InRangeAfter rc input ↔ InRange (dial.next rc input) :=
  ⟨And.left, fun h => ⟨h, ledIndex_of_inRange h⟩⟩

/-- One call keeps the relation exactly when it meets the condition. -/
theorem inRangeAfter_iff_callInRange {rc : RingCoder} (h : InRange rc)
    (input : Int × DialCall) : InRangeAfter rc input ↔ CallInRange rc input := by
  obtain ⟨count, call⟩ := input
  have hcount : InRange { rc with enc := count } := h
  have hrange : 0 < rc.range := by
    obtain ⟨h0, hlt⟩ := h
    omega
  rw [inRangeAfter_iff]
  cases call with
  | readEncoder => exact iff_of_true (readEncoder_inRange hrange) trivial
  | writeEncoder newPosition => exact writeEncoder_inRange _ newPosition
  | setEncoderRange range => exact setEncoderRange_inRange hcount range

/-! ## Every sequence of calls -/

/-- The position stays in range after every call, and the LED index with it,
exactly in the runs whose calls all meet the condition. -/
theorem inRange_iff_callInRange (register : ShiftRegister) (pushButton : Bool)
    (calls : List (Int × DialCall)) :
    dial.Always InRangeAfter (construct register pushButton).1 calls ↔
      dial.Always CallInRange (construct register pushButton).1 calls := by
  refine Machine.always_iff InRange ?_ ?_ (construct_inRange register pushButton)
  · exact fun rc input h => inRangeAfter_iff_callInRange h input
  · exact fun rc input h hcall => ((inRangeAfter_iff_callInRange h input).mpr hcall).1

/-- A write of `16` to the dial of 16 positions leaves it out of range. -/
theorem writeEncoder_sixteen_out_of_range :
    ¬ dial.Always InRangeAfter (construct ⟨0, 0⟩ false).1 [(0, .writeEncoder 16)] := by
  rintro ⟨⟨hrange, _⟩, _⟩
  exact absurd hrange (by decide)

end ArduinoProjects.RingCoder
