import ArduinoProjects.Lib.CInt

/-!
# The RingCoder library

`src/libraries/RingCoder/RingCoder.cpp` drives an illuminated rotary encoder:
a quadrature encoder with a push button, an RGB knob and a ring of 16 LEDs
behind two chained shift registers.  This module is the model of that class.
The functions keep the order of the source.

The two objects that the class owns and that are not part of the repository
are one field each.

* `enc` is the hardware count of the `Encoder` object.  The knob changes it,
  `read` returns it and `write` replaces it.
* `pushButton` is the debounced level of the `Bounce` object.

`int` and `long` are integers.  `unsigned int` is a natural number.  The
delays are left out: no function below reads the clock.  The pin numbers are
left out as well, so that `setShift` names the shift register that the pins
lead to.
-/

namespace ArduinoProjects

/-- What a sketch with a RingCoder sends to the world outside. -/
inductive Output where
  /-- One line of text on the serial port. -/
  | serial (line : String)
  /-- The duty cycles that `setKnobRgb` writes for the red, green and blue LED. -/
  | knob (red green blue : Int)
  /-- The pattern that `setShift` latches. -/
  | ring (pattern : Nat)
  /-- Text typed by the USB keyboard. -/
  | keyboard (text : String)
  deriving DecidableEq, Repr

/-! ## The shift register -/

/-- Two chained eight-bit shift registers with an output latch.  Bit `0` of
`stages` is the stage next to the data pin. -/
structure ShiftRegister where
  stages : Nat
  outputs : Nat
  deriving DecidableEq, Repr

namespace ShiftRegister

/-- One pulse of the clock pin shifts the level of the data pin in. -/
def clock (reg : ShiftRegister) (bit : Bool) : ShiftRegister :=
  { reg with stages := (2 * reg.stages + bit.toNat) % 65536 }

/-- `shiftOut` with `MSBFIRST`: the eight bits of a byte, highest bit first. -/
def shiftOut (reg : ShiftRegister) (value : Nat) : ShiftRegister :=
  (List.range 8).foldl (fun reg i => reg.clock (value.testBit (7 - i))) reg

/-- `RingCoder::shiftOut16`: the high byte, then the low byte.  The argument
is a `uint16_t`. -/
def shiftOut16 (reg : ShiftRegister) (data : Nat) : ShiftRegister :=
  let datamsb := (data % 65536 &&& 0xFF00) >>> 8
  let datalsb := data % 65536 &&& 0x00FF
  (reg.shiftOut datamsb).shiftOut datalsb

/-- The rising edge of the latch pin copies the stages to the outputs. -/
def latch (reg : ShiftRegister) : ShiftRegister :=
  { reg with outputs := reg.stages }

end ShiftRegister

/-! ## The object -/

/-- The fields of `RingCoder` that its functions read. -/
structure RingCoder where
  encoderPosition : Int
  moved : Bool
  currentShift : Nat
  range : Int
  enc : Int
  pushButton : Bool
  register : ShiftRegister
  deriving DecidableEq, Repr

namespace RingCoder

/-- `LED_COUNT` -/
def ledCount : Int := 16

/-- `ENCODER_STEP`: one detent of the dial is four counts. -/
def encoderStep : Int := 4

/-- `KNOB_LED_RANGE` -/
def knobLedRange : Int := 256

/-- `KNOB_LED_MAX` -/
def knobLedMax : Int := knobLedRange - 1

/-- `RingCoder::positive_modulo` -/
def positiveModulo (i n : Int) : Int := CInt.floorMod i n

/-- `RingCoder::setShift`: skip a pattern that is on display already. -/
def setShift (rc : RingCoder) (ledOutput : Nat) : RingCoder × List Output :=
  if ledOutput ≠ rc.currentShift then
    ({ rc with
        currentShift := ledOutput
        register := (rc.register.shiftOut16 ledOutput).latch }, [.ring ledOutput])
  else
    (rc, [])

/-- A sequence of `setShift` calls. -/
def setShifts (rc : RingCoder) : List Nat → RingCoder × List Output
  | [] => (rc, [])
  | ledOutput :: rest =>
    let (rc, out) := rc.setShift ledOutput
    let (rc, outs) := setShifts rc rest
    (rc, out ++ outs)

/-- The object after `RingCoder::RingCoder`.  The power-up content of the
shift register and the level of the button are up to the hardware. -/
def construct (register : ShiftRegister) (pushButton : Bool) : RingCoder × List Output :=
  RingCoder.setShift
    { encoderPosition := 0
      moved := false
      currentShift := 0x0000
      range := ledCount
      enc := 0
      pushButton
      register } 0x0000

/-- `RingCoder::setEncoderRange` -/
def setEncoderRange (rc : RingCoder) (range : Int) : RingCoder :=
  if range > 0 then { rc with range } else rc

/-- The Arduino macro `bitSet`. -/
def bitSet (value bit : Nat) : Nat := value ||| 1 <<< bit

/-- `RingCoder::calculateShift(bool, int)`.  The filler sets the bits below
`pos` and the follower sets bit `pos`, which the callers keep in `0..15`. -/
def calculateShiftAt (fill : Bool) (pos : Int) : Nat :=
  if fill then
    (List.range pos.toNat).foldl bitSet 0
  else
    bitSet 0 pos.toNat

/-- The LED that belongs to the position of the encoder. -/
def ledIndex (rc : RingCoder) : Int := (ledCount * rc.encoderPosition).tdiv rc.range

/-- `RingCoder::calculateShift(bool)` -/
def calculateShift (rc : RingCoder) (fill : Bool) : Nat :=
  calculateShiftAt fill rc.ledIndex

/-- `RingCoder::blink(int)` -/
def blinkLed (rc : RingCoder) (singleLED : Int) : RingCoder × List Output :=
  let shift := rc.currentShift ||| calculateShiftAt false singleLED
  let offShift := rc.currentShift
  rc.setShifts [shift, offShift]

/-- `RingCoder::blink()` -/
def blink (rc : RingCoder) : RingCoder × List Output :=
  let prev := rc.currentShift
  rc.setShifts [0xFFFF, 0x0000, prev]

/-- `RingCoder::spin(bool)` -/
def spinReverse (rc : RingCoder) (reverse : Bool) : RingCoder × List Output :=
  rc.setShifts
    ((List.range 16).map (fun i => if reverse then 32768 >>> i else 1 <<< i) ++ [0x0000])

/-- `RingCoder::spin()` -/
def spin (rc : RingCoder) : RingCoder × List Output := rc.spinReverse false

/-- `RingCoder::reverse_spin()` -/
def reverseSpin (rc : RingCoder) : RingCoder × List Output := rc.spinReverse true

/-- `RingCoder::random_the_wheel(int)`.  The multiplier only scales the
delays.  `rolls` holds the results of `random(LED_COUNT)`. -/
def randomTheWheel (rc : RingCoder) (rolls : List Nat) : RingCoder × List Output :=
  rc.setShifts (rolls.map (fun randNumber => 1 <<< randNumber))

/-- `RingCoder::readEncoder` -/
def readEncoder (rc : RingCoder) : RingCoder :=
  let newPosition := positiveModulo (rc.enc.tdiv encoderStep) rc.range
  { rc with
    moved := decide (newPosition ≠ rc.encoderPosition)
    encoderPosition := newPosition }

/-- `RingCoder::spin_the_wheel`.  The position that it reads only scales the
delays.  `randNumber` is the result of `random(LED_COUNT * 4, LED_COUNT * 5)`. -/
def spinTheWheel (rc : RingCoder) (randNumber : Nat) : RingCoder × List Output :=
  rc.readEncoder.setShifts ((List.range randNumber).map (fun i => 1 <<< (i % 16)))

/-- `RingCoder::random_the_wheel()`, which takes the multiplier from the
position that it reads. -/
def randomTheWheelAtPosition (rc : RingCoder) (rolls : List Nat) : RingCoder × List Output :=
  rc.readEncoder.randomTheWheel rolls

/-- `RingCoder::writeEncoder` -/
def writeEncoder (rc : RingCoder) (newPosition : Int) : RingCoder :=
  { rc with
    encoderPosition := newPosition
    enc := newPosition * encoderStep }

/-- `RingCoder::setKnobRgb`.  The LEDs use the range 255-0. -/
def setKnobRgb (r g b : Int) : List Output :=
  [.knob (knobLedMax - positiveModulo r knobLedRange)
    (knobLedMax - positiveModulo g knobLedRange)
    (knobLedMax - positiveModulo b knobLedRange)]

/-- `RingCoder::update` together with `RingCoder::button`: `edge` is the result
of the update, and an edge flips the debounced level. -/
def update (rc : RingCoder) (edge : Bool) : RingCoder :=
  { rc with pushButton := xor rc.pushButton edge }

/-- `RingCoder::ledRingFiller` -/
def ledRingFiller (rc : RingCoder) : RingCoder × List Output :=
  rc.setShift (rc.calculateShift true)

/-- `RingCoder::ledRingFollower` -/
def ledRingFollower (rc : RingCoder) : RingCoder × List Output :=
  rc.setShift (rc.calculateShift false)

/-- The knob is turned by a number of counts. -/
def turn (rc : RingCoder) (counts : Int) : RingCoder :=
  { rc with enc := rc.enc + counts }

/-! ## What the display leaves alone -/

@[simp] theorem setShift_currentShift (rc : RingCoder) (ledOutput : Nat) :
    (rc.setShift ledOutput).1.currentShift = ledOutput := by
  unfold setShift
  split_ifs with h
  · rfl
  · exact (not_ne_iff.mp h).symm

/-- A display function only changes the pattern and the shift register. -/
structure SameDial (rc rc' : RingCoder) : Prop where
  encoderPosition : rc'.encoderPosition = rc.encoderPosition
  moved : rc'.moved = rc.moved
  range : rc'.range = rc.range
  enc : rc'.enc = rc.enc
  pushButton : rc'.pushButton = rc.pushButton

theorem SameDial.refl (rc : RingCoder) : SameDial rc rc := ⟨rfl, rfl, rfl, rfl, rfl⟩

theorem SameDial.symm {a b : RingCoder} (h : SameDial a b) : SameDial b a :=
  ⟨h.1.symm, h.2.symm, h.3.symm, h.4.symm, h.5.symm⟩

theorem SameDial.trans {a b c : RingCoder} (hab : SameDial a b) (hbc : SameDial b c) :
    SameDial a c :=
  ⟨hbc.1.trans hab.1, hbc.2.trans hab.2, hbc.3.trans hab.3, hbc.4.trans hab.4,
    hbc.5.trans hab.5⟩

theorem setShift_sameDial (rc : RingCoder) (ledOutput : Nat) :
    SameDial rc (rc.setShift ledOutput).1 := by
  unfold setShift
  split_ifs
  · exact ⟨rfl, rfl, rfl, rfl, rfl⟩
  · exact SameDial.refl rc

theorem setShifts_sameDial (rc : RingCoder) (patterns : List Nat) :
    SameDial rc (rc.setShifts patterns).1 := by
  induction patterns generalizing rc with
  | nil => exact SameDial.refl rc
  | cons ledOutput rest ih =>
    exact (setShift_sameDial rc ledOutput).trans (ih (rc.setShift ledOutput).1)

/-- After a sequence of patterns the last one is on display. -/
theorem setShifts_concat_currentShift (rc : RingCoder) (patterns : List Nat) (last : Nat) :
    (rc.setShifts (patterns ++ [last])).1.currentShift = last := by
  induction patterns generalizing rc with
  | nil => simp [setShifts]
  | cons ledOutput rest ih => exact ih (rc.setShift ledOutput).1

theorem blinkLed_sameDial (rc : RingCoder) (singleLED : Int) :
    SameDial rc (rc.blinkLed singleLED).1 :=
  setShifts_sameDial rc _

theorem blink_sameDial (rc : RingCoder) : SameDial rc rc.blink.1 :=
  setShifts_sameDial rc _

theorem spinReverse_sameDial (rc : RingCoder) (reverse : Bool) :
    SameDial rc (rc.spinReverse reverse).1 :=
  setShifts_sameDial rc _

/-- A new object stands at position `0` of the dial of 16 positions. -/
theorem construct_sameDial (register : ShiftRegister) (pushButton : Bool) :
    SameDial
      { encoderPosition := 0, moved := false, currentShift := 0, range := ledCount, enc := 0,
        pushButton, register }
      (construct register pushButton).1 :=
  setShift_sameDial _ _

/-! ## What the display sends -/

/-- The display sends patterns and nothing else. -/
theorem setShift_out {rc : RingCoder} {ledOutput : Nat} {o : Output}
    (ho : o ∈ (rc.setShift ledOutput).2) : ∃ pattern, o = .ring pattern := by
  unfold setShift at ho
  split_ifs at ho
  · exact ⟨ledOutput, List.mem_singleton.mp ho⟩
  · simp at ho

theorem setShifts_out {rc : RingCoder} {patterns : List Nat} {o : Output}
    (ho : o ∈ (rc.setShifts patterns).2) : ∃ pattern, o = .ring pattern := by
  induction patterns generalizing rc with
  | nil => simp [setShifts] at ho
  | cons ledOutput rest ih =>
    rcases List.mem_append.mp ho with ho | ho
    · exact setShift_out ho
    · exact ih ho

/-! ## The position that a read computes -/

theorem readEncoder_encoderPosition_nonneg {rc : RingCoder} (hrange : 0 < rc.range) :
    0 ≤ rc.readEncoder.encoderPosition :=
  CInt.floorMod_nonneg hrange _

theorem readEncoder_encoderPosition_lt {rc : RingCoder} (hrange : 0 < rc.range) :
    rc.readEncoder.encoderPosition < rc.range :=
  CInt.floorMod_lt hrange _

theorem readEncoder_moved (rc : RingCoder) :
    rc.readEncoder.moved = decide (rc.readEncoder.encoderPosition ≠ rc.encoderPosition) := rfl

/-- A count that `writeEncoder` wrote is an exact number of detents. -/
theorem tdiv_encoderStep (p : Int) : (p * encoderStep).tdiv encoderStep = p :=
  Int.mul_tdiv_cancel p (by decide)

/-! ## The patterns of the ring -/

/-- The filler sets the lowest `k` bits. -/
theorem foldl_bitSet_range (k : Nat) : (List.range k).foldl bitSet 0 = 2 ^ k - 1 := by
  induction k with
  | zero => rfl
  | succ k ih =>
    have hlt : 2 ^ k - 1 < 2 ^ k := Nat.sub_one_lt (by positivity)
    have hor : bitSet (2 ^ k - 1) k = 2 ^ k + (2 ^ k - 1) := by
      rw [bitSet, Nat.or_comm, ← Nat.shiftLeft_add_eq_or_of_lt hlt, Nat.one_shiftLeft]
    rw [List.range_succ, List.foldl_append, ih, List.foldl_cons, List.foldl_nil, hor]
    omega

theorem calculateShiftAt_true (pos : Int) :
    calculateShiftAt true pos = 2 ^ pos.toNat - 1 :=
  foldl_bitSet_range pos.toNat

end RingCoder

end ArduinoProjects
