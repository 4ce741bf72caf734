import ArduinoProjects.Lib.Machine
import ArduinoProjects.RingCoder.Basic
import Mathlib.Logic.Function.Basic

/-!
# The combination lock

`src/combolock/combolock.ino` dials three colour values on one knob.  A press
of the button commits the value of the selected channel and selects the next
one.  A press while RED is selected first compares all three values with the
bytes in the EEPROM, and a match types the secret word.

One call of `loop()` reads the counts that the knob was turned by and the
debounced edge of the button.  The EEPROM is never written, so its three bytes
are a parameter.
-/

namespace ArduinoProjects

/-- `enum ledCounter {RED = 0, BLUE = 1, GREEN = 2}` -/
inductive LedCounter where
  | red
  | blue
  | green
  deriving DecidableEq, Repr

/-- `ledCount = ++ledCount % 3` -/
def LedCounter.next : LedCounter → LedCounter
  | .red => .blue
  | .blue => .green
  | .green => .red

/-- The globals of the sketch. -/
structure Combolock where
  ringcoder : RingCoder
  lastPos : Int
  ledCount : LedCounter
  ledValue : LedCounter → UInt8

namespace Combolock

/-- What one iteration reads: the counts that the knob was turned by and the
result of `ringcoder.update()`. -/
structure Input where
  counts : Int
  stateChanged : Bool
  deriving DecidableEq, Repr

/-- What `Keyboard.print` types when the lock opens. -/
def secretWord : Output := .keyboard "Secret Word"

/-- The power-up state after `setup()`.  `rolls` holds the results of
`random(LED_COUNT)` in `random_the_wheel(2)`. -/
def setup (register : ShiftRegister) (pushButton : Bool) (rolls : List Nat) :
    Combolock × List Output :=
  let (rc, out) := RingCoder.construct register pushButton
  let (rc, wheel) := rc.randomTheWheel rolls
  ({ ringcoder := rc
     lastPos := 0
     ledCount := .red
     ledValue := fun _ => UInt8.ofInt RingCoder.knobLedMax }, out ++ wheel)

/-- The three values equal the three bytes of the EEPROM. -/
def Matches (eeprom : LedCounter → UInt8) (c : Combolock) : Prop :=
  eeprom .red = c.ledValue .red ∧ eeprom .green = c.ledValue .green ∧
    eeprom .blue = c.ledValue .blue

instance (eeprom : LedCounter → UInt8) (c : Combolock) : Decidable (c.Matches eeprom) :=
  inferInstanceAs (Decidable (_ ∧ _ ∧ _))

/-- `checkValues` -/
def checkValues (eeprom : LedCounter → UInt8) (c : Combolock) : Combolock × List Output :=
  if c.Matches eeprom then
    let first := c.ringcoder.spin
    let second := first.1.spin
    let third := second.1.spin
    ({ c with ringcoder := third.1 }, first.2 ++ second.2 ++ third.2 ++ [secretWord])
  else
    let line := .serial ("(" ++ toString (c.ledValue .red) ++ "," ++
      toString (c.ledValue .green) ++ "," ++ toString (c.ledValue .blue) ++ ")")
    let first := c.ringcoder.blink
    let second := first.1.blink
    let third := second.1.blink
    ({ c with ringcoder := third.1 }, [line] ++ first.2 ++ second.2 ++ third.2)

/-- The knob is turned, the button is read and the encoder is read. -/
def readInputs (c : Combolock) (i : Input) : Combolock :=
  { c with ringcoder := ((c.ringcoder.turn i.counts).update i.stateChanged).readEncoder }

/-- `stateChanged && state == HIGH` -/
def pressed (c : Combolock) (i : Input) : Bool :=
  i.stateChanged && (c.readInputs i).ringcoder.pushButton

/-- A press: check the values when RED is selected, select the next channel
and set the encoder to `0`. -/
def press (eeprom : LedCounter → UInt8) (c : Combolock) (pressed : Bool) :
    Combolock × List Output :=
  if pressed then
    let (c, out) := if c.ledCount = .red then c.checkValues eeprom else (c, [])
    ({ c with
        ledCount := c.ledCount.next
        ringcoder := c.ringcoder.writeEncoder 0 }, out)
  else
    (c, [])

/-- The value that a position dials: `pos * KNOB_LED_MAX / (LED_COUNT - 1)`. -/
def dialled (pos : Int) : UInt8 :=
  UInt8.ofInt ((pos * RingCoder.knobLedMax).tdiv (RingCoder.ledCount - 1))

/-- A move or an edge writes the dialled value to the selected channel. -/
def setLed (c : Combolock) (pos : Int) (stateChanged : Bool) : Combolock × List Output :=
  if c.ringcoder.moved ∨ stateChanged then
    let c := { c with
      ledValue := Function.update c.ledValue c.ledCount (dialled pos)
      lastPos := pos }
    (c, [.serial ("Encoder position: " ++ toString pos),
        .serial ("Setting LED to " ++ toString (c.ledValue c.ledCount))] ++
      RingCoder.setKnobRgb (c.ledValue .red).toNat (c.ledValue .green).toNat
        (c.ledValue .blue).toNat)
  else
    (c, [])

/-- `loop()` -/
def loop (eeprom : LedCounter → UInt8) (c : Combolock) (i : Input) : Combolock × List Output :=
  let pressed := c.pressed i
  let c := c.readInputs i
  let pos := c.ringcoder.encoderPosition
  let (c, out) := c.press eeprom pressed
  let (c, led) := c.setLed pos i.stateChanged
  let (rc, ring) := c.ringcoder.ledRingFollower
  ({ c with ringcoder := rc }, out ++ led ++ ring)

/-- The sketch as a machine, for the bytes of the EEPROM. -/
def sketch (eeprom : LedCounter → UInt8) : Machine Combolock Input (List Output) where
  step := loop eeprom

/-! ## The parts of an iteration -/

/-- The wheel of `setup()` leaves the dial of the new object alone. -/
theorem setup_sameDial (register : ShiftRegister) (pushButton : Bool) (rolls : List Nat) :
    RingCoder.SameDial
      { encoderPosition := 0, moved := false, currentShift := 0, range := RingCoder.ledCount,
        enc := 0, pushButton, register }
      (setup register pushButton rolls).1.ringcoder :=
  (RingCoder.construct_sameDial register pushButton).trans (RingCoder.setShifts_sameDial _ _)

/-- The comparison only shows lights. -/
theorem checkValues_frame (eeprom : LedCounter → UInt8) (c : Combolock) :
    (c.checkValues eeprom).1.ledCount = c.ledCount ∧
      (c.checkValues eeprom).1.ledValue = c.ledValue ∧
      RingCoder.SameDial c.ringcoder (c.checkValues eeprom).1.ringcoder := by
  unfold checkValues
  split_ifs <;> dsimp only
  · have hspin : ∀ rc : RingCoder, RingCoder.SameDial rc rc.spin.1 :=
      fun rc => rc.spinReverse_sameDial false
    refine ⟨rfl, rfl, ?_⟩
    exact ((hspin c.ringcoder).trans (hspin c.ringcoder.spin.1)).trans
      (hspin c.ringcoder.spin.1.spin.1)
  · have hblink := RingCoder.blink_sameDial
    refine ⟨rfl, rfl, ?_⟩
    exact ((hblink c.ringcoder).trans (hblink c.ringcoder.blink.1)).trans
      (hblink c.ringcoder.blink.1.blink.1)

theorem press_ledCount (eeprom : LedCounter → UInt8) (c : Combolock) (pressed : Bool) :
    (c.press eeprom pressed).1.ledCount = if pressed then c.ledCount.next else c.ledCount := by
  have hcheck := (checkValues_frame eeprom c).1
  unfold press
  split_ifs <;> simp_all

theorem press_ledValue (eeprom : LedCounter → UInt8) (c : Combolock) (pressed : Bool) :
    (c.press eeprom pressed).1.ledValue = c.ledValue := by
  have hcheck := (checkValues_frame eeprom c).2.1
  unfold press
  split_ifs <;> simp_all

/-- A press writes `0` to the encoder and leaves the rest of the dial alone. -/
theorem press_ringcoder (eeprom : LedCounter → UInt8) (c : Combolock) (pressed : Bool) :
    RingCoder.SameDial (if pressed then c.ringcoder.writeEncoder 0 else c.ringcoder)
      (c.press eeprom pressed).1.ringcoder := by
  have hcheck := (checkValues_frame eeprom c).2.2
  unfold press
  split_ifs
  · exact ⟨rfl, hcheck.moved, hcheck.range, rfl, hcheck.pushButton⟩
  · exact RingCoder.SameDial.refl _
  · exact RingCoder.SameDial.refl _

/-! ## What one iteration does -/

theorem loop_ledCount (eeprom : LedCounter → UInt8) (c : Combolock) (i : Input) :
    (c.loop eeprom i).1.ledCount = if c.pressed i then c.ledCount.next else c.ledCount := by
  have hpress := press_ledCount eeprom (c.readInputs i) (c.pressed i)
  simp only [loop, setLed]
  split_ifs <;> simp_all [readInputs]

/-- A move or an edge writes the dialled value to the channel that is selected
after the press. -/
theorem loop_ledValue (eeprom : LedCounter → UInt8) (c : Combolock) (i : Input) :
    (c.loop eeprom i).1.ledValue =
      if (c.readInputs i).ringcoder.moved ∨ i.stateChanged then
        Function.update c.ledValue (if c.pressed i then c.ledCount.next else c.ledCount)
          (dialled (c.readInputs i).ringcoder.encoderPosition)
      else c.ledValue := by
  have hcount := press_ledCount eeprom (c.readInputs i) (c.pressed i)
  have hvalue := press_ledValue eeprom (c.readInputs i) (c.pressed i)
  have hmoved : ((c.readInputs i).press eeprom (c.pressed i)).1.ringcoder.moved =
      (c.readInputs i).ringcoder.moved := by
    rw [(press_ringcoder eeprom (c.readInputs i) (c.pressed i)).moved]
    split_ifs <;> rfl
  simp only [loop, setLed, hmoved]
  split_ifs <;> simp_all [readInputs]

/-- The dial after an iteration: the position that was read, or `0` after a
press. -/
theorem loop_ringcoder (eeprom : LedCounter → UInt8) (c : Combolock) (i : Input) :
    RingCoder.SameDial
      (if c.pressed i then (c.readInputs i).ringcoder.writeEncoder 0
        else (c.readInputs i).ringcoder)
      (c.loop eeprom i).1.ringcoder := by
  refine (press_ringcoder eeprom (c.readInputs i) (c.pressed i)).trans ?_
  simp only [loop, setLed]
  split_ifs <;> exact RingCoder.setShift_sameDial _ _

theorem loop_range (eeprom : LedCounter → UInt8) (c : Combolock) (i : Input) :
    (c.loop eeprom i).1.ringcoder.range = c.ringcoder.range := by
  rw [(loop_ringcoder eeprom c i).range]
  split_ifs <;> rfl

/-! ## The position that an iteration reads -/

/-- The position that an iteration reads. -/
def readPosition (c : Combolock) (i : Input) : Int :=
  (c.readInputs i).ringcoder.encoderPosition

theorem readInputs_moved (c : Combolock) (i : Input) :
    (c.readInputs i).ringcoder.moved =
      decide (c.readPosition i ≠ c.ringcoder.encoderPosition) := rfl

/-- On the dial of 16 positions one position is worth `17`. -/
theorem dialled_toNat {pos : Int} (h0 : 0 ≤ pos) (hlt : pos < 16) :
    ((dialled pos).toNat : Int) = 17 * pos := by
  have hdial : ∀ p : Fin 16, ((dialled (p.val : Int)).toNat : Int) = 17 * (p.val : Int) := by
    decide
  have hpos := hdial ⟨pos.toNat, by omega⟩
  rwa [Int.toNat_of_nonneg h0] at hpos

theorem readPosition_mem {c : Combolock} (hrange : c.ringcoder.range = 16) (i : Input) :
    0 ≤ c.readPosition i ∧ c.readPosition i < 16 := by
  have hpos : 0 < ((c.ringcoder.turn i.counts).update i.stateChanged).range := by
    show 0 < c.ringcoder.range
    omega
  have h0 := RingCoder.readEncoder_encoderPosition_nonneg hpos
  have hlt := RingCoder.readEncoder_encoderPosition_lt hpos
  change _ < c.ringcoder.range at hlt
  rw [hrange] at hlt
  exact ⟨h0, hlt⟩

/-! ## The secret word -/

theorem secretWord_not_mem_setShifts (rc : RingCoder) (patterns : List Nat) :
    secretWord ∉ (rc.setShifts patterns).2 := by
  intro h
  obtain ⟨pattern, hp⟩ := RingCoder.setShifts_out h
  cases hp

/-- The comparison types the secret word exactly on a match. -/
theorem secretWord_mem_checkValues (eeprom : LedCounter → UInt8) (c : Combolock) :
    secretWord ∈ (c.checkValues eeprom).2 ↔ c.Matches eeprom := by
  have hring := secretWord_not_mem_setShifts
  unfold checkValues
  split_ifs with hmatch
  · exact iff_of_true (List.mem_append_right _ (List.mem_singleton_self _)) hmatch
  · refine iff_of_false ?_ hmatch
    simp only [RingCoder.blink, List.mem_append, List.mem_singleton, not_or]
    exact ⟨⟨⟨by simp [secretWord], hring _ _⟩, hring _ _⟩, hring _ _⟩

theorem secretWord_not_mem_setLed (c : Combolock) (pos : Int) (stateChanged : Bool) :
    secretWord ∉ (c.setLed pos stateChanged).2 := by
  unfold setLed
  split_ifs <;> simp [secretWord, RingCoder.setKnobRgb]

theorem secretWord_not_mem_ledRingFollower (rc : RingCoder) :
    secretWord ∉ rc.ledRingFollower.2 := by
  intro h
  obtain ⟨pattern, hp⟩ := RingCoder.setShift_out h
  cases hp

/-- The lock opens in exactly the iterations with a rising edge, RED selected
and all three values equal to the stored bytes. -/
theorem secretWord_mem_loop (eeprom : LedCounter → UInt8) (c : Combolock) (i : Input) :
    secretWord ∈ (c.loop eeprom i).2 ↔
      c.pressed i = true ∧ c.ledCount = .red ∧ c.Matches eeprom := by
  have hout : secretWord ∈ (c.loop eeprom i).2 ↔
      secretWord ∈ ((c.readInputs i).press eeprom (c.pressed i)).2 := by
    simp [loop, secretWord_not_mem_setLed, secretWord_not_mem_ledRingFollower]
  have hmatch : (c.readInputs i).Matches eeprom ↔ c.Matches eeprom := Iff.rfl
  have hcheck := secretWord_mem_checkValues eeprom (c.readInputs i)
  have hred : (c.readInputs i).ledCount = c.ledCount := rfl
  rw [hout]
  unfold press
  split_ifs with hp hc
  · rw [hcheck, hmatch]
    simp_all
  · simp_all
  · simp_all

end Combolock

end ArduinoProjects
