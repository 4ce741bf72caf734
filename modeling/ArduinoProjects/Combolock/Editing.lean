import ArduinoProjects.Combolock.Basic

/-!
# What the knob edits

The position that the ring shows belongs to the selected channel, so its value
should be `17` times that position, and nothing else should write to a value.

An iteration reads the position before it looks at the button.  A press then
selects the next channel and sets the encoder to `0`, and the position that was
read goes to the new channel.  So after a press away from `0` the value of the new
channel and the position of the dial have parted, and a press in the iteration
that reads a move commits the value from before the move.

`EditsSelected` says what an iteration should do, and `always_editsSelected_iff`
gives the runs in which every iteration does.
-/

namespace ArduinoProjects.Combolock

variable (eeprom : LedCounter → UInt8)

/-- The iteration edits the selected channel with the position on display.

* `committed` is about the value that a press commits.  For RED it is the one that
  `checkValues` compares.
* `selected` is about the channel that is selected after the iteration. -/
structure EditsSelected (c : Combolock) (i : Input) : Prop where
  committed : c.pressed i = true →
    (((c.readInputs i).ledValue c.ledCount).toNat : Int) = 17 * c.readPosition i
  selected : let c' := (sketch eeprom).next c i
    ((c'.ledValue c'.ledCount).toNat : Int) = 17 * c'.ringcoder.encoderPosition
  frame : ∀ channel, channel ≠ ((sketch eeprom).next c i).ledCount →
    ((sketch eeprom).next c i).ledValue channel = c.ledValue channel

/-- A press happens with the dial at `0`, and the iteration of the press reads no
move. -/
def PressesAtZero (c : Combolock) (i : Input) : Prop :=
  c.pressed i = true → c.ringcoder.encoderPosition = 0 ∧ c.readPosition i = 0

/-- The first iteration is no press, and it reads a move or an edge. -/
def FirstEdits (c : Combolock) (inputs : List Input) : Prop :=
  ∀ i ∈ inputs.head?,
    c.pressed i = false ∧ ((c.readInputs i).ringcoder.moved = true ∨ i.stateChanged = true)

/-- The value of the selected channel is the one for the position of the dial. -/
structure Synced (c : Combolock) : Prop where
  range : c.ringcoder.range = 16
  value : ((c.ledValue c.ledCount).toNat : Int) = 17 * c.ringcoder.encoderPosition

/-! ## One iteration -/

/-- An iteration writes to no other channel than the selected one. -/
theorem loop_frame (c : Combolock) (i : Input) {channel : LedCounter}
    (h : channel ≠ (c.loop eeprom i).1.ledCount) :
    (c.loop eeprom i).1.ledValue channel = c.ledValue channel := by
  rw [loop_ledCount] at h
  rw [loop_ledValue]
  split_ifs at h ⊢ <;> simp [h]

/-- The selected channel and the dial after a press: the position that was read
against `0`. -/
theorem loop_of_press {c : Combolock} {i : Input} (hrange : c.ringcoder.range = 16)
    (hp : c.pressed i = true) :
    ((((c.loop eeprom i).1.ledValue (c.loop eeprom i).1.ledCount).toNat : Int) =
        17 * c.readPosition i) ∧
      (c.loop eeprom i).1.ringcoder.encoderPosition = 0 := by
  obtain ⟨h0, hlt⟩ := readPosition_mem hrange i
  have hedge : i.stateChanged = true := (Bool.and_eq_true_iff.mp hp).1
  constructor
  · rw [loop_ledCount, loop_ledValue, if_pos hp, if_pos (Or.inr hedge), Function.update_self]
    exact dialled_toNat h0 hlt
  · rw [(loop_ringcoder eeprom c i).encoderPosition, if_pos hp]
    rfl

/-- The selected channel and the dial after an iteration without a press: the dial
has the position that was read, and so has the value after a move or an edge. -/
theorem loop_of_not_press {c : Combolock} {i : Input} (hrange : c.ringcoder.range = 16)
    (hp : c.pressed i = false) :
    ((((c.loop eeprom i).1.ledValue (c.loop eeprom i).1.ledCount).toNat : Int) =
        if (c.readInputs i).ringcoder.moved = true ∨ i.stateChanged = true then
          17 * c.readPosition i
        else ((c.ledValue c.ledCount).toNat : Int)) ∧
      (c.loop eeprom i).1.ringcoder.encoderPosition = c.readPosition i := by
  obtain ⟨h0, hlt⟩ := readPosition_mem hrange i
  constructor
  · rw [loop_ledCount, loop_ledValue, hp]
    simp only [Bool.false_eq_true, if_false]
    split_ifs
    · rw [Function.update_self]
      exact dialled_toNat h0 hlt
    · rfl
  · rw [(loop_ringcoder eeprom c i).encoderPosition, hp]
    rfl

/-- A press edits the selected channel exactly when the committed value is the one
for the position that was read, and that position is `0`. -/
theorem editsSelected_of_press {c : Combolock} {i : Input} (hrange : c.ringcoder.range = 16)
    (hp : c.pressed i = true) :
    EditsSelected eeprom c i ↔
      ((c.ledValue c.ledCount).toNat : Int) = 17 * c.readPosition i ∧ c.readPosition i = 0 := by
  obtain ⟨hvalue, hdial⟩ := loop_of_press eeprom hrange hp
  constructor
  · intro h
    refine ⟨h.committed hp, ?_⟩
    have hselected : (((c.loop eeprom i).1.ledValue (c.loop eeprom i).1.ledCount).toNat : Int) =
        17 * (c.loop eeprom i).1.ringcoder.encoderPosition := h.selected
    omega
  · rintro ⟨hcommitted, hzero⟩
    refine ⟨fun _ => hcommitted, ?_, fun _ => loop_frame eeprom c i⟩
    show (((c.loop eeprom i).1.ledValue (c.loop eeprom i).1.ledCount).toNat : Int) =
      17 * (c.loop eeprom i).1.ringcoder.encoderPosition
    omega

/-- Any other iteration edits the selected channel exactly when it writes to it or
the value is the one for the position that was read. -/
theorem editsSelected_of_not_press {c : Combolock} {i : Input} (hrange : c.ringcoder.range = 16)
    (hp : c.pressed i = false) :
    EditsSelected eeprom c i ↔
      ((c.readInputs i).ringcoder.moved = true ∨ i.stateChanged = true) ∨
        ((c.ledValue c.ledCount).toNat : Int) = 17 * c.readPosition i := by
  obtain ⟨hvalue, hdial⟩ := loop_of_not_press eeprom hrange hp
  have hselected : EditsSelected eeprom c i ↔
      (((c.loop eeprom i).1.ledValue (c.loop eeprom i).1.ledCount).toNat : Int) =
        17 * (c.loop eeprom i).1.ringcoder.encoderPosition :=
    ⟨EditsSelected.selected, fun h =>
      ⟨fun hpress => absurd hpress (by simp [hp]), h, fun _ => loop_frame eeprom c i⟩⟩
  rw [hselected, hvalue, hdial]
  split_ifs with hedit
  · exact iff_of_true rfl (Or.inl hedit)
  · exact ⟨Or.inr, fun h => h.resolve_left hedit⟩

/-- After an iteration that edits the selected channel its value and the dial are
synced. -/
theorem synced_of_editsSelected {c : Combolock} {i : Input} (hrange : c.ringcoder.range = 16)
    (h : EditsSelected eeprom c i) : Synced ((sketch eeprom).next c i) :=
  ⟨(loop_range eeprom c i).trans hrange, h.selected⟩

/-- From a synced state an iteration edits the selected channel unless it is a
press away from `0`. -/
theorem editsSelected_iff_pressesAtZero {c : Combolock} (hs : Synced c) (i : Input) :
    EditsSelected eeprom c i ↔ PressesAtZero c i := by
  have hvalue := hs.value
  cases hp : c.pressed i with
  | true =>
    rw [editsSelected_of_press eeprom hs.range hp, PressesAtZero, hp, hvalue]
    constructor
    · intro h _
      omega
    · intro h
      have hzero := h rfl
      omega
  | false =>
    rw [editsSelected_of_not_press eeprom hs.range hp, readInputs_moved, hvalue]
    refine iff_of_true ?_ (fun hpress => absurd hpress (by simp [hp]))
    by_cases hmoved : c.readPosition i = c.ringcoder.encoderPosition
    · exact Or.inr (by rw [hmoved])
    · exact Or.inl (Or.inl (decide_eq_true hmoved))

/-! ## Every run from power-up -/

/-- The first iteration starts with the value `255` and the dial at `0`, so it has
to write to the selected channel. -/
theorem editsSelected_setup_iff (register : ShiftRegister) (pushButton : Bool)
    (rolls : List Nat) (i : Input) :
    EditsSelected eeprom (setup register pushButton rolls).1 i ↔
      (setup register pushButton rolls).1.pressed i = false ∧
        (((setup register pushButton rolls).1.readInputs i).ringcoder.moved = true ∨
          i.stateChanged = true) := by
  have hdial := setup_sameDial register pushButton rolls
  have hrange : (setup register pushButton rolls).1.ringcoder.range = 16 := hdial.range
  have hzero : (setup register pushButton rolls).1.ringcoder.encoderPosition = 0 :=
    hdial.encoderPosition
  have hvalue : (((setup register pushButton rolls).1.ledValue
      (setup register pushButton rolls).1.ledCount).toNat : Int) = 255 := rfl
  generalize (setup register pushButton rolls).1 = c at *
  cases hp : c.pressed i with
  | true =>
    rw [editsSelected_of_press eeprom hrange hp, hvalue]
    refine iff_of_false ?_ (by simp)
    omega
  | false =>
    rw [editsSelected_of_not_press eeprom hrange hp, hvalue, readInputs_moved, hzero]
    constructor
    · rintro (hedit | hinitial)
      · exact ⟨rfl, hedit⟩
      · exact ⟨rfl, Or.inl (decide_eq_true (by omega))⟩
    · exact fun h => Or.inl h.2

/-- Every iteration of a run edits the selected channel with the position on
display exactly when the first one writes to it without a press, and every press
happens at `0` in an iteration that reads no move. -/
theorem always_editsSelected_iff (register : ShiftRegister) (pushButton : Bool)
    (rolls : List Nat) (inputs : List Input) :
    (sketch eeprom).Always (EditsSelected eeprom) (setup register pushButton rolls).1 inputs ↔
      FirstEdits (setup register pushButton rolls).1 inputs ∧
        (sketch eeprom).Always PressesAtZero (setup register pushButton rolls).1 inputs := by
  have hrange : (setup register pushButton rolls).1.ringcoder.range = 16 :=
    (setup_sameDial register pushButton rolls).range
  cases inputs with
  | nil => simp [Machine.Always, FirstEdits]
  | cons i rest =>
    have hfirst := editsSelected_setup_iff eeprom register pushButton rolls i
    generalize (setup register pushButton rolls).1 = c at *
    have hrest : EditsSelected eeprom c i →
        ((sketch eeprom).Always (EditsSelected eeprom) ((sketch eeprom).next c i) rest ↔
          (sketch eeprom).Always PressesAtZero ((sketch eeprom).next c i) rest) := by
      intro h
      refine Machine.always_iff Synced ?_ ?_ (synced_of_editsSelected eeprom hrange h)
      · exact fun s j hs => editsSelected_iff_pressesAtZero eeprom hs j
      · intro s j hs hpress
        have hedits := (editsSelected_iff_pressesAtZero eeprom hs j).mpr hpress
        exact synced_of_editsSelected eeprom hs.range hedits
    have hhead : FirstEdits c (i :: rest) ↔ EditsSelected eeprom c i := by
      rw [hfirst]
      simp [FirstEdits]
    have hpress : EditsSelected eeprom c i → PressesAtZero c i := by
      intro h hp
      exact absurd hp (by simp [(hfirst.mp h).1])
    rw [hhead, Machine.Always, Machine.Always]
    constructor
    · rintro ⟨h, hall⟩
      exact ⟨h, hpress h, (hrest h).mp hall⟩
    · rintro ⟨h, _, hall⟩
      exact ⟨h, (hrest h).mpr hall⟩

/-- RED is dialled to position `1`, and a press gives the value of that position to
BLUE while the dial goes back to `0`. -/
theorem press_carries_position :
    ¬ (sketch fun _ => 0).Always (EditsSelected fun _ => 0)
      (setup ⟨0, 0⟩ false (List.replicate 16 0)).1 [⟨4, false⟩, ⟨0, true⟩] := by
  rintro ⟨_, hedits, _⟩
  exact absurd hedits.selected (by decide)

end ArduinoProjects.Combolock
