import ArduinoProjects.Lib.Machine
import ArduinoProjects.RingCoder.Basic

/-!
# The volume knob

`src/volume/volume.ino` is a USB keyboard with a knob.  A press of the button
mutes, and a turn sends the volume keys.  One call of `loop()` reads the counts
that the knob was turned by and the debounced edge of the button.

A key is sent as two reports, one with the key and one without.
-/

namespace ArduinoProjects

/-- The media keys of the sketch. -/
inductive MediaKey where
  | mute
  | volumeInc
  | volumeDec
  deriving DecidableEq, Repr

/-- The globals of the sketch. -/
structure Volume where
  ringcoder : RingCoder
  lastPos : Int

namespace Volume

/-- What one iteration reads: the counts that the knob was turned by and the
result of `ringcoder.update()`. -/
structure Input where
  counts : Int
  stateChanged : Bool
  deriving DecidableEq, Repr

/-- What the sketch sends: a keyboard report with the media key that is set, or
something from the RingCoder. -/
inductive Sent where
  | report (media : Option MediaKey)
  | ringcoder (out : Output)
  deriving DecidableEq, Repr

/-- `Keyboard.set_media(key)` and `Keyboard.set_media(0)`, each with a
`Keyboard.send_now()`. -/
def tap (key : MediaKey) : List Sent := [.report (some key), .report none]

/-- The power-up state after `setup()`. -/
def setup (register : ShiftRegister) (pushButton : Bool) : Volume × List Sent :=
  let (rc, out) := RingCoder.construct register pushButton
  let (rc, spin) := rc.spin
  let (rc, reverseSpin) := rc.reverseSpin
  ({ ringcoder := rc, lastPos := 0 }, (out ++ spin ++ reverseSpin).map .ringcoder)

/-- The knob is turned, the button is read and the encoder is read. -/
def readInputs (v : Volume) (i : Input) : Volume :=
  { v with ringcoder := ((v.ringcoder.turn i.counts).update i.stateChanged).readEncoder }

/-- `stateChanged && state == HIGH` -/
def pressed (v : Volume) (i : Input) : Bool :=
  i.stateChanged && (v.readInputs i).ringcoder.pushButton

/-- A move sends the key of its direction. -/
def sendMove (v : Volume) : Volume × List Sent :=
  let pos := v.ringcoder.encoderPosition
  if v.ringcoder.moved then
    ({ v with lastPos := pos },
      if pos > v.lastPos then tap .volumeInc
      else if pos < v.lastPos then tap .volumeDec
      else [])
  else
    (v, [])

/-- `loop()` -/
def loop (v : Volume) (i : Input) : Volume × List Sent :=
  let mute := if v.pressed i then tap .mute else []
  let (v, keys) := (v.readInputs i).sendMove
  let (rc, ring) := v.ringcoder.ledRingFollower
  ({ v with ringcoder := rc }, mute ++ keys ++ ring.map .ringcoder)

/-- The sketch as a machine. -/
def sketch : Machine Volume Input (List Sent) where
  step := loop

/-! ## What one iteration does -/

/-- The bar graph leaves the dial alone. -/
theorem loop_sameDial (v : Volume) (i : Input) :
    RingCoder.SameDial (v.readInputs i).ringcoder (v.loop i).1.ringcoder := by
  have hring : ((v.readInputs i).sendMove).1.ringcoder = (v.readInputs i).ringcoder := by
    unfold sendMove
    dsimp only
    split_ifs <;> rfl
  show RingCoder.SameDial _ (((v.readInputs i).sendMove).1.ringcoder.ledRingFollower).1
  rw [hring]
  exact RingCoder.setShift_sameDial _ _

theorem loop_lastPos (v : Volume) (i : Input) :
    (v.loop i).1.lastPos =
      if (v.readInputs i).ringcoder.moved then (v.readInputs i).ringcoder.encoderPosition
      else v.lastPos := by
  show ((v.readInputs i).sendMove).1.lastPos = _
  unfold sendMove
  dsimp only
  split_ifs <;> rfl

/-- The reports with a volume key. -/
theorem count_loop (v : Volume) (i : Input) {key : MediaKey} (hkey : key ≠ .mute) :
    (v.loop i).2.count (.report (some key)) =
      ((v.readInputs i).sendMove).2.count (.report (some key)) := by
  have hmute : (if v.pressed i then tap .mute else []).count (Sent.report (some key)) = 0 := by
    rw [List.count_eq_zero]
    split_ifs <;> simp [tap, hkey]
  have hring (out : List Output) : (out.map Sent.ringcoder).count (.report (some key)) = 0 := by
    simp [List.count_eq_zero]
  show ((if v.pressed i then tap .mute else []) ++ ((v.readInputs i).sendMove).2 ++
    List.map Sent.ringcoder _).count _ = _
  rw [List.count_append, List.count_append, hmute, hring, Nat.zero_add, Nat.add_zero]

/-- A move sends one key. -/
theorem count_sendMove (v : Volume) :
    v.sendMove.2.count (.report (some .volumeInc)) =
        (if v.ringcoder.moved ∧ v.lastPos < v.ringcoder.encoderPosition then 1 else 0) ∧
      v.sendMove.2.count (.report (some .volumeDec)) =
        (if v.ringcoder.moved ∧ v.ringcoder.encoderPosition < v.lastPos then 1 else 0) := by
  unfold sendMove
  dsimp only
  split_ifs <;> simp_all [tap]
  omega

end Volume

end ArduinoProjects
