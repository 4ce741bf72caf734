import ArduinoProjects.Lib.Machine
import ArduinoProjects.BleRgb.Ring
import Mathlib.Data.List.Basic

/-!
# The BLE ring light

`src/BLE_RGB/BLE_RGB.ino` draws on a ring of pixels.  Each call of `loop()`
reads at most one command from the receive queue of the BLE library, then lets
the library fill the queue, and then gives the rotation, the blink and the
aimless animation one chance each to draw a frame, up to the first that does.

One call reads what arrives over the air, the results of `millis()` and the
result of `random`.  It writes the frames that it shows.  It also writes the
command that it executed and the divisors of the divisions that it executed,
for the properties that are about these.

Where C++ leaves something open it is a field of `Compiler`: the order in which
the arguments of a call are evaluated, and the quotient of a division by zero.
-/

namespace ArduinoProjects.BleRgb

/-! ## What C++ leaves open -/

/-- The order in which the arguments of `setOne(ble_read(), readColor())` are
evaluated. -/
inductive ArgOrder where
  | indexFirst
  | colorFirst
  deriving DecidableEq, Repr

structure Compiler where
  argOrder : ArgOrder
  /-- The quotient of a number and zero. -/
  divZero : Int → Int

/-- `a / b` on `int`. -/
def Compiler.divide (cc : Compiler) (a b : Int) : Int :=
  if b = 0 then cc.divZero a else a.tdiv b

/-! ## The receive queue -/

/-- `ble_read` takes a byte from the queue.  It is `-1` when the queue is
empty. -/
def bleRead : StateM (List UInt8) Int := fun rx =>
  match rx with
  | [] => (-1, [])
  | data :: rx => ((data.toNat : Int), rx)

/-- A command with its arguments as `ble_read` gave them. -/
inductive Command where
  | setOne (i R G B : Int)
  | setAll (R G B : Int)
  | rotate (speed steps : Int)
  | blink (speed count : Int)
  | flash (speed count : Int)
  | jump (speed count : Int)
  | roulette (speed : Int)
  deriving DecidableEq, Repr

/-- The three reads of `readColor`. -/
def readColor : StateM (List UInt8) (Int × Int × Int) := do
  let R ← bleRead
  let G ← bleRead
  let B ← bleRead
  return (R, G, B)

/-- The cases of the `switch` in `loop`. -/
def readCommand (cc : Compiler) (command : UInt8) : StateM (List UInt8) (Option Command) :=
  if command = 'O'.toUInt8 then
    match cc.argOrder with
    | .indexFirst => do
      let i ← bleRead
      let (R, G, B) ← readColor
      return some (.setOne i R G B)
    | .colorFirst => do
      let (R, G, B) ← readColor
      let i ← bleRead
      return some (.setOne i R G B)
  else if command = 'A'.toUInt8 then do
    let (R, G, B) ← readColor
    return some (.setAll R G B)
  else if command = 'R'.toUInt8 then do
    let speed ← bleRead
    let steps ← bleRead
    return some (.rotate speed steps)
  else if command = 'B'.toUInt8 then do
    let speed ← bleRead
    let count ← bleRead
    return some (.blink speed count)
  else if command = 'F'.toUInt8 then do
    let speed ← bleRead
    let count ← bleRead
    return some (.flash speed count)
  else if command = 'J'.toUInt8 then do
    let speed ← bleRead
    let count ← bleRead
    return some (.jump speed count)
  else if command = 'G'.toUInt8 then do
    let speed ← bleRead
    return some (.roulette speed)
  else
    return none

/-- What `loop` reads from the queue.  Only the first byte is checked for with
`ble_available`. -/
def receive (cc : Compiler) : StateM (List UInt8) (Option Command) := fun rx =>
  match rx with
  | [] => (none, [])
  | command :: rx => readCommand cc command rx

/-! ## The state -/

structure Rotation where
  previousUpdateMs : UInt32
  speed : Int8
  steps : UInt8

structure Blink where
  previousUpdateMs : UInt32
  speed : Int8
  count : UInt8
  saved : Fin LED_COUNT → UInt32

inductive AimlessStyle where
  | off
  | roulette
  | jump
  deriving DecidableEq, Repr

structure Aimless where
  style : AimlessStyle
  previousUpdateMs : UInt32
  speed : Int8
  count : UInt8

/-- The globals of the sketch, and the receive queue. -/
structure Sketch (px : PixelStore) where
  ring : Ring px
  rotation : Rotation
  blinky : Blink
  aimless : Aimless
  rx : List UInt8

/-- What one iteration reads: whether the central is connected, the bytes that
`ble_do_events` puts into the queue, which drops those that do not fit, the
results of `millis()` in the three animations and the result of
`random(ring.numPixels())`. -/
structure Input where
  connected : Bool
  received : List UInt8
  rotateMs : UInt32
  flashMs : UInt32
  aimMs : UInt32
  random : Fin LED_COUNT

/-- What one iteration writes. -/
structure Output (px : PixelStore) where
  executed : Option Command
  frames : List (Ring px)
  divisors : List Int

variable {px : PixelStore}

/-! ## Commands -/

namespace Command

/-- The case of the `switch` after its reads. -/
def execute (s : Sketch px) : Command → Sketch px
  | setOne i R G B =>
    { s with ring := BleRgb.setOne s.ring i (Color (.ofInt R) (.ofInt G) (.ofInt B)) }
  | setAll R G B =>
    { s with ring := BleRgb.setAll s.ring (Color (.ofInt R) (.ofInt G) (.ofInt B)) }
  | rotate speed steps =>
    { s with rotation := { s.rotation with speed := .ofInt speed, steps := .ofInt steps } }
  | blink speed count | flash speed count =>
    { s with blinky := { s.blinky with speed := .ofInt speed, count := .ofInt count } }
  | jump speed count =>
    { s with aimless :=
      { s.aimless with style := .jump, speed := .ofInt speed, count := .ofInt count } }
  | roulette speed =>
    { s with aimless := { s.aimless with style := .roulette, speed := .ofInt speed } }

/-- The cases that end with `ring.show()`. -/
def shows : Command → Bool
  | setOne .. | setAll .. => true
  | _ => false

end Command

/-! ## Animations -/

/-- What a call of an animation does: the new state, whether it made a frame,
and the divisors of its divisions. -/
structure Animation (px : PixelStore) where
  sketch : Sketch px
  frame : Bool
  divisors : List Int

/-- `currentMillis - previousUpdateMs >= interval`, in `unsigned long`. -/
def Due (interval currentMillis previousUpdateMs : UInt32) : Prop :=
  interval ≤ currentMillis - previousUpdateMs

instance (interval currentMillis previousUpdateMs : UInt32) :
    Decidable (Due interval currentMillis previousUpdateMs) :=
  inferInstanceAs (Decidable (_ ≤ _))

/-- `1000 / abs(speed)` -/
def Compiler.interval (cc : Compiler) (speed : Int8) : UInt32 :=
  .ofInt (cc.divide 1000 |speed.toInt|)

/-- `speed / abs(speed)`, +1 or -1 -/
def Compiler.direction (cc : Compiler) (speed : Int8) : Int8 :=
  .ofInt (cc.divide speed.toInt |speed.toInt|)

/-- `1000 / blinky.speed`, which has the sign of the speed before it becomes
`unsigned long`. -/
def Compiler.blinkInterval (cc : Compiler) (speed : Int8) : UInt32 :=
  .ofInt (cc.divide 1000 speed.toInt)

def rotate (cc : Compiler) (s : Sketch px) (currentMillis : UInt32) : Animation px :=
  if s.rotation.speed = 0 then ⟨s, false, []⟩ -- Stopped
  else
    let speed := if s.rotation.steps = 0 then 0 else s.rotation.speed
    let interval := cc.interval speed
    let direction := cc.direction speed
    let divisors := [|speed.toInt|, |speed.toInt|]
    if Due interval currentMillis s.rotation.previousUpdateMs then
      ⟨{ s with
          rotation := ⟨currentMillis, speed, s.rotation.steps - 1⟩
          ring := shift s.ring direction.toInt }, true, divisors⟩
    else
      ⟨{ s with rotation := { s.rotation with speed := speed } }, false, divisors⟩

/-- An even count puts the saved picture back, an odd count saves the picture
and turns the ring off. -/
def flash (cc : Compiler) (s : Sketch px) (currentMillis : UInt32) : Animation px :=
  if s.blinky.count = 0 then ⟨s, false, []⟩
  else
    let interval := cc.blinkInterval s.blinky.speed
    let divisors := [s.blinky.speed.toInt]
    if Due interval currentMillis s.blinky.previousUpdateMs then
      if s.blinky.count % 2 = 0 then
        ⟨{ s with
            ring := setEach s.ring s.blinky.saved
            blinky :=
              { s.blinky with
                previousUpdateMs := currentMillis, count := s.blinky.count - 1 } },
          true, divisors⟩
      else
        ⟨{ s with
            ring := setAll s.ring (Color 0 0 0)
            blinky :=
              { s.blinky with
                previousUpdateMs := currentMillis, count := s.blinky.count - 1
                saved := getEach s.ring } },
          true, divisors⟩
    else ⟨s, false, divisors⟩

def spinRoulette (cc : Compiler) (s : Sketch px) (currentMillis : UInt32) : Animation px :=
  let interval := cc.interval s.aimless.speed
  let direction := cc.direction s.aimless.speed
  let divisors := [|s.aimless.speed.toInt|, |s.aimless.speed.toInt|]
  if Due interval currentMillis s.aimless.previousUpdateMs then
    let ring := shift s.ring direction.toInt
    let speed := if s.aimless.count = 0 then s.aimless.speed - 1 else s.aimless.speed
    let count := if s.aimless.count = 0 then .ofInt speed.toInt else s.aimless.count
    let style := if speed = 0 then .off else s.aimless.style
    ⟨{ s with ring := ring, aimless := ⟨style, currentMillis, speed, count⟩ }, true, divisors⟩
  else ⟨s, false, divisors⟩

def jumpAround (cc : Compiler) (s : Sketch px) (currentMillis : UInt32)
    (random : Fin LED_COUNT) : Animation px :=
  let interval := cc.interval s.aimless.speed
  let divisors := [|s.aimless.speed.toInt|]
  if Due interval currentMillis s.aimless.previousUpdateMs then
    let ring := shift s.ring random.val
    let count := s.aimless.count - 1
    let style := if count = 0 then .off else s.aimless.style
    ⟨{ s with ring := ring, aimless := ⟨style, currentMillis, s.aimless.speed, count⟩ },
      true, divisors⟩
  else ⟨s, false, divisors⟩

def aim (cc : Compiler) (s : Sketch px) (currentMillis : UInt32) (random : Fin LED_COUNT) :
    Animation px :=
  match s.aimless.style with
  | .off => ⟨s, false, []⟩
  | .roulette => spinRoulette cc s currentMillis
  | .jump => jumpAround cc s currentMillis random

/-- `rotate() || flash() || aim()`: an animation is called when none before it
made a frame. -/
def animate (cc : Compiler) (s : Sketch px) (i : Input) : Animation px :=
  let a := rotate cc s i.rotateMs
  if a.frame then a
  else
    let b := flash cc a.sketch i.flashMs
    if b.frame then { b with divisors := a.divisors ++ b.divisors }
    else
      let c := aim cc b.sketch i.aimMs i.random
      { c with divisors := a.divisors ++ b.divisors ++ c.divisors }

/-! ## setup and loop -/

/-- The three pixels of `setup`, drawn on a cleared buffer. -/
def setupRing (px : PixelStore) : Ring px :=
  let ring : Ring px := fun _ => px.cleared
  let ring := setOne ring 0 (Color 0xff 0x00 0x00)
  let ring := setOne ring 8 (Color 0x00 0xff 0x00)
  setOne ring 16 (Color 0x00 0x00 0xff)

/-- The state after `setup()`, which ends with `testing(2)`, and the frame that
it has shown. -/
def setup (px : PixelStore) : Sketch px × List (Ring px) :=
  ({ ring := setupRing px
     rotation := ⟨0, 0, 0⟩
     blinky := ⟨0, 1, 5, fun _ => 0⟩
     aimless := ⟨.off, 0, 0, 0⟩
     rx := [] }, [setupRing px])

/-- The command that `loop` reads in an iteration, and the queue after it. -/
def nextCommand (cc : Compiler) (s : Sketch px) (i : Input) : Option Command × List UInt8 :=
  if i.connected then receive cc s.rx else (none, s.rx)

/-- The state after the command of an iteration and `ble_do_events`. -/
def commanded (cc : Compiler) (s : Sketch px) (i : Input) : Sketch px :=
  let (command, rx) := nextCommand cc s i
  { command.elim s (Command.execute s) with rx := rx ++ i.received }

def loop (cc : Compiler) (s : Sketch px) (i : Input) : Sketch px × Output px :=
  let command := (nextCommand cc s i).1
  let s := commanded cc s i
  let a := animate cc s i
  (a.sketch,
    { executed := command
      frames := (if command.any Command.shows then [s.ring] else []) ++
        (if a.frame then [a.sketch.ring] else [])
      divisors := a.divisors })

/-- The sketch: what `loop()` does when the board calls it again and again. -/
def sketch (px : PixelStore) (cc : Compiler) : Machine (Sketch px) Input (Output px) where
  step := loop cc

end ArduinoProjects.BleRgb
