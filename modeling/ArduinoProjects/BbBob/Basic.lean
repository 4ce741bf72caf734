import ArduinoProjects.Lib.CString
import ArduinoProjects.Lib.Machine
import ArduinoProjects.Prankphone.Bounce

/-!
# The trackball that talks back

`src/bb_bob/bb_bob.ino` is a trackball with a button and a crypto chip.  One call of
`loop()` echoes what has come in on the serial port, and asks the chip for its serial
number when the button goes down.

`Serial.readBytes` stores the bytes that have come in at the front of `inputBuffer`
and returns their number.  `String(inputBuffer)` reads the array as a C string.

The interrupts of the ball change `xPos` and `yPos` at any time, so the values that
an iteration reads from them are inputs, and so are the answers of the chip.
-/

namespace ArduinoProjects

/-- `MAX_SERIAL_BYTES` -/
def MAX_SERIAL_BYTES : Nat := 255

def SHA204_SUCCESS : UInt8 := 0x00
def SHA204_RX_NO_RESPONSE : UInt8 := 0xE7

/-- The globals of the sketch that its loop reads and writes. -/
structure BbBob where
  button : Bounce
  inputBuffer : { array : List UInt8 // array.length = MAX_SERIAL_BYTES }
  bytesRead : Int
  returnValue : UInt8

namespace BbBob

/-- The answer of a function of the chip: its return code, and the bytes that it has
left in its array. -/
structure Answer where
  returnValue : UInt8
  bytes : List UInt8
  deriving DecidableEq, Repr

/-- What one iteration reads: the pin of the button, the bytes that `readBytes` stores
when the port is available, the position of the ball at a push, the answers of
`wakeup` and of `serialNumber`, and the position of the ball at the end, in the order
of the arguments of `setBRGW`. -/
structure Input where
  button : Bounce.Reading
  received : Option { data : List UInt8 // data.length ≤ MAX_SERIAL_BYTES }
  pushedAt : UInt8 × UInt8
  wakeup : UInt8
  serialNumber : Answer
  brgw : UInt8 × UInt8 × UInt8 × UInt8

/-- What the sketch writes. -/
inductive Output where
  /-- A line of text on the serial port. -/
  | println (line : String)
  /-- A line that ends with a `String` made of a `char` array.  The bytes are those
  that the constructor finds, or `none` when it reads past the array. -/
  | printlnString (label : String) (bytes : Option (List UInt8))
  | click
  | setBRGW (b r g w : UInt8)
  deriving DecidableEq, Repr

/-! ## The crypto chip -/

/-- `Serial.print(b, HEX)` -/
def hex (b : UInt8) : String := String.ofList ((Nat.toDigits 16 b.toNat).map Char.toUpper)

/-- The bytes of an answer, each with a blank behind it. -/
def hexLine (bytes : List UInt8) : Output :=
  .println (String.join (bytes.map fun b => hex b ++ " "))

def returnString (returnValue : UInt8) : String :=
  if returnValue = SHA204_SUCCESS then "Success"
  else if returnValue = SHA204_RX_NO_RESPONSE then "No response"
  else toString returnValue.toNat

def wakeupExample (wakeup : Answer) : List Output :=
  if wakeup.returnValue = SHA204_SUCCESS then [hexLine wakeup.bytes]
  else [.println ("sha204dev.wakeup: " ++ returnString wakeup.returnValue)]

def serialNumberExample (serialNumber : Answer) : List Output :=
  [.println "Asking the SHA204's serial number. Response should be:",
    .println "1 23 x x x x x x x EE"] ++
  if serialNumber.returnValue = SHA204_SUCCESS then [hexLine serialNumber.bytes]
  else [.println ("sha204dev.serialNumber: " ++ returnString serialNumber.returnValue)]

/-! ## setup and loop -/

/-- The state after `setup()`, with the level of the button and the answer of the
chip to `wakeup`. -/
def setup (button : Bounce.Reading) (wakeup : Answer) : BbBob × List Output :=
  ({ button := (Bounce.construct.attach button).interval 5
     inputBuffer := ⟨List.replicate MAX_SERIAL_BYTES 0, List.length_replicate⟩
     bytesRead := 0
     returnValue := 0 }, wakeupExample wakeup)

/-- `Serial.readBytes(inputBuffer, MAX_SERIAL_BYTES)` -/
def readBytes (c : BbBob) (data : { data : List UInt8 // data.length ≤ MAX_SERIAL_BYTES }) :
    BbBob :=
  { c with
    inputBuffer := ⟨CString.overwrite c.inputBuffer.val data.val, by
      have hdata := data.property
      have harray := c.inputBuffer.property
      rw [CString.length_overwrite (by omega), harray]⟩
    bytesRead := data.val.length }

/-- What has come in on the serial port is said again. -/
def readSerial (c : BbBob) :
    Option { data : List UInt8 // data.length ≤ MAX_SERIAL_BYTES } → BbBob × List Output
  | none => (c, [])
  | some data =>
    let c := c.readBytes data
    if c.bytesRead > 0 then
      (c, [.printlnString "So, what you're saying is, " (CString.text 0 c.inputBuffer.val)])
    else
      (c, [])

/-- `loop()` -/
def loop (c : BbBob) (i : Input) : BbBob × List Output :=
  let (button, stateChanged) := c.button.update i.button
  let state := button.read
  let c := { c with button }
  let (c, said) := c.readSerial i.received
  let (b, r, g, w) := i.brgw
  if stateChanged ∧ state = false then -- button down
    let pushed := .println ("Button pushed: " ++ toString i.pushedAt.1.toNat ++ "," ++
      toString i.pushedAt.2.toNat)
    let c := { c with returnValue := i.wakeup }
    if i.wakeup ≠ SHA204_SUCCESS then
      (c, said ++ [pushed])
    else
      (c, said ++ [pushed] ++ serialNumberExample i.serialNumber ++ [.click, .setBRGW b r g w])
  else
    (c, said ++ [.setBRGW b r g w])

/-- The sketch as a machine. -/
def sketch : Machine BbBob Input (List Output) where
  step := loop

end BbBob

end ArduinoProjects
