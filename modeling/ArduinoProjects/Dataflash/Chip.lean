import ArduinoProjects.Dataflash.Basic
import ArduinoProjects.Lib.PageArray
import ArduinoProjects.Lib.Returns

/-!
# The AT45DB041B on the bus

The chip has 2048 pages of 264 bytes and two SRAM buffers of the same size.  A
command is the bytes that it receives while SS is `LOW`: an opcode, a 24-bit
address of 4 reserved bits, 11 page bits and 9 byte bits, and data.  `answer`
is the byte that the chip shifts out, and `execute` is what a whole command
does when SS goes back to `HIGH`.

`Board` is the chip with the SS pin and the clock.  Its lemmas follow a command
byte by byte: `Receiving` says which bytes have been sent so far.  The chip is
always ready, so that one poll is enough.
-/

namespace ArduinoProjects.Dataflash

open PageArray

/-- One of the two SRAM buffers. -/
inductive BufferNo where
  | one
  | two
  deriving DecidableEq, Repr

/-- The number that the library has for the buffer. -/
def BufferNo.toUInt8 : BufferNo → UInt8
  | one => 1
  | two => 2

/-- The contents of a page of the flash or of a buffer. -/
abbrev Bytes := Page 264 UInt8

/-- An AT45DB041B that is always ready. -/
structure Chip where
  flash : Fin 2048 → Bytes
  buffer : BufferNo → Bytes
  status : UInt8
  ready : status &&& READY_BIT ≠ 0

namespace Chip

/-! ## Commands -/

inductive Command where
  | pageToBuffer (b : BufferNo)
  | bufferToPage (b : BufferNo)
  | bufferRead (b : BufferNo)
  | bufferWrite (b : BufferNo)
  | pageRead
  | status
  deriving DecidableEq

/-- The command of an opcode. -/
def decode (opcode : UInt8) : Option Command :=
  if opcode = FlashToBuf1Transfer then some (.pageToBuffer .one)
  else if opcode = FlashToBuf2Transfer then some (.pageToBuffer .two)
  else if opcode = Buf1ToFlashWE then some (.bufferToPage .one)
  else if opcode = Buf2ToFlashWE then some (.bufferToPage .two)
  else if opcode = Buf1Read then some (.bufferRead .one)
  else if opcode = Buf2Read then some (.bufferRead .two)
  else if opcode = Buf1Write then some (.bufferWrite .one)
  else if opcode = Buf2Write then some (.bufferWrite .two)
  else if opcode = FlashPageRead then some .pageRead
  else if opcode = StatusReg then some .status
  else none

/-- The 24-bit address of three bytes. -/
def address (high mid low : UInt8) : Nat :=
  high.toNat * 65536 + mid.toNat * 256 + low.toNat

/-- The page bits of an address, above the byte bits and below the reserved
ones. -/
def pageNumber (high mid low : UInt8) : Fin 2048 := Fin.ofNat 2048 (address high mid low / 512)

/-- The byte bits of an address. -/
def byteNumber (high mid low : UInt8) : Nat := address high mid low % 512

/-- The byte at an address of a page or a buffer.  Past the last byte the chip
goes on with the first one. -/
def byteAt (bytes : Bytes) (addr : Nat) : UInt8 := bytes (Fin.ofNat 264 addr)

/-- The bytes written one after the other from an address. -/
def store (bytes : Bytes) (addr : Nat) : List UInt8 → Bytes
  | [] => bytes
  | b :: data => store (Function.update bytes (Fin.ofNat 264 addr) b) (addr + 1) data

def setBuffer (chip : Chip) (b : BufferNo) (bytes : Bytes) : Chip :=
  { chip with buffer := Function.update chip.buffer b bytes }

def setPage (chip : Chip) (p : Fin 2048) (bytes : Bytes) : Chip :=
  { chip with flash := Function.update chip.flash p bytes }

@[simp] theorem setBuffer_flash (chip : Chip) (b : BufferNo) (bytes : Bytes) :
    (chip.setBuffer b bytes).flash = chip.flash := rfl

@[simp] theorem setBuffer_buffer (chip : Chip) (b : BufferNo) (bytes : Bytes) :
    (chip.setBuffer b bytes).buffer b = bytes := by simp [setBuffer]

@[simp] theorem setPage_flash (chip : Chip) (p : Fin 2048) (bytes : Bytes) :
    (chip.setPage p bytes).flash = Function.update chip.flash p bytes := rfl

/-- The byte that the chip shifts out after the bytes of a command. -/
def answer (chip : Chip) : List UInt8 → UInt8
  | [] => 0xFF
  | opcode :: rest =>
    match decode opcode, rest with
    | some .status, _ => chip.status
    | some (.bufferRead b), high :: mid :: low :: _ :: sent =>
      byteAt (chip.buffer b) (byteNumber high mid low + sent.length)
    | some .pageRead, high :: mid :: low :: _ :: _ :: _ :: _ :: sent =>
      byteAt (chip.flash (pageNumber high mid low)) (byteNumber high mid low + sent.length)
    | _, _ => 0xFF

/-- The chip after a whole command. -/
def execute (chip : Chip) : List UInt8 → Chip
  | opcode :: high :: mid :: low :: data =>
    match decode opcode with
    | some (.pageToBuffer b) => chip.setBuffer b (chip.flash (pageNumber high mid low))
    | some (.bufferToPage b) => chip.setPage (pageNumber high mid low) (chip.buffer b)
    | some (.bufferWrite b) =>
      chip.setBuffer b (store (chip.buffer b) (byteNumber high mid low) data)
    | _ => chip
  | _ => chip

end Chip

/-! ## The board -/

/-- The chip on its board.  `frame` holds the bytes of the command that is
going on while SS is `LOW`, and `clock` the values of `millis()`. -/
structure Board where
  chip : Chip
  frame : Option (List UInt8)
  clock : Nat → UInt32
  ticks : Nat
  serial : List String

namespace Board

def transfer (b : UInt8) (board : Board) : UInt8 × Board :=
  match board.frame with
  | none => (0xFF, board)
  | some bytes => (board.chip.answer bytes, { board with frame := some (bytes ++ [b]) })

def readSS (board : Board) : Level :=
  match board.frame with
  | none => .HIGH
  | some _ => .LOW

def writeSS (level : Level) (board : Board) : Board :=
  match level, board.frame with
  | .HIGH, some bytes => { board with chip := board.chip.execute bytes, frame := none }
  | .LOW, none => { board with frame := some [] }
  | _, _ => board

instance : SpiBus Board where
  spiBegin := id
  beginTransaction := id
  endTransaction := id
  transfer := transfer
  digitalReadSS := readSS
  digitalWriteSS := writeSS
  digitalWriteBLE _ := id
  millis board := (board.clock board.ticks, { board with ticks := board.ticks + 1 })
  serialPrint text board := { board with serial := board.serial ++ [text] }

/-- Between two commands. -/
def Idle (chip : Chip) (board : Board) : Prop :=
  board.chip = chip ∧ board.frame = none

/-- In a command, after some of its bytes. -/
def Receiving (chip : Chip) (bytes : List UInt8) (board : Board) : Prop :=
  board.chip = chip ∧ board.frame = some bytes

variable {chip : Chip} {bytes : List UInt8} {board : Board}

/-! ## The bytes of a command -/

theorem transfer_returns (h : board.Receiving chip bytes) (b : UInt8) :
    Returns (Dataflash.transfer b) board fun reply board' =>
      reply = chip.answer bytes ∧ board'.Receiving chip (bytes ++ [b]) := by
  obtain ⟨rfl, hframe⟩ := h
  refine ⟨_, _, rfl, ?_⟩
  simp [hframe, Receiving]

/-- The bytes that the chip shifts out while it receives some more. -/
def replies (chip : Chip) (bytes : List UInt8) : List UInt8 → List UInt8
  | [] => []
  | b :: data => chip.answer bytes :: replies chip (bytes ++ [b]) data

theorem replies_concat (chip : Chip) (bytes data : List UInt8) (b : UInt8) :
    replies chip bytes (data ++ [b]) =
      replies chip bytes data ++ [chip.answer (bytes ++ data)] := by
  induction data generalizing bytes with
  | nil => simp [replies]
  | cons d data ih => simp [replies, ih]

theorem transferAll_returns (h : board.Receiving chip bytes) (data : List UInt8) :
    Returns (data.mapM Dataflash.transfer) board fun received board' =>
      received = replies chip bytes data ∧ board'.Receiving chip (bytes ++ data) := by
  refine Returns.mapM
    (fun done received (board' : Board) =>
      received = replies chip bytes done ∧ board'.Receiving chip (bytes ++ done))
    ?_ data ⟨rfl, by simpa using h⟩
  rintro done received board' b ⟨rfl, hboard⟩
  refine (transfer_returns hboard b).mono ?_
  rintro reply board'' ⟨rfl, hboard'⟩
  exact ⟨(replies_concat chip bytes done b).symm, by simpa using hboard'⟩

theorem chipSelect_returns (h : board.Idle chip) :
    Returns chipSelect board fun _ board' => board'.Receiving chip [] := by
  obtain ⟨rfl, hframe⟩ := h
  refine ⟨(), { board with frame := some [] }, ?_, rfl, rfl⟩
  obtain ⟨chip, frame, clock, ticks, serial⟩ := board
  cases hframe
  rfl

theorem chipDeselect_returns (h : board.Receiving chip bytes) :
    Returns chipDeselect board fun _ board' => board'.Idle (chip.execute bytes) := by
  obtain ⟨rfl, hframe⟩ := h
  refine ⟨(), { board with chip := board.chip.execute bytes, frame := none }, ?_, rfl, rfl⟩
  obtain ⟨chip, frame, clock, ticks, serial⟩ := board
  cases hframe
  rfl

theorem strobe_returns (h : board.Receiving chip bytes) :
    Returns strobe board fun _ board' => board'.Receiving (chip.execute bytes) [] := by
  obtain ⟨rfl, hframe⟩ := h
  refine ⟨(), { board with chip := board.chip.execute bytes, frame := some [] }, ?_, rfl, rfl⟩
  obtain ⟨chip, frame, clock, ticks, serial⟩ := board
  cases hframe
  rfl

theorem readStatus_returns (h : board.Receiving chip []) :
    Returns readStatus board fun status board' =>
      status = chip.status ∧ board'.Receiving chip [StatusReg, 0x00] := by
  refine Returns.bind (transfer_returns h StatusReg) fun _ board' h' => ?_
  refine (transfer_returns h'.2 0x00).mono ?_
  rintro status board'' ⟨rfl, hboard⟩
  exact ⟨rfl, hboard⟩

theorem millis_returns (h : board.Receiving chip bytes) :
    Returns millis board fun _ board' => board'.Receiving chip bytes :=
  ⟨_, _, rfl, h⟩

/-- The chip is ready at the first poll, whether or not the clock says that the
time is over. -/
theorem waitForReady_returns (h : board.Receiving chip []) (polls : Nat) (timeout : UInt32) :
    Returns (waitForReady (polls + 1) timeout) board fun _ board' =>
      board'.Receiving chip [StatusReg, 0x00] := by
  refine Returns.bind (millis_returns h) fun startTime board₁ h₁ => ?_
  refine Returns.bind (readStatus_returns h₁) fun status board₂ h₂ => ?_
  obtain ⟨rfl, hboard⟩ := h₂
  refine Returns.bind (millis_returns hboard) fun now board₃ h₃ => ?_
  split_ifs with htime hready
  · exact ⟨_, _, rfl, h₃⟩
  · exact absurd hready chip.ready
  · exact Returns.pure h₃

end Board

end ArduinoProjects.Dataflash
