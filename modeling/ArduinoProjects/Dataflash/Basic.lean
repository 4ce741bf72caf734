import Mathlib.Data.UInt

/-!
# The Dataflash library

`libraries/dataflash` talks to an AT45DB041B over SPI.  Every public function
selects the chip, sends an opcode, an address and data, and deselects it.

The bus is the class `SpiBus`: the state of whatever hangs on the SPI pins,
with one operation for each thing that the library does to the pins or reads
from the board.  A bus that records what is sent and a bus with a chip on it
are two instances, so that a result about the bytes on the wire and a result
about the contents of the chip are about the same functions.

An `unsigned int` of the AVR is a `UInt16` and an `unsigned long` a `UInt32`.
A conversion to `uint8_t` keeps the low eight bits.
-/

namespace ArduinoProjects.Dataflash

/-! ## dataflash.h -/

/-- Main memory page read. -/
def FlashPageRead : UInt8 := 0xD2
/-- Main memory page to buffer 1 transfer. -/
def FlashToBuf1Transfer : UInt8 := 0x53
/-- Buffer 1 read. -/
def Buf1Read : UInt8 := 0xD4
/-- Main memory page to buffer 2 transfer. -/
def FlashToBuf2Transfer : UInt8 := 0x55
/-- Buffer 2 read. -/
def Buf2Read : UInt8 := 0xD6
/-- Status register. -/
def StatusReg : UInt8 := 0xD7
/-- Buffer 1 to main memory page program with built-in erase. -/
def Buf1ToFlashWE : UInt8 := 0x83
/-- Buffer 1 write. -/
def Buf1Write : UInt8 := 0x84
/-- Buffer 2 to main memory page program with built-in erase. -/
def Buf2ToFlashWE : UInt8 := 0x86
/-- Buffer 2 write. -/
def Buf2Write : UInt8 := 0x87

def READY_BIT : UInt8 := 0b10000000
def ONE_SECOND : UInt32 := 1000
def DUMMY_BYTE : UInt8 := 0x00

/-- Hard coded for the AT45DB041B. -/
def PageBits : UInt16 := 11

/-! ## The board -/

/-- A pin level. -/
inductive Level where
  | LOW
  | HIGH
  deriving DecidableEq, Repr

/-- What the library does to the pins, the SPI controller and the serial port,
and the clock that it reads. -/
class SpiBus (σ : Type) where
  /-- `SPI.begin()`. -/
  spiBegin : σ → σ
  /-- `SPI.beginTransaction(dflashSettings)`. -/
  beginTransaction : σ → σ
  /-- `SPI.endTransaction()`. -/
  endTransaction : σ → σ
  /-- `SPI.transfer(b)`: one byte out, one byte in. -/
  transfer : UInt8 → σ → UInt8 × σ
  /-- `digitalRead(SS)`. -/
  digitalReadSS : σ → Level
  /-- `digitalWrite(SS, level)`. -/
  digitalWriteSS : Level → σ → σ
  /-- `digitalWrite(6, level)`, the chip select of the BLE chip. -/
  digitalWriteBLE : Level → σ → σ
  /-- `millis()`. -/
  millis : σ → UInt32 × σ
  /-- `Serial.print` of a text. -/
  serialPrint : String → σ → σ

/-- A function of the library.  It changes the bus, and it is `none` when a
poll loop has used up its fuel. -/
abbrev SpiM (σ : Type) := StateT σ Option

variable {σ : Type} [SpiBus σ]

def transfer (b : UInt8) : SpiM σ UInt8 := modifyGet (SpiBus.transfer b)

def digitalReadSS : SpiM σ Level := do return SpiBus.digitalReadSS (← get)

def digitalWriteSS (level : Level) : SpiM σ Unit := modify (SpiBus.digitalWriteSS level)

def digitalWriteBLE (level : Level) : SpiM σ Unit := modify (SpiBus.digitalWriteBLE level)

def millis : SpiM σ UInt32 := modifyGet SpiBus.millis

/-! ## Selecting the chip -/

def chipSelect : SpiM σ Unit := do
  modify SpiBus.beginTransaction
  if (← digitalReadSS) = .LOW then
    digitalWriteSS .HIGH
  -- Super hacky; shut off BLE chip select
  digitalWriteBLE .HIGH
  digitalWriteSS .LOW

def chipDeselect : SpiM σ Unit := do
  digitalWriteSS .HIGH
  modify SpiBus.endTransaction

def strobe : SpiM σ Unit := do
  digitalWriteSS .HIGH
  digitalWriteSS .LOW

/-! ## Waiting -/

def readStatus : SpiM σ UInt8 := do
  let _ ← transfer StatusReg
  transfer 0x00

/-- The loop of `waitForReady`.  The fuel is the number of polls. -/
def pollReady (timeout startTime : UInt32) : Nat → SpiM σ UInt8
  | 0 => failure
  | polls + 1 => do
    let status ← readStatus
    if (← millis) - startTime > timeout then
      modify (SpiBus.serialPrint "waitForReady timeout; ")
      modify (SpiBus.serialPrint (toString timeout))
      return 0 -- false
    else if status &&& READY_BIT = 0 then
      pollReady timeout startTime polls
    else
      return status

/-- Done within the context of a command, and thus does not select or unselect
the chip. -/
def waitForReady (polls : Nat) (timeout : UInt32) : SpiM σ UInt8 := do
  let startTime ← millis
  pollReady timeout startTime polls

/-! ## Addresses -/

/-- The upper part of a page address. -/
def highByte (PageAdr : UInt16) : UInt8 := (PageAdr >>> (16 - PageBits)).toUInt8

/-- The lower part of a page address. -/
def midByte (PageAdr : UInt16) : UInt8 := (PageAdr <<< (PageBits - 8)).toUInt8

/-! ## Public functions -/

def init (polls : Nat) : SpiM σ UInt8 := do
  modify SpiBus.spiBegin
  chipSelect
  let status ← waitForReady polls ONE_SECOND
  chipDeselect
  return status

/-- Transfers a page from flash to an SRAM buffer. -/
def pageToBuffer (polls : Nat) (PageAdr : UInt16) (BufferNo : UInt8) : SpiM σ Unit := do
  let high_byte := highByte PageAdr
  let mid_byte := midByte PageAdr
  let low_byte := 0
  chipSelect
  if 1 = BufferNo then
    let _ ← transfer FlashToBuf1Transfer
  else if 2 = BufferNo then
    let _ ← transfer FlashToBuf2Transfer
  let _ ← transfer high_byte
  let _ ← transfer mid_byte
  let _ ← transfer low_byte
  strobe
  let _ ← waitForReady polls ONE_SECOND
  chipDeselect

/-- Reads `No_of_bytes` bytes from one of the SRAM buffers. -/
def bufferReadStr (BufferNo : UInt8) (IntPageAdr No_of_bytes : UInt16) :
    SpiM σ (List UInt8) := do
  chipSelect
  if 1 = BufferNo then
    let _ ← transfer Buf1Read
  else if 2 = BufferNo then
    let _ ← transfer Buf2Read
  let _ ← transfer 0x00 -- don't cares
  let _ ← transfer (IntPageAdr >>> 8).toUInt8
  let _ ← transfer IntPageAdr.toUInt8
  let _ ← transfer 0x00 -- don't cares
  let BufferPtr ← (List.replicate No_of_bytes.toNat 0x00).mapM transfer
  chipDeselect
  return BufferPtr

/-- Reads `No_of_bytes` bytes of a page without an SRAM buffer. -/
def pageReadStr (PageAdr IntPageAdr No_of_bytes : UInt16) : SpiM σ (List UInt8) := do
  let high_byte := highByte PageAdr
  let mid_byte := ((PageAdr <<< (PageBits - 8)) |||
    (IntPageAdr >>> 8).toUInt8.toUInt16).toUInt8
  let low_byte := IntPageAdr.toUInt8
  chipSelect
  let _ ← transfer FlashPageRead
  -- 24 bit address, xxxxPPPPPPPPPPPBBBBBBBBB
  let _ ← transfer high_byte
  let _ ← transfer mid_byte
  let _ ← transfer low_byte
  -- 32bits of don't care
  let _ ← transfer DUMMY_BYTE
  let _ ← transfer DUMMY_BYTE
  let _ ← transfer DUMMY_BYTE
  let _ ← transfer DUMMY_BYTE
  let BufferPtr ← (List.replicate No_of_bytes.toNat DUMMY_BYTE).mapM transfer
  chipDeselect
  return BufferPtr

/-- Copies the bytes at `BufferPtr` to one of the SRAM buffers.  The list is
the first `No_of_bytes` of them. -/
def bufferWriteStr (BufferNo : UInt8) (IntPageAdr : UInt16) (BufferPtr : List UInt8) :
    SpiM σ Unit := do
  chipSelect
  if 1 = BufferNo then
    let _ ← transfer Buf1Write
  else if 2 = BufferNo then
    let _ ← transfer Buf2Write
  let _ ← transfer 0x00 -- don't cares
  let _ ← transfer (IntPageAdr >>> 8).toUInt8
  let _ ← transfer IntPageAdr.toUInt8
  let _ ← BufferPtr.mapM transfer
  chipDeselect

/-- Transfers an SRAM buffer to a page of the flash. -/
def bufferToPage (polls : Nat) (BufferNo : UInt8) (PageAdr : UInt16) : SpiM σ Unit := do
  chipSelect
  if 1 = BufferNo then
    let _ ← transfer Buf1ToFlashWE
  else if 2 = BufferNo then
    let _ ← transfer Buf2ToFlashWE
  let _ ← transfer (highByte PageAdr)
  let _ ← transfer (midByte PageAdr)
  let _ ← transfer 0x00 -- don't cares
  strobe
  let _ ← waitForReady polls ONE_SECOND
  chipDeselect

end ArduinoProjects.Dataflash
