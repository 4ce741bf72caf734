import ArduinoProjects.Sha204.Protocol

/-!
# The commands of the chip

The marshaling functions of `src/libraries/SHA204/SHA204.cpp` check their arguments, put a
command into `tx_buffer` and let `send_and_receive` do the rest.  Here each of them is
what it puts there, a `Command`, or nothing when it returns `SHA204_BAD_PARAM`.  `execute`
takes the bytes of any command, and has the times and sizes of all of them in a table.

A pointer to data is a `Buffer`, and an `Option` where the function looks for `NULL`.
-/

namespace ArduinoProjects.Sha204

/-! ## Definitions -/

/-- bad argument (out of range, null pointer, etc.) -/
def SHA204_BAD_PARAM : UInt8 := 0xE2

def SHA204_CHECKMAC : UInt8 := 0x28
def SHA204_DERIVE_KEY : UInt8 := 0x1C
def SHA204_DEVREV : UInt8 := 0x30
def SHA204_GENDIG : UInt8 := 0x15
def SHA204_HMAC : UInt8 := 0x11
def SHA204_LOCK : UInt8 := 0x17
def SHA204_MAC : UInt8 := 0x08
def SHA204_NONCE : UInt8 := 0x16
def SHA204_PAUSE : UInt8 := 0x01
def SHA204_RANDOM : UInt8 := 0x1B
def SHA204_READ : UInt8 := 0x02
def SHA204_UPDATE_EXTRA : UInt8 := 0x20
def SHA204_WRITE : UInt8 := 0x12

/-- minimum number of bytes in command -/
def SHA204_CMD_SIZE_MIN : UInt8 := 7
/-- maximum size of response packet -/
def SHA204_RSP_SIZE_MAX : UInt8 := 35
/-- size of response packet containing four bytes of data -/
def SHA204_RSP_SIZE_VAL : UInt8 := 7

def SHA204_KEY_ID_MAX : UInt8 := 15
def SHA204_OTP_BLOCK_MAX : UInt8 := 1

def SHA204_ZONE_CONFIG : UInt8 := 0x00
def SHA204_ZONE_OTP : UInt8 := 0x01
def SHA204_ZONE_DATA : UInt8 := 0x02
def SHA204_ZONE_MASK : UInt8 := 0x03
/-- Zone bit 7 set: Access 32 bytes, otherwise 4 bytes. -/
def SHA204_ZONE_COUNT_FLAG : UInt8 := 0x80
def SHA204_ADDRESS_MASK_CONFIG : UInt16 := 0x001F
def SHA204_ADDRESS_MASK_OTP : UInt16 := 0x000F
def SHA204_ADDRESS_MASK : UInt16 := 0x007F

def CHECKMAC_COUNT : UInt8 := 84
def CHECKMAC_MODE_MASK : UInt8 := 0x27
def DERIVE_KEY_COUNT_LARGE : UInt8 := 39
def DERIVE_KEY_RANDOM_FLAG : UInt8 := 4
def GENDIG_COUNT_DATA : UInt8 := 11
def GENDIG_ZONE_OTP : UInt8 := 1
def GENDIG_ZONE_DATA : UInt8 := 2
def HMAC_MODE_MASK : UInt8 := 0x74
def LOCK_ZONE_NO_CRC : UInt8 := 0x80
def LOCK_ZONE_MASK : UInt8 := 0x81
def MAC_COUNT_LONG : UInt8 := 39
def MAC_MODE_BLOCK2_TEMPKEY : UInt8 := 0x01
def MAC_MODE_MASK : UInt8 := 0x77
def NONCE_COUNT_SHORT : UInt8 := 27
def NONCE_COUNT_LONG : UInt8 := 39
def NONCE_MODE_INVALID : UInt8 := 0x02
def NONCE_MODE_PASSTHROUGH : UInt8 := 0x03
def RANDOM_SEED_UPDATE : UInt8 := 0x00
def RANDOM_NO_SEED_UPDATE : UInt8 := 0x01
def READ_ZONE_MASK : UInt8 := 0x83
def READ_ZONE_MODE_32_BYTES : UInt8 := 0x80
def UPDATE_CONFIG_BYTE_86 : UInt8 := 0x01
def WRITE_ZONE_MASK : UInt8 := 0xC3

/-- Minimum and maximum execution time in milliseconds. -/
structure Timing where
  delay : UInt8
  exec_max : UInt8
  deriving DecidableEq, Repr

def CHECKMAC_TIMING : Timing := ⟨11, 38⟩
def DERIVE_KEY_TIMING : Timing := ⟨13, 63⟩
def DEVREV_TIMING : Timing := ⟨0, 2⟩
def GENDIG_TIMING : Timing := ⟨10, 43⟩
def HMAC_TIMING : Timing := ⟨26, 70⟩
def LOCK_TIMING : Timing := ⟨4, 24⟩
def MAC_TIMING : Timing := ⟨11, 35⟩
def NONCE_TIMING : Timing := ⟨21, 61⟩
def PAUSE_TIMING : Timing := ⟨0, 2⟩
def RANDOM_TIMING : Timing := ⟨10, 51⟩
def READ_TIMING : Timing := ⟨0, 4⟩
def UPDATE_TIMING : Timing := ⟨3, 6⟩
def WRITE_TIMING : Timing := ⟨3, 42⟩

/-! ## The marshaling functions -/

/-- What a function puts into `tx_buffer`, and how it calls `send_and_receive`. -/
structure Command where
  count : UInt8
  op_code : UInt8
  param1 : UInt8
  param2 : UInt16
  data : List UInt8
  rx_size : UInt8
  timing : Timing
  deriving DecidableEq, Repr

/-- `memcpy` of a number of bytes. -/
def memcpy (data : Buffer) (n : Nat) : List UInt8 := (List.range n).map data

namespace Command

def random (mode : UInt8) : Option Command :=
  if mode > RANDOM_NO_SEED_UPDATE then none
  else some
    { count := SHA204_CMD_SIZE_MIN, op_code := SHA204_RANDOM, param1 := mode &&& RANDOM_SEED_UPDATE,
      param2 := 0, data := [], rx_size := SHA204_RSP_SIZE_MAX, timing := RANDOM_TIMING }

def devRev : Option Command :=
  some
    { count := SHA204_CMD_SIZE_MIN, op_code := SHA204_DEVREV, param1 := 0, param2 := 0, data := [],
      rx_size := SHA204_RSP_SIZE_VAL, timing := DEVREV_TIMING }

/-- The checks of the address in `read` and `write`, which is a number of words by then. -/
def badAddress (zone : UInt8) (address : UInt16) : Bool :=
  if zone &&& SHA204_ZONE_MASK = SHA204_ZONE_CONFIG then address > SHA204_ADDRESS_MASK_CONFIG
  else if zone &&& SHA204_ZONE_MASK = SHA204_ZONE_OTP then address > SHA204_ADDRESS_MASK_OTP
  else if zone &&& SHA204_ZONE_MASK = SHA204_ZONE_DATA then address > SHA204_ADDRESS_MASK
  else false

def read (zone : UInt8) (address : UInt16) : Option Command :=
  if zone &&& ~~~READ_ZONE_MASK ≠ 0 ∨
      (zone &&& READ_ZONE_MODE_32_BYTES ≠ 0 ∧ zone = SHA204_ZONE_OTP) then none
  else if badAddress zone (address >>> 2) then none
  else some
    { count := SHA204_CMD_SIZE_MIN, op_code := SHA204_READ, param1 := zone,
      param2 := (address >>> 2) &&& SHA204_ADDRESS_MASK, data := [],
      rx_size := if zone &&& SHA204_ZONE_COUNT_FLAG ≠ 0 then SHA204_RSP_SIZE_MAX
        else SHA204_RSP_SIZE_VAL,
      timing := READ_TIMING }

def checkMac (mode key_id : UInt8) (client_challenge client_response other_data : Option Buffer) :
    Option Command :=
  match client_response, other_data with
  | some client_response, some other_data =>
    if mode ||| CHECKMAC_MODE_MASK ≠ CHECKMAC_MODE_MASK ∨ key_id > SHA204_KEY_ID_MAX then none
    else some
      { count := CHECKMAC_COUNT, op_code := SHA204_CHECKMAC, param1 := mode &&& CHECKMAC_MODE_MASK,
        param2 := key_id.toUInt16,
        data := memcpy (client_challenge.getD fun _ => 0) 32 ++ memcpy client_response 32 ++
          memcpy other_data 13,
        rx_size := SHA204_RSP_SIZE_MIN, timing := CHECKMAC_TIMING }
  | _, _ => none

def deriveKey (random target_key : UInt8) (mac : Option Buffer) : Option Command :=
  if random &&& ~~~DERIVE_KEY_RANDOM_FLAG ≠ 0 ∨ target_key > SHA204_KEY_ID_MAX then none
  else some
    { count := if mac.isSome then DERIVE_KEY_COUNT_LARGE else SHA204_CMD_SIZE_MIN,
      op_code := SHA204_DERIVE_KEY, param1 := random, param2 := target_key.toUInt16,
      data := mac.elim [] fun mac => memcpy mac 32,
      rx_size := SHA204_RSP_SIZE_MIN, timing := DERIVE_KEY_TIMING }

def genDig (zone key_id : UInt8) (other_data : Option Buffer) : Option Command :=
  if zone > GENDIG_ZONE_DATA then none
  else if (zone = GENDIG_ZONE_OTP ∧ key_id > SHA204_OTP_BLOCK_MAX) ∨
      (zone = GENDIG_ZONE_DATA ∧ key_id > SHA204_KEY_ID_MAX) then none
  else some
    { count := if other_data.isSome then GENDIG_COUNT_DATA else SHA204_CMD_SIZE_MIN,
      op_code := SHA204_GENDIG, param1 := zone, param2 := key_id.toUInt16,
      data := other_data.elim [] fun other_data => memcpy other_data 4,
      rx_size := SHA204_RSP_SIZE_MIN, timing := GENDIG_TIMING }

def hmac (mode : UInt8) (key_id : UInt16) : Option Command :=
  if mode &&& ~~~HMAC_MODE_MASK ≠ 0 then none
  else some
    { count := SHA204_CMD_SIZE_MIN, op_code := SHA204_HMAC, param1 := mode, param2 := key_id,
      data := [], rx_size := SHA204_RSP_SIZE_MAX, timing := HMAC_TIMING }

def lock (zone : UInt8) (summary : UInt16) : Option Command :=
  if zone &&& ~~~LOCK_ZONE_MASK ≠ 0 ∨ (zone &&& LOCK_ZONE_NO_CRC ≠ 0 ∧ summary ≠ 0) then none
  else some
    { count := SHA204_CMD_SIZE_MIN, op_code := SHA204_LOCK, param1 := zone &&& LOCK_ZONE_MASK,
      param2 := summary, data := [], rx_size := SHA204_RSP_SIZE_MIN, timing := LOCK_TIMING }

def mac (mode : UInt8) (key_id : UInt16) (challenge : Option Buffer) : Option Command :=
  if mode &&& ~~~MAC_MODE_MASK ≠ 0 then none
  else if mode &&& MAC_MODE_BLOCK2_TEMPKEY = 0 then
    challenge.map fun challenge =>
      { count := MAC_COUNT_LONG, op_code := SHA204_MAC, param1 := mode, param2 := key_id,
        data := memcpy challenge 32, rx_size := SHA204_RSP_SIZE_MAX, timing := MAC_TIMING }
  else some
    { count := SHA204_CMD_SIZE_MIN, op_code := SHA204_MAC, param1 := mode, param2 := key_id,
      data := [], rx_size := SHA204_RSP_SIZE_MAX, timing := MAC_TIMING }

def nonce (mode : UInt8) (numin : Option Buffer) : Option Command :=
  numin.bind fun numin =>
    if mode > NONCE_MODE_PASSTHROUGH ∨ mode = NONCE_MODE_INVALID then none
    else if mode ≠ NONCE_MODE_PASSTHROUGH then some
      { count := NONCE_COUNT_SHORT, op_code := SHA204_NONCE, param1 := mode, param2 := 0,
        data := memcpy numin 20, rx_size := SHA204_RSP_SIZE_MAX, timing := NONCE_TIMING }
    else some
      { count := NONCE_COUNT_LONG, op_code := SHA204_NONCE, param1 := mode, param2 := 0,
        data := memcpy numin 32, rx_size := SHA204_RSP_SIZE_MIN, timing := NONCE_TIMING }

def pause (selector : UInt8) : Option Command :=
  some
    { count := SHA204_CMD_SIZE_MIN, op_code := SHA204_PAUSE, param1 := selector, param2 := 0,
      data := [], rx_size := SHA204_RSP_SIZE_MIN, timing := PAUSE_TIMING }

def updateExtra (mode new_value : UInt8) : Option Command :=
  if mode > UPDATE_CONFIG_BYTE_86 then none
  else some
    { count := SHA204_CMD_SIZE_MIN, op_code := SHA204_UPDATE_EXTRA, param1 := mode,
      param2 := new_value.toUInt16, data := [], rx_size := SHA204_RSP_SIZE_MIN,
      timing := UPDATE_TIMING }

/-- The count is the distance from `tx_buffer` to the end of the data, and the check. -/
def write (zone : UInt8) (address : UInt16) (new_value mac : Option Buffer) : Option Command :=
  new_value.bind fun new_value =>
    if zone &&& ~~~WRITE_ZONE_MASK ≠ 0 then none
    else if badAddress zone (address >>> 2) then none
    else
      let count := if zone &&& SHA204_ZONE_COUNT_FLAG ≠ 0 then 32 else 4
      let data := memcpy new_value count ++ mac.elim [] fun mac => memcpy mac 32
      some
        { count := .ofNat (5 + data.length) + SHA204_CRC_SIZE, op_code := SHA204_WRITE,
          param1 := zone, param2 := (address >>> 2) &&& SHA204_ADDRESS_MASK, data,
          rx_size := SHA204_RSP_SIZE_MIN, timing := WRITE_TIMING }

end Command

/-- A call of a marshaling function. -/
inductive Request where
  | random (mode : UInt8)
  | devRev
  | read (zone : UInt8) (address : UInt16)
  | checkMac (mode key_id : UInt8) (client_challenge client_response other_data : Option Buffer)
  | deriveKey (random target_key : UInt8) (mac : Option Buffer)
  | genDig (zone key_id : UInt8) (other_data : Option Buffer)
  | hmac (mode : UInt8) (key_id : UInt16)
  | lock (zone : UInt8) (summary : UInt16)
  | mac (mode : UInt8) (key_id : UInt16) (challenge : Option Buffer)
  | nonce (mode : UInt8) (numin : Option Buffer)
  | pause (selector : UInt8)
  | updateExtra (mode new_value : UInt8)
  | write (zone : UInt8) (address : UInt16) (new_value mac : Option Buffer)

def Request.command : Request → Option Command
  | random mode => Command.random mode
  | devRev => Command.devRev
  | read zone address => Command.read zone address
  | checkMac mode key_id client_challenge client_response other_data =>
    Command.checkMac mode key_id client_challenge client_response other_data
  | deriveKey flag target_key p_mac => Command.deriveKey flag target_key p_mac
  | genDig zone key_id other_data => Command.genDig zone key_id other_data
  | hmac mode key_id => Command.hmac mode key_id
  | lock zone summary => Command.lock zone summary
  | mac mode key_id challenge => Command.mac mode key_id challenge
  | nonce mode numin => Command.nonce mode numin
  | pause selector => Command.pause selector
  | updateExtra mode new_value => Command.updateExtra mode new_value
  | write zone address new_value p_mac => Command.write zone address new_value p_mac

namespace Host

/-- Bytes at `tx_buffer + i`. -/
def store (i : Nat) (data : List UInt8) (tx_buffer : Buffer) : Buffer := fun j =>
  if i ≤ j ∧ j < i + data.length then data.getD (j - i) 0 else tx_buffer j

/-- The bytes in front of the data. -/
def header (count op_code param1 : UInt8) (param2 : UInt16) : List UInt8 :=
  [count, op_code, param1, (param2 &&& 0xFF).toUInt8, (param2 >>> 8).toUInt8]

/-- The end of a marshaling function. -/
def marshal (wire : Wire) (c : Command) : StateT Host Option UInt8 := do
  modify fun s =>
    { s with
      tx_buffer :=
        store 5 c.data (store 0 (header c.count c.op_code c.param1 c.param2) s.tx_buffer) }
  sendAndReceive wire c.rx_size c.timing.delay (c.timing.exec_max - c.timing.delay)

/-- A call of a marshaling function. -/
def call (wire : Wire) (r : Request) : StateT Host Option UInt8 :=
  match r.command with
  | none => return SHA204_BAD_PARAM
  | some c => marshal wire c

/-- Supply delays and response size: `poll_delay`, `poll_timeout` and `response_size`. -/
def supply (op_code param1 rx_size : UInt8) : UInt8 × UInt8 × UInt8 :=
  let timed (timing : Timing) (response_size : UInt8) :=
    (timing.delay, timing.exec_max - timing.delay, response_size)
  if op_code = SHA204_CHECKMAC then timed CHECKMAC_TIMING SHA204_RSP_SIZE_MIN
  else if op_code = SHA204_DERIVE_KEY then timed DERIVE_KEY_TIMING SHA204_RSP_SIZE_MIN
  else if op_code = SHA204_DEVREV then timed DEVREV_TIMING SHA204_RSP_SIZE_VAL
  else if op_code = SHA204_GENDIG then timed GENDIG_TIMING SHA204_RSP_SIZE_MIN
  else if op_code = SHA204_HMAC then timed HMAC_TIMING SHA204_RSP_SIZE_MAX
  else if op_code = SHA204_LOCK then timed LOCK_TIMING SHA204_RSP_SIZE_MIN
  else if op_code = SHA204_MAC then timed MAC_TIMING SHA204_RSP_SIZE_MAX
  else if op_code = SHA204_NONCE then
    timed NONCE_TIMING
      (if param1 = NONCE_MODE_PASSTHROUGH then SHA204_RSP_SIZE_MIN else SHA204_RSP_SIZE_MAX)
  else if op_code = SHA204_PAUSE then timed PAUSE_TIMING SHA204_RSP_SIZE_MIN
  else if op_code = SHA204_RANDOM then timed RANDOM_TIMING SHA204_RSP_SIZE_MAX
  else if op_code = SHA204_READ then
    timed READ_TIMING
      (if param1 &&& SHA204_ZONE_COUNT_FLAG ≠ 0 then SHA204_RSP_SIZE_MAX else SHA204_RSP_SIZE_VAL)
  else if op_code = SHA204_UPDATE_EXTRA then timed UPDATE_TIMING SHA204_RSP_SIZE_MIN
  else if op_code = SHA204_WRITE then timed WRITE_TIMING SHA204_RSP_SIZE_MIN
  else (0, SHA204_COMMAND_EXEC_MAX, rx_size)

/-- `check_parameters` is empty without `SHA204_CHECK_PARAMETERS`, so that `tx_size` plays
no part. -/
def execute (wire : Wire) (op_code param1 : UInt8) (param2 : UInt16)
    (data1 data2 data3 : List UInt8) (rx_size : UInt8) : StateT Host Option UInt8 := do
  let (poll_delay, poll_timeout, response_size) := supply op_code param1 rx_size
  -- Assemble command.
  let datalen := data1.length + data2.length + data3.length
  let len := UInt8.ofNat datalen + SHA204_CMD_SIZE_MIN
  modify fun s =>
    let tx_buffer := store 0 (header len op_code param1 param2) s.tx_buffer
    let tx_buffer := store 5 data1 tx_buffer
    let tx_buffer := store (5 + data1.length) data2 tx_buffer
    let tx_buffer := store (5 + data1.length + data2.length) data3 tx_buffer
    let crc := calculateCrc (len - SHA204_CRC_SIZE) tx_buffer
    { s with tx_buffer := store (5 + datalen) [crc.1, crc.2] tx_buffer }
  sendAndReceive wire response_size poll_delay poll_timeout

end Host

/-! ## Packets -/

/-- The longest time that `send_and_receive` can count in microseconds. -/
def Timing.Timely (timing : Timing) : Prop := (timing.exec_max - timing.delay).toNat ≤ 65

instance (timing : Timing) : Decidable timing.Timely :=
  inferInstanceAs (Decidable ((timing.exec_max - timing.delay).toNat ≤ 65))

namespace Command

/-- The command without its check. -/
def bytes (c : Command) : List UInt8 := Host.header c.count c.op_code c.param1 c.param2 ++ c.data

def buffer (c : Command) : Buffer := fun i => c.bytes.getD i 0

/-- The command with its check. -/
def packet (c : Command) : List UInt8 := withCrc c.bytes

/-- The count is the length of the packet, `execute` has the same times and sizes, and the
time fits into the countdown. -/
structure Sized (c : Command) : Prop where
  count : c.count.toNat = c.data.length + 7
  supply : ∀ rx_size, Host.supply c.op_code c.param1 rx_size =
    (c.timing.delay, c.timing.exec_max - c.timing.delay, c.rx_size)
  timely : c.timing.Timely

theorem length_bytes (c : Command) : c.bytes.length = c.data.length + 5 := by
  rw [bytes, List.length_append, Nat.add_comm]
  rfl

end Command

theorem length_memcpy (data : Buffer) (n : Nat) : (memcpy data n).length = n := by
  rw [memcpy, List.length_map, List.length_range]

theorem memcpy_getD (data : Buffer) {n i : Nat} (hi : i < n) :
    (memcpy data n).getD i 0 = data i := by
  rw [List.getD_eq_getElem _ _ (by rw [length_memcpy]; exact hi)]
  simp only [memcpy, List.getElem_map, List.getElem_range]

/-- The response of `read`, and of `nonce`, depends on the first parameter. -/
theorem supply_read (zone rx_size : UInt8) : Host.supply SHA204_READ zone rx_size =
    (READ_TIMING.delay, READ_TIMING.exec_max - READ_TIMING.delay,
      if zone &&& SHA204_ZONE_COUNT_FLAG ≠ 0 then SHA204_RSP_SIZE_MAX else SHA204_RSP_SIZE_VAL) :=
  rfl

theorem supply_nonce (mode rx_size : UInt8) : Host.supply SHA204_NONCE mode rx_size =
    (NONCE_TIMING.delay, NONCE_TIMING.exec_max - NONCE_TIMING.delay,
      if mode = NONCE_MODE_PASSTHROUGH then SHA204_RSP_SIZE_MIN else SHA204_RSP_SIZE_MAX) :=
  rfl

/-- Every function counts its data right, and has its times and sizes in the table. -/
theorem Request.sized {r : Request} {c : Command} (h : r.command = some c) : c.Sized := by
  cases r with
  | random mode =>
    obtain ⟨_, h⟩ := Option.ite_none_left_eq_some.mp h
    cases h
    exact ⟨rfl, fun _ => rfl, show RANDOM_TIMING.Timely by decide⟩
  | devRev =>
    cases h
    exact ⟨rfl, fun _ => rfl, show DEVREV_TIMING.Timely by decide⟩
  | read zone address =>
    obtain ⟨_, h⟩ := Option.ite_none_left_eq_some.mp h
    obtain ⟨_, h⟩ := Option.ite_none_left_eq_some.mp h
    cases h
    exact ⟨rfl, supply_read zone, show READ_TIMING.Timely by decide⟩
  | checkMac mode key_id client_challenge client_response other_data =>
    rcases client_response with _ | client_response
    · cases h
    rcases other_data with _ | other_data
    · cases h
    obtain ⟨_, h⟩ := Option.ite_none_left_eq_some.mp h
    cases h
    refine ⟨?_, fun _ => rfl, show CHECKMAC_TIMING.Timely by decide⟩
    simp only [List.length_append, length_memcpy]
    rfl
  | deriveKey flag target_key p_mac =>
    obtain ⟨_, h⟩ := Option.ite_none_left_eq_some.mp h
    cases h
    cases p_mac <;> exact ⟨rfl, fun _ => rfl, show DERIVE_KEY_TIMING.Timely by decide⟩
  | genDig zone key_id other_data =>
    obtain ⟨_, h⟩ := Option.ite_none_left_eq_some.mp h
    obtain ⟨_, h⟩ := Option.ite_none_left_eq_some.mp h
    cases h
    cases other_data <;> exact ⟨rfl, fun _ => rfl, show GENDIG_TIMING.Timely by decide⟩
  | hmac mode key_id =>
    obtain ⟨_, h⟩ := Option.ite_none_left_eq_some.mp h
    cases h
    exact ⟨rfl, fun _ => rfl, show HMAC_TIMING.Timely by decide⟩
  | lock zone summary =>
    obtain ⟨_, h⟩ := Option.ite_none_left_eq_some.mp h
    cases h
    exact ⟨rfl, fun _ => rfl, show LOCK_TIMING.Timely by decide⟩
  | mac mode key_id challenge =>
    obtain ⟨_, h⟩ := Option.ite_none_left_eq_some.mp h
    split_ifs at h
    · obtain ⟨data, rfl, rfl⟩ := Option.map_eq_some_iff.mp h
      exact ⟨rfl, fun _ => rfl, show MAC_TIMING.Timely by decide⟩
    · cases h
      exact ⟨rfl, fun _ => rfl, show MAC_TIMING.Timely by decide⟩
  | nonce mode numin =>
    obtain ⟨data, rfl, h⟩ := Option.bind_eq_some_iff.mp h
    obtain ⟨_, h⟩ := Option.ite_none_left_eq_some.mp h
    split_ifs at h with hshort
    · cases h
      refine ⟨rfl, fun rx_size => (supply_nonce mode rx_size).trans ?_,
        show NONCE_TIMING.Timely by decide⟩
      rw [if_neg hshort]
    · cases h
      refine ⟨rfl, fun rx_size => (supply_nonce mode rx_size).trans ?_,
        show NONCE_TIMING.Timely by decide⟩
      rw [if_pos (not_not.mp hshort)]
  | pause selector =>
    cases h
    exact ⟨rfl, fun _ => rfl, show PAUSE_TIMING.Timely by decide⟩
  | updateExtra mode new_value =>
    obtain ⟨_, h⟩ := Option.ite_none_left_eq_some.mp h
    cases h
    exact ⟨rfl, fun _ => rfl, show UPDATE_TIMING.Timely by decide⟩
  | write zone address new_value p_mac =>
    obtain ⟨data, rfl, h⟩ := Option.bind_eq_some_iff.mp h
    obtain ⟨_, h⟩ := Option.ite_none_left_eq_some.mp h
    obtain ⟨_, h⟩ := Option.ite_none_left_eq_some.mp h
    cases h
    refine ⟨?_, fun _ => rfl, show WRITE_TIMING.Timely by decide⟩
    by_cases hlong : zone &&& SHA204_ZONE_COUNT_FLAG ≠ 0
    · simp only [if_pos hlong]
      cases p_mac <;> rfl
    · simp only [if_neg hlong]
      cases p_mac <;> rfl

namespace Host

theorem store_append (i : Nat) (a b : List UInt8) (tx_buffer : Buffer) :
    store (i + a.length) b (store i a tx_buffer) = store i (a ++ b) tx_buffer := by
  funext j
  rw [store, store, store, List.length_append]
  by_cases hlow : j < i + a.length
  · rw [if_neg (by omega)]
    by_cases hin : i ≤ j
    · rw [if_pos ⟨hin, hlow⟩, if_pos ⟨hin, by omega⟩, List.getD_append _ _ _ _ (by omega)]
    · rw [if_neg fun h => hin h.1, if_neg fun h => hin h.1]
  · by_cases hhigh : j < i + a.length + b.length
    · rw [if_pos ⟨by omega, hhigh⟩, if_pos ⟨by omega, by omega⟩,
        List.getD_append_right _ _ _ _ (by omega), Nat.sub_sub]
    · rw [if_neg fun h => hhigh h.2, if_neg fun h => hlow h.2, if_neg fun h => by omega]

theorem store_of_lt {i j : Nat} (data : List UInt8) (tx_buffer : Buffer) (h : j < i) :
    store i data tx_buffer j = tx_buffer j := if_neg fun hin => by omega

theorem store_zero {i : Nat} (data : List UInt8) (tx_buffer : Buffer) (h : i < data.length) :
    store 0 data tx_buffer i = data.getD i 0 :=
  if_pos ⟨Nat.zero_le i, by omega⟩

theorem map_range_getD (data : List UInt8) :
    ((List.range data.length).map fun i => data.getD i 0) = data := by
  refine List.ext_getElem (by rw [List.length_map, List.length_range]) fun i h₁ h₂ => ?_
  rw [List.getElem_map, List.getElem_range, List.getD_eq_getElem _ _ h₂]

/-- `tx_buffer` when `send_and_receive` is called. -/
def filled (c : Command) (s : Host) : Host :=
  { s with
    tx_buffer := store 5 c.data (store 0 (header c.count c.op_code c.param1 c.param2) s.tx_buffer) }

variable {c : Command}

theorem filled_eq (c : Command) (s : Host) : (filled c s).tx_buffer = store 0 c.bytes s.tx_buffer :=
  store_append 0 (header c.count c.op_code c.param1 c.param2) c.data s.tx_buffer

theorem filled_apply (c : Command) (s : Host) {i : Nat} (hi : i < c.data.length + 5) :
    (filled c s).tx_buffer i = c.buffer i := by
  rw [filled_eq, store_zero _ _ (by rw [c.length_bytes]; exact hi)]
  rfl

/-- The count without the check. -/
theorem toNat_count_sub (hc : c.Sized) :
    (c.count - SHA204_CRC_SIZE).toNat = c.data.length + 5 := by
  have hcount := hc.count
  have hle : SHA204_CRC_SIZE ≤ c.count := by
    rw [UInt8.le_iff_toNat_le, hcount]
    exact Nat.le_add_left 2 (c.data.length + 5)
  rw [UInt8.toNat_sub_of_le _ _ hle, hcount]
  rfl

theorem calculateCrc_congr {length : UInt8} {a b : Buffer} (h : ∀ i < length.toNat, a i = b i) :
    calculateCrc length a = calculateCrc length b := by
  rw [calculateCrc, calculateCrc, crcRegister_congr h]

/-- The check, computed over the command alone. -/
def crc (c : Command) : UInt8 × UInt8 := calculateCrc (.ofNat c.bytes.length) c.buffer

theorem calculateCrc_eq (hc : c.Sized) {tx_buffer : Buffer}
    (h : ∀ i < c.data.length + 5, tx_buffer i = c.buffer i) :
    calculateCrc (c.count - SHA204_CRC_SIZE) tx_buffer = crc c := by
  have hcount : c.count - SHA204_CRC_SIZE = .ofNat c.bytes.length := by
    rw [c.length_bytes, ← toNat_count_sub hc, UInt8.ofNat_toNat]
  rw [crc, ← hcount]
  exact calculateCrc_congr fun i hi => h i (toNat_count_sub hc ▸ hi)

theorem appendCrc_filled (hc : c.Sized) (s : Host) :
    (appendCrc c.count (filled c s)).tx_buffer =
      Function.update (Function.update (filled c s).tx_buffer (c.data.length + 5) (crc c).1)
        (c.data.length + 6) (crc c).2 := by
  have hcrc : calculateCrc (c.count - SHA204_CRC_SIZE) (filled c s).tx_buffer = crc c :=
    calculateCrc_eq hc fun i hi => filled_apply c s hi
  show Function.update (Function.update _ _ _) _ _ = _
  rw [toNat_count_sub hc, hcrc]

/-- What goes out is the command, whatever was in the buffer before. -/
theorem command_filled (hc : c.Sized) (s : Host) : (filled c s).command = c.packet := by
  have hcount : (filled c s).tx_buffer SHA204_BUFFER_POS_COUNT = c.count :=
    filled_apply c s (Nat.succ_pos _)
  have heq : ∀ i ∈ List.range (c.data.length + 5),
      (appendCrc c.count (filled c s)).tx_buffer i = c.bytes.getD i 0 := by
    intro i hi
    have hlt := List.mem_range.mp hi
    rw [appendCrc_filled hc, Function.update_of_ne (by omega), Function.update_of_ne (by omega),
      filled_apply c s hlt]
    rfl
  have hfirst : (appendCrc c.count (filled c s)).tx_buffer (c.data.length + 5) = (crc c).1 := by
    rw [appendCrc_filled hc, Function.update_of_ne (by omega), Function.update_self]
  have hsecond : (appendCrc c.count (filled c s)).tx_buffer (c.data.length + 6) = (crc c).2 := by
    rw [appendCrc_filled hc, Function.update_self]
  rw [Host.command, hcount, take, hc.count, List.range_succ, List.range_succ, List.map_append,
    List.map_append, List.map_congr_left heq, ← c.length_bytes, map_range_getD, c.length_bytes,
    Command.packet, withCrc, List.append_assoc]
  simp only [List.map_cons, List.map_nil, List.cons_append, List.nil_append, hfirst, hsecond]
  rfl

end Host

namespace Command

variable {c : Command}

theorem length_packet (hc : c.Sized) : c.packet.length = c.count.toNat := by
  rw [packet, length_withCrc, c.length_bytes, hc.count]

/-- The chip finds the check right. -/
theorem checkCrc_packet (hc : c.Sized) :
    checkCrc (fun i => c.packet.getD i 0) = SHA204_SUCCESS := by
  refine checkCrc_withCrc (by rw [c.length_bytes]; exact Nat.succ_pos _) ?_
  rw [c.length_bytes]
  exact hc.count

end Command

namespace Host

theorem call_spec (wire : Wire) {r : Request} (h : r.command = some c) (s : Host) :
    Returns (call wire r) s fun ret_code s' =>
      (∃ rounds : List (List Transfer), 1 ≤ rounds.length ∧ rounds.length ≤ 2 ∧
        (∀ round ∈ rounds, ∀ t ∈ round, t.isFlag = true) ∧
        s'.log = s.log ++ rounds.flatMap fun round =>
          .sent [SHA204_SWI_FLAG_CMD] :: .sent c.packet :: round) ∧
        (ret_code = SHA204_SUCCESS → Accepted wire c.rx_size c.packet s') := by
  have hc := Request.sized h
  have hsent := sendAndReceive_spec wire c.rx_size c.timing.delay
    (c.timing.exec_max - c.timing.delay) (filled c s)
  rw [command_filled hc s] at hsent
  rw [call, h]
  refine Returns.bind_of_eq (t := filled c s) rfl (hsent.mono fun ret_code s' h => ?_)
  exact ⟨h.1.log, h.2⟩

/-- **Every command.**  A function that refuses its arguments sends nothing.  The others
send a command that the chip finds complete and correct, once or twice, and no other one. -/
theorem call_sound (wire : Wire) (r : Request) (s : Host) :
    Returns (call wire r) s fun ret_code s' =>
      (r.command = none → ret_code = SHA204_BAD_PARAM ∧ s' = s) ∧
        ∀ c, r.command = some c →
          c.packet.length = c.count.toNat ∧
          checkCrc (fun i => c.packet.getD i 0) = SHA204_SUCCESS ∧
          (∃ rounds : List (List Transfer), 1 ≤ rounds.length ∧ rounds.length ≤ 2 ∧
            (∀ round ∈ rounds, ∀ t ∈ round, t.isFlag = true) ∧
            s'.log = s.log ++ rounds.flatMap fun round =>
              .sent [SHA204_SWI_FLAG_CMD] :: .sent c.packet :: round) ∧
          (ret_code = SHA204_SUCCESS → Accepted wire c.rx_size c.packet s') := by
  cases h : r.command with
  | none =>
    rw [call, h]
    exact Returns.pure ⟨fun _ => ⟨rfl, rfl⟩, fun _ => nofun⟩
  | some c =>
    have hc := Request.sized h
    refine (call_spec wire h s).mono fun ret_code s' hs => ⟨nofun, ?_⟩
    rintro _ ⟨⟩
    exact ⟨Command.length_packet hc, Command.checkCrc_packet hc, hs⟩

/-- What `send_and_receive` does depends on the buffer with its check. -/
theorem sendAndReceive_congr (wire : Wire) (rx_size execution_delay execution_timeout : UInt8)
    {s t : Host} {count : UInt8} (hs : s.tx_buffer SHA204_BUFFER_POS_COUNT = count)
    (ht : t.tx_buffer SHA204_BUFFER_POS_COUNT = count) (h : appendCrc count s = appendCrc count t) :
    sendAndReceive wire rx_size execution_delay execution_timeout s =
      sendAndReceive wire rx_size execution_delay execution_timeout t := by
  rw [sendAndReceive, get_bind_apply, get_bind_apply, modify_bind_apply, modify_bind_apply, hs, ht,
    h]

/-- `tx_buffer` when `execute` has put the check behind the data. -/
def checked (c : Command) (s : Host) : Host :=
  { filled c s with
    tx_buffer := store (5 + c.data.length) [(crc c).1, (crc c).2] (filled c s).tx_buffer }

theorem checked_of_lt (c : Command) (s : Host) {i : Nat} (hi : i < c.data.length + 5) :
    (checked c s).tx_buffer i = (filled c s).tx_buffer i :=
  store_of_lt _ _ (by omega)

/-- The check is put there once more. -/
theorem appendCrc_checked (hc : c.Sized) (s : Host) :
    appendCrc c.count (checked c s) = appendCrc c.count (filled c s) := by
  have hcrc : calculateCrc (c.count - SHA204_CRC_SIZE) (checked c s).tx_buffer =
      calculateCrc (c.count - SHA204_CRC_SIZE) (filled c s).tx_buffer :=
    calculateCrc_congr fun i hi => checked_of_lt c s (toNat_count_sub hc ▸ hi)
  rw [appendCrc, appendCrc, hcrc, toNat_count_sub hc]
  congr 1
  funext i
  by_cases hsecond : i = c.data.length + 5 + 1
  · rw [hsecond, Function.update_self, Function.update_self]
  · rw [Function.update_of_ne hsecond, Function.update_of_ne hsecond]
    by_cases hfirst : i = c.data.length + 5
    · rw [hfirst, Function.update_self, Function.update_self]
    · rw [Function.update_of_ne hfirst, Function.update_of_ne hfirst]
      exact if_neg fun hin => by
        have hlength : [(crc c).1, (crc c).2].length = 2 := rfl
        omega

/-- **The two interfaces agree.**  `execute` with the operation code, the parameters and
the data of a command, in up to three pieces, does what the function of that command does. -/
theorem execute_eq (wire : Wire) {r : Request} (h : r.command = some c)
    {data1 data2 data3 : List UInt8} (hdata : data1 ++ data2 ++ data3 = c.data) (rx_size : UInt8) :
    execute wire c.op_code c.param1 c.param2 data1 data2 data3 rx_size = call wire r := by
  have hc := Request.sized h
  have hlength : data1.length + data2.length + data3.length = c.data.length := by
    rw [← hdata, List.length_append, List.length_append]
  have hlen : UInt8.ofNat c.data.length + SHA204_CMD_SIZE_MIN = c.count := by
    have hcount := hc.count
    have hlt := c.count.toNat_lt
    have hmin : SHA204_CMD_SIZE_MIN.toNat = 7 := rfl
    rw [← UInt8.toNat_inj, UInt8.toNat_add, UInt8.toNat_ofNat']
    omega
  funext s
  have hfilled : store (5 + data1.length + data2.length) data3 (store (5 + data1.length) data2
      (store 5 data1 (store 0 (header c.count c.op_code c.param1 c.param2) s.tx_buffer))) =
      (filled c s).tx_buffer := by
    rw [store_append, store_append, ← List.append_assoc, hdata]
    rfl
  have hcrc : calculateCrc (c.count - SHA204_CRC_SIZE) (filled c s).tx_buffer = crc c :=
    calculateCrc_eq hc fun i hi => filled_apply c s hi
  have hcount : (filled c s).tx_buffer SHA204_BUFFER_POS_COUNT = c.count :=
    filled_apply c s (Nat.succ_pos _)
  calc execute wire c.op_code c.param1 c.param2 data1 data2 data3 rx_size s
      = sendAndReceive wire c.rx_size c.timing.delay (c.timing.exec_max - c.timing.delay)
          (checked c s) := by
        rw [execute, hc.supply]
        dsimp only
        rw [hlength, hlen]
        refine congrArg (sendAndReceive wire c.rx_size c.timing.delay
          (c.timing.exec_max - c.timing.delay)) ?_
        dsimp only
        rw [hfilled, hcrc]
        rfl
    _ = sendAndReceive wire c.rx_size c.timing.delay (c.timing.exec_max - c.timing.delay)
          (filled c s) :=
        sendAndReceive_congr wire _ _ _ ((checked_of_lt c s (Nat.succ_pos _)).trans hcount) hcount
          (appendCrc_checked hc s)
    _ = call wire r s := by
        rw [call, h]
        rfl

/-- A number for the chip in two pieces, on a silent wire. -/
theorem execute_eq_nonce :
    execute (fun _ _ => .HIGH) SHA204_NONCE NONCE_MODE_PASSTHROUGH 0 (List.replicate 20 1)
      (List.replicate 12 1) [] 0 =
        call (fun _ _ => .HIGH) (.nonce NONCE_MODE_PASSTHROUGH (some fun _ => 1)) :=
  execute_eq (fun _ _ => .HIGH) (r := .nonce NONCE_MODE_PASSTHROUGH (some fun _ => 1)) rfl rfl 0

end Host

end ArduinoProjects.Sha204
