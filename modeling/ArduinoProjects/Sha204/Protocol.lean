import ArduinoProjects.Lib.Returns
import ArduinoProjects.Sha204.Swi

/-!
# Commands and responses

`send_and_receive` of `src/libraries/SHA204/SHA204.cpp` sends a command and polls for the
response, with `SHA204SWI.cpp` below it.  When the response does not come, has an
impossible length or a wrong check, it synchronises with the chip again and polls once
more or sends the command once more.

What the chip does is a function of everything that was on the wire before, so that a
result for every `wire` is one for every behaviour of the chip and for every disturbance.

`sendAndReceive_sound` says what was on the wire, and what a success means.
-/

namespace ArduinoProjects.Sha204

/-! ## The code -/

/-- response status byte indicates parsing error -/
def SHA204_PARSE_ERROR : UInt8 := 0xD2
/-- response status byte indicates command execution error -/
def SHA204_CMD_FAIL : UInt8 := 0xD3
/-- response status byte indicates CRC error -/
def SHA204_STATUS_CRC : UInt8 := 0xD4
/-- Function could not execute due to incorrect condition / state. -/
def SHA204_FUNC_FAIL : UInt8 := 0xE0
/-- Count value is out of range or greater than buffer size. -/
def SHA204_INVALID_SIZE : UInt8 := 0xE4
/-- Timed out while waiting for response. Number of bytes received is > 0. -/
def SHA204_RX_FAIL : UInt8 := 0xE6
/-- Not an error while the Command layer is polling for a command response. -/
def SHA204_RX_NO_RESPONSE : UInt8 := 0xE7
/-- re-synchronization succeeded, but only after generating a Wake-up -/
def SHA204_RESYNC_WITH_WAKEUP : UInt8 := 0xE8
/-- Communication with device failed. -/
def SHA204_COMM_FAIL : UInt8 := 0xF0

/-- flag preceding a command -/
def SHA204_SWI_FLAG_CMD : UInt8 := 0x77
/-- flag requesting a response -/
def SHA204_SWI_FLAG_TX : UInt8 := 0x88
/-- flag requesting to go into Sleep mode -/
def SHA204_SWI_FLAG_SLEEP : UInt8 := 0xCC

/-- minimum number of bytes in response -/
def SHA204_RSP_SIZE_MIN : UInt8 := 4
/-- buffer index of status byte in status response -/
def SHA204_BUFFER_POS_STATUS : Nat := 1
def SHA204_STATUS_BYTE_WAKEUP : UInt8 := 0x11
def SHA204_STATUS_BYTE_PARSE : UInt8 := 0x03
def SHA204_STATUS_BYTE_EXEC : UInt8 := 0x0F
def SHA204_STATUS_BYTE_COMM : UInt8 := 0xFF

/-- maximum command delay -/
def SHA204_COMMAND_EXEC_MAX : UInt8 := 70
/-- delay before sending a transmit flag in the synchronization routine -/
def SHA204_SYNC_TIMEOUT : UInt8 := 85
def SHA204_WAKEUP_DELAY : UInt8 := 3
/-- `SWI_RECEIVE_TIME_OUT + SWI_US_PER_BYTE` -/
def SHA204_RESPONSE_TIMEOUT : UInt16 := 163 + 313
def SHA204_RETRY_COUNT : Nat := 1

/-- What happens on the wire. -/
inductive Transfer where
  | sent (bytes : List UInt8)
  /-- The result of `receive_bytes`. -/
  | received (status : UInt8) (bytes : List UInt8)
  /-- `delay` of some milliseconds. -/
  | waited (ms : UInt8)
  /-- The long pulse that wakes the chip up. -/
  | woken
  deriving DecidableEq

/-- The readings of the next call of `receive_bytes`, after what has happened. -/
abbrev Wire := List Transfer → Levels

structure Host where
  tx_buffer : Buffer
  rx_buffer : Buffer
  log : List Transfer

namespace Host

/-- The first bytes of a buffer. -/
def take (count : UInt8) (buffer : Buffer) : List UInt8 := (List.range count.toNat).map buffer

def append (t : Transfer) (s : Host) : Host := { s with log := s.log ++ [t] }

def delay (ms : UInt8) : StateT Host Option Unit := modify (append (.waited ms))

def sendBytes (bytes : List UInt8) : StateT Host Option UInt8 := do
  modify (append (.sent bytes))
  return SWI_FUNCTION_RETCODE_SUCCESS

def sendByte (value : UInt8) : StateT Host Option UInt8 := sendBytes [value]

def receiveBytes (wire : Wire) (size : UInt8) : StateT Host Option UInt8 := fun s =>
  let (status, rx_buffer) := Sha204.receiveBytes (wire s.log) size s.rx_buffer
  some (status, { s with rx_buffer, log := s.log ++ [.received status (take size rx_buffer)] })

/-- `for (i = 0; i < size; i++) response[i] = 0;` -/
def clear (size : UInt8) (s : Host) : Host :=
  { s with rx_buffer := fun i => if i < size.toNat then 0 else s.rx_buffer i }

def receiveResponse (wire : Wire) (size : UInt8) : StateT Host Option UInt8 := do
  modify (clear size)
  let _ ← sendByte SHA204_SWI_FLAG_TX
  let ret_code ← receiveBytes wire size
  if ret_code = SWI_FUNCTION_RETCODE_SUCCESS ∨ ret_code = SWI_FUNCTION_RETCODE_RX_FAIL then
    let count_byte := (← get).rx_buffer SHA204_BUFFER_POS_COUNT
    if count_byte < SHA204_RSP_SIZE_MIN ∨ count_byte > size then return SHA204_INVALID_SIZE
    else return SHA204_SUCCESS
  -- the device may be busy executing a command
  else if ret_code = SWI_FUNCTION_RETCODE_TIMEOUT then return SHA204_RX_NO_RESPONSE
  else return SHA204_RX_FAIL

def sendCommand (count : UInt8) (command : Buffer) : StateT Host Option UInt8 := do
  let ret_code ← sendByte SHA204_SWI_FLAG_CMD
  if ret_code ≠ SWI_FUNCTION_RETCODE_SUCCESS then return SHA204_COMM_FAIL
  else sendBytes (take count command)

def chipWakeup : StateT Host Option UInt8 := do
  modify (append .woken)
  delay SHA204_WAKEUP_DELAY
  return SHA204_SUCCESS

def sleep : StateT Host Option UInt8 := sendByte SHA204_SWI_FLAG_SLEEP

/-- Verify status response. -/
def wakeupStatus (response : Buffer) : UInt8 :=
  if response SHA204_BUFFER_POS_COUNT ≠ SHA204_RSP_SIZE_MIN then SHA204_INVALID_SIZE
  else if response SHA204_BUFFER_POS_STATUS ≠ SHA204_STATUS_BYTE_WAKEUP then SHA204_COMM_FAIL
  else if response 2 ≠ 0x33 ∨ response 3 ≠ 0x43 then SHA204_BAD_CRC
  else SHA204_SUCCESS

def wakeup (wire : Wire) : StateT Host Option UInt8 := do
  let ret_code ← chipWakeup
  if ret_code ≠ SHA204_SUCCESS then return ret_code
  else
    let ret_code ← receiveResponse wire SHA204_RSP_SIZE_MIN
    if ret_code ≠ SHA204_SUCCESS then return ret_code
    else
      let ret_code := wakeupStatus (← get).rx_buffer
      if ret_code ≠ SHA204_SUCCESS then
        delay SHA204_COMMAND_EXEC_MAX
      return ret_code

def resync (wire : Wire) (size : UInt8) : StateT Host Option UInt8 := do
  -- Try to re-synchronize without sending a Wake token.
  delay SHA204_SYNC_TIMEOUT
  let ret_code ← receiveResponse wire size
  if ret_code = SHA204_SUCCESS then return ret_code
  else
    -- We lost communication. Send a Wake pulse and try to receive a response.
    let _ ← sleep
    let ret_code ← wakeup wire
    return if ret_code = SHA204_SUCCESS then SHA204_RESYNC_WITH_WAKEUP else ret_code

/-- Poll for response, for a number of rounds. -/
def poll (wire : Wire) (rx_size : UInt8) : Nat → UInt16 → StateT Host Option UInt8
  | 0, _ => failure
  | rounds + 1, timeout_countdown => do
    let ret_code ← receiveResponse wire rx_size
    let timeout_countdown := timeout_countdown - SHA204_RESPONSE_TIMEOUT
    if timeout_countdown > SHA204_RESPONSE_TIMEOUT ∧ ret_code = SHA204_RX_NO_RESPONSE then
      poll wire rx_size rounds timeout_countdown
    else return ret_code

/-- How the loop for receiving a response goes on. -/
inductive Next where
  | done (ret_code : UInt8)
  /-- Received no good response: the loop is left, or runs out of retries. -/
  | resend (ret_code : UInt8)
  | again (ret_code : UInt8)

/-- What a status response means. -/
def statusCode (status_byte : UInt8) : Next :=
  if status_byte = SHA204_STATUS_BYTE_PARSE then .done SHA204_PARSE_ERROR
  else if status_byte = SHA204_STATUS_BYTE_EXEC then .done SHA204_CMD_FAIL
  else if status_byte = SHA204_STATUS_BYTE_COMM then .resend SHA204_STATUS_CRC
  else .done SHA204_SUCCESS

/-- What follows a response that came out of sync or with an incorrect CRC. -/
def recover (wire : Wire) (rx_size ret_code : UInt8) : StateT Host Option Next := do
  let ret_code_resync ← resync wire rx_size
  -- We did not have to wake up the device. Try receiving response again.
  if ret_code_resync = SHA204_SUCCESS then return .again ret_code
  -- We could re-synchronize, but only after waking up the device.
  else if ret_code_resync = SHA204_RESYNC_WITH_WAKEUP then return .resend ret_code
  else return .done ret_code

/-- The rounds of the loop that polls for a response.  The countdown is below `2 ^ 16`, so
there are at most 139. -/
def POLL_ROUNDS : Nat := 139

/-- One round of the loop for receiving a response. -/
def receiveOnce (wire : Wire) (rx_size : UInt8) (execution_timeout_us : UInt16) :
    StateT Host Option Next := do
  modify (clear rx_size)
  let ret_code ← poll wire rx_size POLL_ROUNDS execution_timeout_us
  if ret_code = SHA204_RX_NO_RESPONSE then
    -- We did not receive a response. Re-synchronize and send command again.
    if (← resync wire rx_size) = SHA204_RX_NO_RESPONSE then return .done ret_code
    else return .resend ret_code
  else if ret_code = SHA204_INVALID_SIZE then recover wire rx_size ret_code
  else
    let rx_buffer := (← get).rx_buffer
    let ret_code := checkCrc rx_buffer
    if ret_code = SHA204_SUCCESS then
      if rx_buffer SHA204_BUFFER_POS_COUNT > SHA204_RSP_SIZE_MIN then return .done ret_code
      else return statusCode (rx_buffer SHA204_BUFFER_POS_STATUS)
    else recover wire rx_size ret_code

/-- Retry loop for receiving a response. -/
def receiveRetries (wire : Wire) (rx_size : UInt8) (execution_timeout_us : UInt16) :
    Nat → UInt8 → StateT Host Option Next
  | 0, ret_code => return .resend ret_code
  | n_retries_receive + 1, _ => do
    match ← receiveOnce wire rx_size execution_timeout_us with
    | .again ret_code =>
      receiveRetries wire rx_size execution_timeout_us n_retries_receive ret_code
    | next => return next

/-- Retry loop for sending a command and receiving a response. -/
def sendRetries (wire : Wire) (count rx_size execution_delay : UInt8)
    (execution_timeout_us : UInt16) : Nat → UInt8 → StateT Host Option UInt8
  | 0, ret_code => return ret_code
  | n_retries_send + 1, ret_code =>
    if ret_code = SHA204_SUCCESS then return ret_code
    else do
      let ret_code ← sendCommand count (← get).tx_buffer
      if ret_code ≠ SHA204_SUCCESS then
        if (← resync wire rx_size) = SHA204_RX_NO_RESPONSE then return ret_code
        else
          sendRetries wire count rx_size execution_delay execution_timeout_us n_retries_send
            ret_code
      else
        delay execution_delay
        match ← receiveRetries wire rx_size execution_timeout_us (SHA204_RETRY_COUNT + 1)
          ret_code with
        | .done ret_code => return ret_code
        | .resend ret_code | .again ret_code =>
          sendRetries wire count rx_size execution_delay execution_timeout_us n_retries_send
            ret_code

/-- Append CRC. -/
def appendCrc (count : UInt8) (s : Host) : Host :=
  let count_minus_crc := count - SHA204_CRC_SIZE
  let crc := calculateCrc count_minus_crc s.tx_buffer
  { s with
    tx_buffer := Function.update (Function.update s.tx_buffer count_minus_crc.toNat crc.1)
      (count_minus_crc.toNat + 1) crc.2 }

def sendAndReceive (wire : Wire) (rx_size execution_delay execution_timeout : UInt8) :
    StateT Host Option UInt8 := do
  let count := (← get).tx_buffer SHA204_BUFFER_POS_COUNT
  let execution_timeout_us := execution_timeout.toUInt16 * 1000 + SHA204_RESPONSE_TIMEOUT
  modify (appendCrc count)
  sendRetries wire count rx_size execution_delay execution_timeout_us (SHA204_RETRY_COUNT + 1)
    SHA204_FUNC_FAIL

end Host

/-! ## What goes over the wire -/

/-- Only polls, answers and time. -/
def Transfer.isPoll : Transfer → Bool
  | .sent bytes => bytes == [SHA204_SWI_FLAG_TX]
  | .received _ _ => true
  | .waited _ => true
  | .woken => false

/-- No command. -/
def Transfer.isFlag : Transfer → Bool
  | .sent bytes => bytes == [SHA204_SWI_FLAG_TX] || bytes == [SHA204_SWI_FLAG_SLEEP]
  | .received _ _ => true
  | .waited _ => true
  | .woken => true

theorem Transfer.isFlag_of_isPoll {t : Transfer} (h : t.isPoll = true) : t.isFlag = true := by
  cases t with
  | sent bytes => exact Bool.or_eq_true_iff.mpr (Or.inl h)
  | received status bytes => rfl
  | waited ms => rfl
  | woken => rfl

namespace Host

/-- What was on the wire since, and nothing else. -/
structure Grows (P : Transfer → Bool) (s s' : Host) : Prop where
  log : ∃ new, s'.log = s.log ++ new ∧ ∀ t ∈ new, P t = true
  tx : s'.tx_buffer = s.tx_buffer

variable {P Q : Transfer → Bool} {s s₁ s₂ s' : Host}

theorem Grows.of_log (hlog : s'.log = s.log) (htx : s'.tx_buffer = s.tx_buffer) : Grows P s s' :=
  ⟨⟨[], by rw [hlog, List.append_nil], fun t ht => absurd ht List.not_mem_nil⟩, htx⟩

theorem Grows.trans (h₁ : Grows P s s₁) (h₂ : Grows P s₁ s₂) : Grows P s s₂ := by
  obtain ⟨new₁, hlog₁, hnew₁⟩ := h₁.log
  obtain ⟨new₂, hlog₂, hnew₂⟩ := h₂.log
  refine ⟨⟨new₁ ++ new₂, by rw [hlog₂, hlog₁, List.append_assoc], fun t ht => ?_⟩,
    h₂.tx.trans h₁.tx⟩
  rcases List.mem_append.mp ht with ht | ht
  · exact hnew₁ t ht
  · exact hnew₂ t ht

theorem Grows.mono (h : Grows P s s') (himp : ∀ t, P t = true → Q t = true) : Grows Q s s' := by
  obtain ⟨new, hlog, hnew⟩ := h.log
  exact ⟨⟨new, hlog, fun t ht => himp t (hnew t ht)⟩, h.tx⟩

theorem Grows.flag (h : Grows Transfer.isPoll s s') : Grows Transfer.isFlag s s' :=
  h.mono fun _ => Transfer.isFlag_of_isPoll

theorem Grows.append (s : Host) {t : Transfer} (ht : P t = true) : Grows P s (s.append t) :=
  ⟨⟨[t], rfl, fun _ ht' => List.mem_singleton.mp ht' ▸ ht⟩, rfl⟩

/-! ## Responses -/

theorem status_receiveLoop (levels : Levels) (count : Nat) : ∀ (i n : Nat) (buffer : Buffer),
    (receiveLoop levels count i n buffer).1 = SWI_FUNCTION_RETCODE_SUCCESS ∨
      (receiveLoop levels count i n buffer).1 = SWI_FUNCTION_RETCODE_RX_FAIL ∨
      (receiveLoop levels count i n buffer).1 = SWI_FUNCTION_RETCODE_TIMEOUT := by
  induction count with
  | zero => exact fun _ _ _ => Or.inl rfl
  | succ count ih =>
    intro i n buffer
    rw [receiveLoop]
    rcases receiveByte levels shiftRegisters (buffer i) n with ⟨b, _ | n'⟩
    · by_cases hi : i > 0
      · exact Or.inr (Or.inl (if_pos hi))
      · exact Or.inr (Or.inr (if_neg hi))
    · exact ih _ _ _

/-- `rx_buffer` is what the chip answered when it was polled behind `log`. -/
structure Response (wire : Wire) (size : UInt8) (log : List Transfer) (rx_buffer : Buffer) :
    Prop where
  read : ∃ buffer : Buffer, (∀ i < size.toNat, buffer i = 0) ∧
    rx_buffer =
      (Sha204.receiveBytes (wire (log ++ [.sent [SHA204_SWI_FLAG_TX]])) size buffer).2 ∧
    (Sha204.receiveBytes (wire (log ++ [.sent [SHA204_SWI_FLAG_TX]])) size buffer).1 ≠
      SWI_FUNCTION_RETCODE_TIMEOUT
  min : SHA204_RSP_SIZE_MIN ≤ rx_buffer SHA204_BUFFER_POS_COUNT
  le_size : rx_buffer SHA204_BUFFER_POS_COUNT ≤ size

/-- The last poll was behind `log` and got this response. -/
def Polled (wire : Wire) (size : UInt8) (log : List Transfer) (s' : Host) : Prop :=
  Response wire size log s'.rx_buffer ∧ ∃ status, s'.log =
    log ++ [.sent [SHA204_SWI_FLAG_TX], .received status (take size s'.rx_buffer)]

/-- The codes of `receive_response`. -/
def ResponseCode (ret_code : UInt8) : Prop :=
  ret_code = SHA204_SUCCESS ∨ ret_code = SHA204_INVALID_SIZE ∨ ret_code = SHA204_RX_NO_RESPONSE

variable {wire : Wire} {size : UInt8}

/-- What a poll reads. -/
def reading (wire : Wire) (size : UInt8) (s : Host) : UInt8 × Buffer :=
  Sha204.receiveBytes (wire (s.log ++ [.sent [SHA204_SWI_FLAG_TX]])) size (s.clear size).rx_buffer

/-- The state after a poll. -/
def afterPoll (wire : Wire) (size : UInt8) (s : Host) : Host :=
  { s with
    rx_buffer := (reading wire size s).2
    log := s.log ++ [.sent [SHA204_SWI_FLAG_TX]] ++
      [.received (reading wire size s).1 (take size (reading wire size s).2)] }

theorem afterPoll_log (wire : Wire) (size : UInt8) (s : Host) :
    (afterPoll wire size s).log = s.log ++ [.sent [SHA204_SWI_FLAG_TX],
      .received (reading wire size s).1 (take size (reading wire size s).2)] :=
  List.append_assoc ..

theorem afterPoll_grows (wire : Wire) (size : UInt8) (s : Host) :
    Grows Transfer.isPoll s (afterPoll wire size s) := by
  refine ⟨⟨_, afterPoll_log wire size s, fun t ht => ?_⟩, rfl⟩
  rcases List.mem_pair.mp ht with rfl | rfl <;> rfl

/-- The three ends of `receive_response`. -/
theorem receiveResponse_cases {post : UInt8 → Host → Prop}
    (hsilent : (reading wire size s).1 = SWI_FUNCTION_RETCODE_TIMEOUT →
      post SHA204_RX_NO_RESPONSE (afterPoll wire size s))
    (hbad : (reading wire size s).1 ≠ SWI_FUNCTION_RETCODE_TIMEOUT →
      ((reading wire size s).2 SHA204_BUFFER_POS_COUNT < SHA204_RSP_SIZE_MIN ∨
        (reading wire size s).2 SHA204_BUFFER_POS_COUNT > size) →
      post SHA204_INVALID_SIZE (afterPoll wire size s))
    (hgood : (reading wire size s).1 ≠ SWI_FUNCTION_RETCODE_TIMEOUT →
      SHA204_RSP_SIZE_MIN ≤ (reading wire size s).2 SHA204_BUFFER_POS_COUNT →
      (reading wire size s).2 SHA204_BUFFER_POS_COUNT ≤ size →
      post SHA204_SUCCESS (afterPoll wire size s)) :
    Returns (receiveResponse wire size) s post := by
  have hstatus : (reading wire size s).1 = SWI_FUNCTION_RETCODE_SUCCESS ∨
      (reading wire size s).1 = SWI_FUNCTION_RETCODE_RX_FAIL ∨
      (reading wire size s).1 = SWI_FUNCTION_RETCODE_TIMEOUT := status_receiveLoop _ _ 0 0 _
  refine Returns.bind_of_eq rfl (Returns.bind_of_eq rfl ?_)
  refine Returns.bind_of_eq (t := afterPoll wire size s) (a := (reading wire size s).1) rfl ?_
  split_ifs with hread htimeout
  · have hcame : (reading wire size s).1 ≠ SWI_FUNCTION_RETCODE_TIMEOUT := by
      rcases hread with h | h <;> exact fun h' => absurd (h.symm.trans h') (by decide)
    refine Returns.get_bind ?_
    dsimp only
    split_ifs with hsize
    · exact Returns.pure (hbad hcame hsize)
    · obtain ⟨hmin, hmax⟩ := not_or.mp hsize
      exact Returns.pure (hgood hcame (UInt8.not_lt.mp hmin) (UInt8.not_lt.mp hmax))
  · exact Returns.pure (hsilent htimeout)
  · rcases hstatus with h | h | h
    · exact absurd (Or.inl h) hread
    · exact absurd (Or.inr h) hread
    · exact absurd h htimeout

theorem receiveResponse_spec (wire : Wire) (size : UInt8) (s : Host) :
    Returns (receiveResponse wire size) s fun ret_code s' => Grows Transfer.isPoll s s' ∧
      ResponseCode ret_code ∧ (ret_code = SHA204_SUCCESS → Polled wire size s.log s') := by
  have hgrows := afterPoll_grows wire size s
  have hclear : ∀ i < size.toNat, (s.clear size).rx_buffer i = 0 := fun i hi => if_pos hi
  apply receiveResponse_cases
  · exact fun _ => ⟨hgrows, Or.inr (Or.inr rfl), fun h => absurd h (by decide)⟩
  · exact fun _ _ => ⟨hgrows, Or.inr (Or.inl rfl), fun h => absurd h (by decide)⟩
  · exact fun hread hmin hmax =>
      ⟨hgrows, Or.inl rfl, fun _ => ⟨⟨⟨_, hclear, rfl, hread⟩, hmin, hmax⟩, _,
        afterPoll_log wire size s⟩⟩

theorem wakeup_spec (wire : Wire) (s : Host) :
    Returns (wakeup wire) s fun _ s' => Grows Transfer.isFlag s s' := by
  have hwoken : Grows Transfer.isFlag s ((s.append .woken).append (.waited SHA204_WAKEUP_DELAY)) :=
    (Grows.append s rfl).trans (Grows.append _ rfl)
  refine Returns.bind_of_eq (a := SHA204_SUCCESS) rfl ?_
  rw [if_neg (by decide)]
  refine Returns.bind (receiveResponse_spec wire _ _) fun ret_code s₁ h₁ => ?_
  have hgrows := hwoken.trans h₁.1.flag
  split_ifs with hresponse
  · exact Returns.pure hgrows
  · refine Returns.get_bind ?_
    dsimp only
    split_ifs with hstatus
    · exact Returns.bind_of_eq rfl (Returns.pure (hgrows.trans (Grows.append _ rfl)))
    · exact Returns.pure hgrows

/-- If the first response is good, the chip was not put to sleep. -/
theorem resync_spec (wire : Wire) (size : UInt8) (s : Host) :
    Returns (resync wire size) s fun ret_code s' => Grows Transfer.isFlag s s' ∧
      (ret_code = SHA204_SUCCESS → Grows Transfer.isPoll s s') := by
  have hwaited : Grows Transfer.isPoll s (s.append (.waited SHA204_SYNC_TIMEOUT)) :=
    Grows.append s rfl
  refine Returns.bind_of_eq rfl ?_
  refine Returns.bind (receiveResponse_spec wire _ _) fun ret_code s₁ h₁ => ?_
  have hpolled := hwaited.trans h₁.1
  split_ifs with hresponse
  · exact Returns.pure ⟨hpolled.flag, fun _ => hpolled⟩
  · have hslept : Grows Transfer.isFlag s (s₁.append (.sent [SHA204_SWI_FLAG_SLEEP])) :=
      hpolled.flag.trans (Grows.append _ rfl)
    refine Returns.bind_of_eq (a := SWI_FUNCTION_RETCODE_SUCCESS) rfl ?_
    refine Returns.bind (wakeup_spec wire _) fun ret_code s₂ h₂ => Returns.pure ?_
    refine ⟨hslept.trans h₂, fun hsuccess => ?_⟩
    split_ifs at hsuccess with hwoken
    · exact absurd hsuccess (by decide)
    · exact absurd hsuccess hwoken

/-- The countdown runs out in time. -/
theorem poll_spec (wire : Wire) (rx_size : UInt8) (rounds : Nat) :
    ∀ (timeout_countdown : UInt16) (s : Host),
      (timeout_countdown - SHA204_RESPONSE_TIMEOUT).toNat < 476 * rounds →
      Returns (poll wire rx_size rounds timeout_countdown) s fun ret_code s' =>
        Grows Transfer.isPoll s s' ∧ ResponseCode ret_code ∧
          (ret_code = SHA204_SUCCESS →
            ∃ s₁, Grows Transfer.isPoll s s₁ ∧ Polled wire rx_size s₁.log s') := by
  induction rounds with
  | zero =>
    intro timeout_countdown s h
    omega
  | succ rounds ih =>
    intro timeout_countdown s h
    refine Returns.bind (receiveResponse_spec wire rx_size s) fun ret_code s₁ h₁ => ?_
    obtain ⟨hgrows, hcode, hpolled⟩ := h₁
    dsimp only
    split_ifs with hagain
    · have hleft := UInt16.lt_iff_toNat_lt.mp hagain.1
      have hle : SHA204_RESPONSE_TIMEOUT ≤ timeout_countdown - SHA204_RESPONSE_TIMEOUT :=
        UInt16.le_of_lt hagain.1
      have hnext := UInt16.toNat_sub_of_le _ _ hle
      have htimeout : SHA204_RESPONSE_TIMEOUT.toNat = 476 := rfl
      refine (ih (timeout_countdown - SHA204_RESPONSE_TIMEOUT) s₁ (by omega)).mono
        fun ret_code s₂ h₂ => ?_
      obtain ⟨hgrows₂, hcode₂, hpolled₂⟩ := h₂
      refine ⟨hgrows.trans hgrows₂, hcode₂, fun hsuccess => ?_⟩
      obtain ⟨s₃, hgrows₃, hlast⟩ := hpolled₂ hsuccess
      exact ⟨s₃, hgrows.trans hgrows₃, hlast⟩
    · exact Returns.pure ⟨hgrows, hcode, fun hsuccess => ⟨s, .of_log rfl rfl, hpolled hsuccess⟩⟩

/-! ## The retries -/

/-- Since the command was sent, the chip has only been polled. -/
def Listening (packet : List UInt8) (log : List Transfer) : Prop :=
  ∃ pre mid, log = pre ++ .sent [SHA204_SWI_FLAG_CMD] :: .sent packet :: mid ∧
    ∀ t ∈ mid, t.isPoll = true

theorem Listening.grows {packet : List UInt8} (h : Listening packet s.log)
    (hgrows : Grows Transfer.isPoll s s') : Listening packet s'.log := by
  obtain ⟨pre, mid, hlog, hmid⟩ := h
  obtain ⟨new, hnew, hpolls⟩ := hgrows.log
  refine ⟨pre, mid ++ new, by rw [hnew, hlog, List.append_assoc]; rfl, fun t ht => ?_⟩
  rcases List.mem_append.mp ht with ht | ht
  · exact hmid t ht
  · exact hpolls t ht

/-- What a success means: the buffer holds what came behind the last poll, after the
command and without a wake-up in between.  Its count is in range, its check is right and
it is no error status.  It may have been cut off, with zeros in place of the rest. -/
structure Accepted (wire : Wire) (rx_size : UInt8) (packet : List UInt8) (s : Host) : Prop where
  polled : ∃ log, Listening packet log ∧ Polled wire rx_size log s
  crc : checkCrc s.rx_buffer = SHA204_SUCCESS
  status : s.rx_buffer SHA204_BUFFER_POS_COUNT = SHA204_RSP_SIZE_MIN →
    s.rx_buffer SHA204_BUFFER_POS_STATUS ≠ SHA204_STATUS_BYTE_PARSE ∧
      s.rx_buffer SHA204_BUFFER_POS_STATUS ≠ SHA204_STATUS_BYTE_EXEC ∧
      s.rx_buffer SHA204_BUFFER_POS_STATUS ≠ SHA204_STATUS_BYTE_COMM

/-- What a round of the loop for receiving a response may end with. -/
def Next.Ok (wire : Wire) (rx_size : UInt8) (packet : List UInt8) (s : Host) : Next → Prop
  | .done ret_code => ret_code = SHA204_SUCCESS → Accepted wire rx_size packet s
  | .resend ret_code => ret_code ≠ SHA204_SUCCESS
  | .again ret_code => ret_code ≠ SHA204_SUCCESS ∧ Listening packet s.log

variable {rx_size : UInt8} {packet : List UInt8}

theorem recover_spec {ret_code : UInt8} (hcode : ret_code ≠ SHA204_SUCCESS)
    (h : Listening packet s.log) :
    Returns (recover wire rx_size ret_code) s fun next s' =>
      Grows Transfer.isFlag s s' ∧ next.Ok wire rx_size packet s' := by
  refine Returns.bind (resync_spec wire rx_size s) fun ret_code_resync s₁ h₁ => ?_
  split_ifs with hsuccess hwoken
  · exact Returns.pure ⟨h₁.1, hcode, h.grows (h₁.2 hsuccess)⟩
  · exact Returns.pure ⟨h₁.1, hcode⟩
  · exact Returns.pure ⟨h₁.1, fun hdone => absurd hdone hcode⟩

theorem statusCode_ok (hpolled : ∃ log, Listening packet log ∧ Polled wire rx_size log s)
    (hcrc : checkCrc s.rx_buffer = SHA204_SUCCESS) :
    (statusCode (s.rx_buffer SHA204_BUFFER_POS_STATUS)).Ok wire rx_size packet s := by
  rw [statusCode]
  split_ifs with hparse hexec hcomm
  · exact fun h => absurd h (by decide)
  · exact fun h => absurd h (by decide)
  · show SHA204_STATUS_CRC ≠ SHA204_SUCCESS
    decide
  · exact fun _ => ⟨hpolled, hcrc, fun _ => ⟨hparse, hexec, hcomm⟩⟩

theorem receiveOnce_spec (execution_timeout_us : UInt16) (h : Listening packet s.log) :
    Returns (receiveOnce wire rx_size execution_timeout_us) s fun next s' =>
      Grows Transfer.isFlag s s' ∧ next.Ok wire rx_size packet s' := by
  have hcleared : Grows Transfer.isPoll s (s.clear rx_size) := .of_log rfl rfl
  have hrounds : (execution_timeout_us - SHA204_RESPONSE_TIMEOUT).toNat < 476 * POLL_ROUNDS :=
    Nat.lt_of_lt_of_le (UInt16.toNat_lt _) (by decide)
  refine Returns.bind_of_eq rfl ?_
  refine Returns.bind (poll_spec wire rx_size POLL_ROUNDS _ _ hrounds) fun ret_code s₁ h₁ => ?_
  obtain ⟨hgrows, hcode, hpolled⟩ := h₁
  have hgrows₁ := hcleared.trans hgrows
  have hlistening := h.grows hgrows₁
  split_ifs with hsilent hsize
  · refine Returns.bind (resync_spec wire rx_size s₁) fun ret_code_resync s₂ h₂ => ?_
    have hfailed : ret_code ≠ SHA204_SUCCESS := by
      rw [hsilent]
      decide
    split_ifs with hdead
    · exact Returns.pure ⟨hgrows₁.flag.trans h₂.1, fun hdone => absurd hdone hfailed⟩
    · exact Returns.pure ⟨hgrows₁.flag.trans h₂.1, hfailed⟩
  · have hfailed : ret_code ≠ SHA204_SUCCESS := by
      rw [hsize]
      decide
    exact (recover_spec hfailed hlistening).mono fun next s₂ h₂ =>
      ⟨hgrows₁.flag.trans h₂.1, h₂.2⟩
  · have hsuccess : ret_code = SHA204_SUCCESS := by
      rcases hcode with hcode | hcode | hcode
      · exact hcode
      · exact absurd hcode hsize
      · exact absurd hcode hsilent
    obtain ⟨s₂, hgrows₂, hlast⟩ := hpolled hsuccess
    have hresponse : ∃ log, Listening packet log ∧ Polled wire rx_size log s₁ :=
      ⟨s₂.log, h.grows (hcleared.trans hgrows₂), hlast⟩
    refine Returns.get_bind ?_
    dsimp only
    split_ifs with hcrc hdata
    · refine Returns.pure ⟨hgrows₁.flag, fun _ => ⟨hresponse, hcrc, fun hmin => ?_⟩⟩
      rw [hmin] at hdata
      exact absurd hdata (by decide)
    · exact Returns.pure ⟨hgrows₁.flag, statusCode_ok hresponse hcrc⟩
    · exact (recover_spec hcrc hlistening).mono fun next s₃ h₃ =>
        ⟨hgrows₁.flag.trans h₃.1, h₃.2⟩

theorem receiveRetries_spec (execution_timeout_us : UInt16) (n_retries_receive : Nat) :
    ∀ (ret_code : UInt8) (s : Host), Listening packet s.log →
      (n_retries_receive = 0 → ret_code ≠ SHA204_SUCCESS) →
      Returns (receiveRetries wire rx_size execution_timeout_us n_retries_receive ret_code) s
        fun next s' => Grows Transfer.isFlag s s' ∧ next.Ok wire rx_size packet s' := by
  induction n_retries_receive with
  | zero => exact fun ret_code s _ hcode => Returns.pure ⟨.of_log rfl rfl, hcode rfl⟩
  | succ n ih =>
    intro ret_code s h _
    refine Returns.bind (receiveOnce_spec execution_timeout_us h) fun next s₁ h₁ => ?_
    obtain ⟨hgrows, hok⟩ := h₁
    cases next with
    | done ret_code => exact Returns.pure ⟨hgrows, hok⟩
    | resend ret_code => exact Returns.pure ⟨hgrows, hok⟩
    | again ret_code =>
      exact (ih ret_code s₁ hok.2 fun _ => hok.1).mono fun next s₂ h₂ =>
        ⟨hgrows.trans h₂.1, h₂.2⟩

/-- The command was sent from `least` to `most` times, whole, and no other one. -/
structure Sends (packet : List UInt8) (least most : Nat) (s s' : Host) : Prop where
  log : ∃ rounds : List (List Transfer), least ≤ rounds.length ∧ rounds.length ≤ most ∧
    (∀ round ∈ rounds, ∀ t ∈ round, t.isFlag = true) ∧
    s'.log = s.log ++ rounds.flatMap fun round =>
      .sent [SHA204_SWI_FLAG_CMD] :: .sent packet :: round
  tx : s'.tx_buffer = s.tx_buffer

theorem Sends.zero (packet : List UInt8) (most : Nat) (s : Host) : Sends packet 0 most s s :=
  ⟨⟨[], Nat.le_refl 0, Nat.zero_le most, fun _ h => absurd h List.not_mem_nil,
    (List.append_nil s.log).symm⟩, rfl⟩

/-- The command goes out, and is followed by a round. -/
theorem Sends.cons {least most : Nat} {packet : List UInt8}
    (hround : Grows Transfer.isFlag
      ((s.append (.sent [SHA204_SWI_FLAG_CMD])).append (.sent packet)) s₁)
    (h : Sends packet least most s₁ s') : Sends packet 1 (most + 1) s s' := by
  obtain ⟨round, hlog₁, hflags⟩ := hround.log
  obtain ⟨rounds, _, hlength, hall, hlog⟩ := h.log
  refine ⟨⟨round :: rounds, Nat.succ_pos _, Nat.succ_le_succ hlength, fun r hr => ?_, ?_⟩,
    h.tx.trans hround.tx⟩
  · rcases List.mem_cons.mp hr with rfl | hr
    · exact hflags
    · exact hall r hr
  · rw [hlog, hlog₁, List.flatMap_cons]
    simp only [append, List.append_assoc, List.cons_append, List.nil_append]

theorem sendRetries_spec (wire : Wire) (count rx_size execution_delay : UInt8)
    (execution_timeout_us : UInt16) (n_retries_send : Nat) :
    ∀ (ret_code : UInt8) (s : Host), ret_code ≠ SHA204_SUCCESS →
      Returns (sendRetries wire count rx_size execution_delay execution_timeout_us
        n_retries_send ret_code) s fun ret_code s' =>
          Sends (take count s.tx_buffer) (min 1 n_retries_send) n_retries_send s s' ∧
            (ret_code = SHA204_SUCCESS →
              Accepted wire rx_size (take count s.tx_buffer) s') := by
  induction n_retries_send with
  | zero =>
    exact fun ret_code s hcode => Returns.pure ⟨.zero _ 0 s, fun h => absurd h hcode⟩
  | succ n ih =>
    intro ret_code s hcode
    rw [Nat.min_eq_left (Nat.succ_pos n)]
    let packet := take count s.tx_buffer
    let s₁ := (s.append (.sent [SHA204_SWI_FLAG_CMD])).append (.sent packet)
    have hsent : Grows Transfer.isFlag s₁ (s₁.append (.waited execution_delay)) :=
      Grows.append s₁ rfl
    have hlistening : Listening packet (s₁.append (.waited execution_delay)).log :=
      ⟨s.log, [.waited execution_delay], by
        simp only [append, s₁, List.append_assoc, List.cons_append, List.nil_append], fun t ht =>
        List.mem_singleton.mp ht ▸ rfl⟩
    rw [sendRetries, if_neg hcode]
    refine Returns.get_bind (Returns.bind_of_eq (t := s₁) (a := SHA204_SUCCESS) rfl ?_)
    rw [if_neg (by decide)]
    refine Returns.bind_of_eq rfl ?_
    refine Returns.bind (receiveRetries_spec execution_timeout_us (SHA204_RETRY_COUNT + 1)
      SHA204_SUCCESS _ hlistening fun h => absurd h (by decide)) fun next s₂ h₂ => ?_
    obtain ⟨hgrows, hok⟩ := h₂
    have hround := hsent.trans hgrows
    have htx : take count s₂.tx_buffer = packet := by
      rw [hround.tx]
      rfl
    have hagain : ∀ ret_code, ret_code ≠ SHA204_SUCCESS →
        Returns (sendRetries wire count rx_size execution_delay execution_timeout_us n ret_code) s₂
          fun ret_code s' => Sends packet 1 (n + 1) s s' ∧
            (ret_code = SHA204_SUCCESS → Accepted wire rx_size packet s') := by
      intro ret_code hcode
      refine (ih ret_code s₂ hcode).mono fun ret_code s₃ h₃ => ?_
      rw [htx] at h₃
      exact ⟨.cons hround h₃.1, h₃.2⟩
    cases next with
    | done ret_code => exact Returns.pure ⟨.cons hround (.zero _ n s₂), hok⟩
    | resend ret_code => exact hagain ret_code hok
    | again ret_code => exact hagain ret_code hok.1

/-- The command behind `calculate_crc`. -/
def command (s : Host) : List UInt8 :=
  take (s.tx_buffer SHA204_BUFFER_POS_COUNT)
    (appendCrc (s.tx_buffer SHA204_BUFFER_POS_COUNT) s).tx_buffer

theorem sendAndReceive_spec (wire : Wire) (rx_size execution_delay execution_timeout : UInt8)
    (s : Host) :
    Returns (sendAndReceive wire rx_size execution_delay execution_timeout) s fun ret_code s' =>
      Sends s.command 1 2 (appendCrc (s.tx_buffer SHA204_BUFFER_POS_COUNT) s) s' ∧
        (ret_code = SHA204_SUCCESS → Accepted wire rx_size s.command s') :=
  Returns.get_bind (Returns.bind_of_eq rfl
    (sendRetries_spec wire _ rx_size execution_delay _ _ _ _ (by decide)))

/-- **One command.**  Whatever happens on the wire, the call ends, the command goes out once
or twice and nothing goes out between but polls and the pulses of a wake-up.  After a
success the buffer holds what came after the command with a count in range and a right
check.  `receive_response` takes what was cut off and still passes the check as well. -/
theorem sendAndReceive_sound (wire : Wire) (rx_size execution_delay execution_timeout : UInt8)
    (s : Host) :
    Returns (sendAndReceive wire rx_size execution_delay execution_timeout) s fun ret_code s' =>
      (∃ rounds : List (List Transfer), 1 ≤ rounds.length ∧ rounds.length ≤ 2 ∧
        (∀ round ∈ rounds, ∀ t ∈ round, t.isFlag = true) ∧
        s'.log = s.log ++ rounds.flatMap fun round =>
          .sent [SHA204_SWI_FLAG_CMD] :: .sent s.command :: round) ∧
        (ret_code = SHA204_SUCCESS → Accepted wire rx_size s.command s') :=
  (sendAndReceive_spec wire rx_size execution_delay execution_timeout s).mono
    fun _ _ h => ⟨h.1.log, h.2⟩

end Host

end ArduinoProjects.Sha204
