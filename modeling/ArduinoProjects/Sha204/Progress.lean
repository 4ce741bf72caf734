import ArduinoProjects.Sha204.Commands

/-!
# A chip that answers

`Protocol` says what a success means, whatever the chip does.  Here the chip is busy for
some polls, which it leaves without an answer, and then sends a valid response of the size
that is asked for.  As long as the countdown lasts for the polls, the function returns
`SHA204_SUCCESS` and the response is in the buffer.
-/

namespace ArduinoProjects.Sha204

/-! ## The chip -/

/-- Nobody pulls the wire down before the time is out. -/
def Silent (levels : Levels) : Prop := ∀ i < 254, levels i = .HIGH

/-- After a moment, the chip sends the bytes. -/
def Clean (levels : Levels) (bytes : List UInt8) : Prop :=
  ∃ idle ≤ 80, ∃ stop, (∀ i < idle, levels i = .HIGH) ∧
    Sampled levels idle (sendBytes bytes) stop

/-- A chip that sends the bytes at once, read once in a microsecond. -/
def sending (bytes : List UInt8) : Levels := fun n => (readings (sendBytes bytes)).getD n .HIGH

theorem clean_sending (bytes : List UInt8) : Clean (sending bytes) bytes :=
  ⟨0, Nat.zero_le 80, _, fun i hi => absurd hi (Nat.not_lt_zero i),
    sampled_readings _ fun i _ => by rw [Nat.zero_add]; rfl⟩

/-- The chip leaves `busy` polls without an answer, and then sends the bytes. -/
def Answers (wire : Wire) (bytes : List UInt8) : Nat → List Transfer → Prop
  | 0, log => Clean (wire (log ++ [.sent [SHA204_SWI_FLAG_TX]])) bytes
  | busy + 1, log => Silent (wire (log ++ [.sent [SHA204_SWI_FLAG_TX]])) ∧
    ∀ rx, Answers wire bytes busy
      (log ++ [.sent [SHA204_SWI_FLAG_TX], .received SWI_FUNCTION_RETCODE_TIMEOUT rx])

/-- A valid response of some size that is no error. -/
structure Good (size : UInt8) (bytes : List UInt8) : Prop where
  length : bytes.length = size.toNat
  min : SHA204_RSP_SIZE_MIN ≤ size
  count : bytes.getD SHA204_BUFFER_POS_COUNT 0 = size
  crc : checkCrc (fun i => bytes.getD i 0) = SHA204_SUCCESS
  status : size = SHA204_RSP_SIZE_MIN →
    bytes.getD SHA204_BUFFER_POS_STATUS 0 ≠ SHA204_STATUS_BYTE_PARSE ∧
      bytes.getD SHA204_BUFFER_POS_STATUS 0 ≠ SHA204_STATUS_BYTE_EXEC ∧
      bytes.getD SHA204_BUFFER_POS_STATUS 0 ≠ SHA204_STATUS_BYTE_COMM

/-- The bytes are in the buffer. -/
def Holds (bytes : List UInt8) (buffer : Buffer) : Prop :=
  ∀ i < bytes.length, buffer i = bytes.getD i 0

variable {levels : Levels} {size : UInt8} {bytes : List UInt8} {buffer : Buffer}

theorem Good.min_toNat (h : Good size bytes) : 4 ≤ size.toNat := UInt8.le_iff_toNat_le.mp h.min

theorem Holds.count (h : Holds bytes buffer) (hgood : Good size bytes) :
    buffer SHA204_BUFFER_POS_COUNT = size :=
  (h 0 (by rw [hgood.length]; have := hgood.min_toNat; omega)).trans hgood.count

theorem Holds.crc (h : Holds bytes buffer) (hgood : Good size bytes) :
    checkCrc buffer = SHA204_SUCCESS := by
  have hmin := hgood.min_toNat
  have hcount : ((fun i => bytes.getD i 0 : Buffer) 0).toNat = bytes.length :=
    (congrArg UInt8.toNat hgood.count).trans hgood.length.symm
  refine checkCrc_of_eq hgood.crc ?_ fun i hi => h i (hcount ▸ hi)
  rw [hcount, hgood.length]
  omega

theorem fallingEdge_zero {n t : Nat} (h : Stays levels n t .HIGH) :
    (fallingEdge levels (t + 1) n).1 = 0 := by
  induction t generalizing n with
  | zero => rfl
  | succ t ih =>
    rw [fallingEdge, if_neg (Nat.succ_ne_zero t), if_neg h.ne_low]
    exact ih h.rest

/-- Not even the first bit comes. -/
theorem receiveBytes_silent (h : Silent levels) (hsize : 0 < size.toNat) (buffer : Buffer) :
    (receiveBytes levels size buffer).1 = SWI_FUNCTION_RETCODE_TIMEOUT := by
  have hzero : (fallingEdge levels START_PULSE_TIME_OUT 0).1 = 0 :=
    fallingEdge_zero (t := 254) fun i hi => (congrArg levels (Nat.zero_add i)).trans (h i hi)
  have hbit : receiveBit levels 0 = none := if_pos hzero
  obtain ⟨n, hn⟩ : ∃ n, size.toNat = n + 1 := ⟨size.toNat - 1, by omega⟩
  rw [receiveBytes, hn, receiveLoop, shiftRegisters, receiveByte, hbit]
  rfl

namespace Host

variable {wire : Wire} {s : Host}

theorem receiveResponse_silent (h : Silent (wire (s.log ++ [.sent [SHA204_SWI_FLAG_TX]])))
    (hsize : 0 < size.toNat) :
    Returns (receiveResponse wire size) s fun ret_code s' =>
      ret_code = SHA204_RX_NO_RESPONSE ∧ ∃ rx, s'.log = s.log ++
        [.sent [SHA204_SWI_FLAG_TX], .received SWI_FUNCTION_RETCODE_TIMEOUT rx] := by
  have htimeout : (reading wire size s).1 = SWI_FUNCTION_RETCODE_TIMEOUT :=
    receiveBytes_silent h hsize _
  apply receiveResponse_cases
  · intro _
    have hlog := afterPoll_log wire size s
    rw [htimeout] at hlog
    exact ⟨rfl, _, hlog⟩
  · exact fun h => absurd htimeout h
  · exact fun h => absurd htimeout h

theorem receiveResponse_clean (h : Clean (wire (s.log ++ [.sent [SHA204_SWI_FLAG_TX]])) bytes)
    (hgood : Good size bytes) :
    Returns (receiveResponse wire size) s fun ret_code s' =>
      ret_code = SHA204_SUCCESS ∧ Holds bytes s'.rx_buffer := by
  obtain ⟨idle, hidle, stop, hhigh, hsampled⟩ := h
  have hclear : ∀ i < bytes.length, (s.clear size).rx_buffer i = 0 :=
    fun i hi => if_pos (hgood.length ▸ hi)
  obtain ⟨hsuccess, hbytes⟩ : (reading wire size s).1 = SWI_FUNCTION_RETCODE_SUCCESS ∧
      Holds bytes (reading wire size s).2 :=
    receiveBytes_pause hgood.length.symm hclear (hsampled.pause hidle hhigh)
  have hcount := hbytes.count hgood
  apply receiveResponse_cases
  · intro htimeout
    exact absurd (hsuccess.symm.trans htimeout) (by decide)
  · intro _ hsize
    rw [hcount] at hsize
    rcases hsize with hsize | hsize
    · exact absurd hgood.min (UInt8.not_le.mpr hsize)
    · exact absurd hsize (UInt8.lt_irrefl size)
  · exact fun _ _ _ => ⟨rfl, hbytes⟩

/-- The countdown is long enough for the polls without an answer. -/
theorem poll_answered (hgood : Good size bytes) {busy : Nat} :
    ∀ {rounds : Nat} {timeout_countdown : UInt16} {s : Host}, Answers wire bytes busy s.log →
      busy < rounds → 476 * (busy + 1) < timeout_countdown.toNat →
      Returns (poll wire size rounds timeout_countdown) s fun ret_code s' =>
        ret_code = SHA204_SUCCESS ∧ Holds bytes s'.rx_buffer := by
  have hmin := hgood.min_toNat
  induction busy with
  | zero =>
    intro rounds timeout_countdown s h hrounds _
    obtain ⟨rounds, rfl⟩ : ∃ n, rounds = n + 1 := ⟨rounds - 1, by omega⟩
    refine Returns.bind (receiveResponse_clean h hgood) fun ret_code s₁ h₁ => ?_
    obtain ⟨rfl, hholds⟩ := h₁
    dsimp only
    rw [if_neg fun h => absurd h.2 (by decide)]
    exact Returns.pure ⟨rfl, hholds⟩
  | succ busy ih =>
    intro rounds timeout_countdown s h hrounds htime
    obtain ⟨rounds, rfl⟩ : ∃ n, rounds = n + 1 := ⟨rounds - 1, by omega⟩
    obtain ⟨hsilent, hrest⟩ := h
    refine Returns.bind (receiveResponse_silent hsilent (by omega)) fun ret_code s₁ h₁ => ?_
    obtain ⟨rfl, rx, hlog⟩ := h₁
    have htimeout : SHA204_RESPONSE_TIMEOUT.toNat = 476 := rfl
    have hleft : (timeout_countdown - SHA204_RESPONSE_TIMEOUT).toNat =
        timeout_countdown.toNat - 476 :=
      UInt16.toNat_sub_of_le _ _ (UInt16.le_iff_toNat_le.mpr (by omega))
    have hagain : timeout_countdown - SHA204_RESPONSE_TIMEOUT > SHA204_RESPONSE_TIMEOUT :=
      UInt16.lt_iff_toNat_lt.mpr (by omega)
    dsimp only
    rw [if_pos ⟨hagain, rfl⟩]
    exact ih (hlog ▸ hrest rx) (by omega) (by omega)

theorem receiveOnce_answered (hgood : Good size bytes) {busy : Nat}
    {execution_timeout_us : UInt16} (h : Answers wire bytes busy s.log)
    (hbusy : 476 * (busy + 1) < execution_timeout_us.toNat) :
    Returns (receiveOnce wire size execution_timeout_us) s fun next s' =>
      next = .done SHA204_SUCCESS ∧ Holds bytes s'.rx_buffer := by
  have hrounds : busy < POLL_ROUNDS := by
    have hlt := execution_timeout_us.toNat_lt
    rw [POLL_ROUNDS]
    omega
  refine Returns.bind_of_eq rfl ?_
  refine Returns.bind (poll_answered (s := s.clear size) hgood h hrounds hbusy)
    fun ret_code s₁ h₁ => ?_
  obtain ⟨rfl, hholds⟩ := h₁
  rw [if_neg (by decide), if_neg (by decide)]
  refine Returns.get_bind ?_
  dsimp only
  rw [if_pos (hholds.crc hgood), hholds.count hgood]
  split_ifs with hdata
  · exact Returns.pure ⟨congrArg Next.done (hholds.crc hgood), hholds⟩
  · have hsize : size = SHA204_RSP_SIZE_MIN := UInt8.le_antisymm (UInt8.not_lt.mp hdata) hgood.min
    obtain ⟨hparse, hexec, hcomm⟩ := hgood.status hsize
    have hstatus : s₁.rx_buffer SHA204_BUFFER_POS_STATUS =
        bytes.getD SHA204_BUFFER_POS_STATUS 0 :=
      hholds 1 (by rw [hgood.length]; have := hgood.min_toNat; omega)
    refine Returns.pure ⟨?_, hholds⟩
    rw [hstatus, statusCode, if_neg hparse, if_neg hexec, if_neg hcomm]

/-- The first command is answered, so that there is no second one. -/
theorem sendAndReceive_answered (hgood : Good size bytes) {busy : Nat}
    {execution_delay execution_timeout : UInt8}
    (h : Answers wire bytes busy (s.log ++ [.sent [SHA204_SWI_FLAG_CMD], .sent s.command,
      .waited execution_delay]))
    (hfits : execution_timeout.toNat ≤ 65) (hbusy : 476 * busy < 1000 * execution_timeout.toNat) :
    Returns (sendAndReceive wire size execution_delay execution_timeout) s fun ret_code s' =>
      ret_code = SHA204_SUCCESS ∧ Holds bytes s'.rx_buffer := by
  let count := s.tx_buffer SHA204_BUFFER_POS_COUNT
  let s₁ := (((appendCrc count s).append (.sent [SHA204_SWI_FLAG_CMD])).append
    (.sent s.command)).append (.waited execution_delay)
  have hlog : s₁.log = s.log ++ [.sent [SHA204_SWI_FLAG_CMD], .sent s.command,
      .waited execution_delay] := by
    show s.log ++ _ ++ _ ++ _ = _
    rw [List.append_assoc, List.append_assoc]
    rfl
  have htime : (execution_timeout.toUInt16 * 1000 + SHA204_RESPONSE_TIMEOUT).toNat =
      1000 * execution_timeout.toNat + 476 := by
    have hthousand : (1000 : UInt16).toNat = 1000 := rfl
    have htimeout : SHA204_RESPONSE_TIMEOUT.toNat = 476 := rfl
    rw [UInt16.toNat_add, UInt16.toNat_mul, UInt8.toNat_toUInt16, hthousand, htimeout]
    omega
  refine Returns.get_bind (Returns.bind_of_eq rfl ?_)
  rw [sendRetries, if_neg (by decide)]
  refine Returns.get_bind (Returns.bind_of_eq (a := SHA204_SUCCESS) rfl ?_)
  rw [if_neg (by decide)]
  refine Returns.bind_of_eq (t := s₁) rfl ?_
  have hreceived : Returns (receiveRetries wire size
      (execution_timeout.toUInt16 * 1000 + SHA204_RESPONSE_TIMEOUT) (SHA204_RETRY_COUNT + 1)
      SHA204_SUCCESS) s₁ fun next s' => next = .done SHA204_SUCCESS ∧ Holds bytes s'.rx_buffer := by
    refine Returns.bind (receiveOnce_answered (s := s₁) hgood (hlog ▸ h) (by omega))
      fun next s₂ h₂ => ?_
    obtain ⟨rfl, hholds⟩ := h₂
    exact Returns.pure ⟨rfl, hholds⟩
  refine Returns.bind hreceived fun next s₂ h₂ => ?_
  obtain ⟨rfl, hholds⟩ := h₂
  exact Returns.pure ⟨rfl, hholds⟩

theorem call_done {r : Request} {c : Command} (hr : r.command = some c)
    (hgood : Good c.rx_size bytes) {busy : Nat}
    (h : Answers wire bytes busy (s.log ++ [.sent [SHA204_SWI_FLAG_CMD], .sent c.packet,
      .waited c.timing.delay]))
    (hbusy : 476 * busy < 1000 * (c.timing.exec_max - c.timing.delay).toNat) :
    Returns (call wire r) s fun ret_code s' =>
      ret_code = SHA204_SUCCESS ∧ Holds bytes s'.rx_buffer := by
  have hc := Request.sized hr
  rw [← command_filled hc s] at h
  rw [call, hr]
  exact Returns.bind_of_eq (t := filled c s) rfl
    (sendAndReceive_answered (s := filled c s) hgood h hc.timely hbusy)

/-- **Progress.**  If the chip is not busy for longer than the time of the command and then
sends a good response, every function returns `SHA204_SUCCESS` and the response. -/
theorem call_answered {r : Request} {c : Command} (hr : r.command = some c)
    (hgood : Good c.rx_size bytes) {busy : Nat}
    (h : Answers wire bytes busy (s.log ++ [.sent [SHA204_SWI_FLAG_CMD], .sent c.packet,
      .waited c.timing.delay]))
    (hbusy : 476 * busy < 1000 * (c.timing.exec_max - c.timing.delay).toNat) :
    Returns (call wire r) s fun ret_code s' =>
      ret_code = SHA204_SUCCESS ∧ ∀ i < bytes.length, s'.rx_buffer i = bytes.getD i 0 :=
  call_done hr hgood h hbusy

/-- The revision of a chip that is busy for one poll. -/
theorem call_answered_devRev :
    let bytes := withCrc [SHA204_RSP_SIZE_VAL, 0, 2, 0, 9]
    let wire : Wire := fun log => if log.length ≤ 4 then fun _ => .HIGH else sending bytes
    Returns (call wire .devRev) ⟨fun _ => 0, fun _ => 0, []⟩ fun ret_code s' =>
      ret_code = SHA204_SUCCESS ∧ ∀ i < bytes.length, s'.rx_buffer i = bytes.getD i 0 := by
  intro bytes wire
  have hgood : Good SHA204_RSP_SIZE_VAL bytes :=
    ⟨rfl, by decide, rfl, checkCrc_withCrc (Nat.succ_pos _) rfl, fun h => absurd h (by decide)⟩
  have hanswers : ∀ packet, Answers wire bytes 1
      ([] ++ [.sent [SHA204_SWI_FLAG_CMD], .sent packet, .waited 0]) :=
    fun _ => ⟨fun _ _ => rfl, fun _ => clean_sending bytes⟩
  exact call_answered (r := .devRev) rfl hgood (hanswers _) (by decide)

end Host

end ArduinoProjects.Sha204
