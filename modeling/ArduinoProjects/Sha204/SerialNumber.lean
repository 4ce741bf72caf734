import ArduinoProjects.Sha204.Progress

/-!
# The serial number

`serialNumber` of `src/libraries/SHA204/SHA204.cpp` reads three words of the configuration
zone and puts the serial number together.

A chip is honest when everything that is read behind a READ command is the word that the
command asks for, or an error, with its count as it was sent and up to three wrong bits
behind it.  An answer that is cut off is read with zeros in place of the rest, and has to be
as close.  What `serialNumber` returns with a success is then the serial number in the chip,
whatever else is on the wire.  If the chip is prompt, the success comes.
-/

namespace ArduinoProjects.Sha204

/-! ## The code -/

/-- buffer index of data in response -/
def SHA204_BUFFER_POS_DATA : Nat := 1

/-- SN[0:3] are bytes 0->3 of configuration zone -/
def ADDRESS_SN03 : UInt16 := 0
/-- SN[4:7] are bytes 8->11 of config zone -/
def ADDRESS_SN47 : UInt16 := 8
/-- SN[8] is byte 12 of config zone, should be 0xEE -/
def ADDRESS_SN8 : UInt16 := 12

namespace Host

/-- The bytes behind the count of a response, into another array. -/
def storeResponse (i n : Nat) (readResponse response : Buffer) : Buffer :=
  store i (memcpy (fun j => readResponse (SHA204_BUFFER_POS_DATA + j)) n) response

/-- The return code, and the array behind `response`. -/
def serialNumber (wire : Wire) (response : Buffer) : StateT Host Option (UInt8 × Buffer) := do
  let returnCode ← call wire (.read SHA204_ZONE_CONFIG ADDRESS_SN03)
  if returnCode ≠ 0 then return (returnCode, response)
  else
    -- store bytes 0-3 into respones array
    let response := storeResponse 0 4 (← get).rx_buffer response
    let returnCode ← call wire (.read SHA204_ZONE_CONFIG ADDRESS_SN47)
    -- store bytes 4-7 of SN into response array
    let response := storeResponse 4 4 (← get).rx_buffer response
    if returnCode ≠ 0 then return (returnCode, response)
    else
      let returnCode ← call wire (.read SHA204_ZONE_CONFIG ADDRESS_SN8)
      return (returnCode, storeResponse 8 1 (← get).rx_buffer response)

end Host

/-! ## The chip -/

/-- The configuration zone. -/
abbrev Config := Nat → UInt8

namespace Config

/-- What the chip sends for a word of four bytes. -/
def response (config : Config) (w : Nat) : List UInt8 :=
  withCrc [SHA204_RSP_SIZE_VAL, config (4 * w), config (4 * w + 1), config (4 * w + 2),
    config (4 * w + 3)]

/-- The answer to a READ of a word: the word, or an error. -/
structure Answer (config : Config) (w : Nat) (r : Buffer) : Prop where
  crc : checkCrc r = SHA204_SUCCESS
  content : (r SHA204_BUFFER_POS_COUNT = SHA204_RSP_SIZE_VAL ∧
      ∀ i < 4, r (SHA204_BUFFER_POS_DATA + i) = config (4 * w + i)) ∨
    (r SHA204_BUFFER_POS_COUNT = SHA204_RSP_SIZE_MIN ∧
      (r SHA204_BUFFER_POS_STATUS = SHA204_STATUS_BYTE_PARSE ∨
        r SHA204_BUFFER_POS_STATUS = SHA204_STATUS_BYTE_EXEC ∨
        r SHA204_BUFFER_POS_STATUS = SHA204_STATUS_BYTE_COMM))

/-- When the chip was only polled since a READ, what is read is the answer to that READ, with
the count as it was sent and up to three wrong bits behind it, or nothing at all. -/
def Honest (config : Config) (wire : Wire) : Prop :=
  ∀ address c log, Command.read SHA204_ZONE_CONFIG address = some c →
    Host.Listening c.packet log → ∀ buffer : Buffer, (∀ i < c.rx_size.toNat, buffer i = 0) →
    let read := receiveBytes (wire (log ++ [.sent [SHA204_SWI_FLAG_TX]])) c.rx_size buffer
    read.1 ≠ SWI_FUNCTION_RETCODE_TIMEOUT →
      ∃ r, Answer config (address >>> 2).toNat r ∧
        read.2 SHA204_BUFFER_POS_COUNT = r SHA204_BUFFER_POS_COUNT ∧
        bitErrors (r SHA204_BUFFER_POS_COUNT).toNat r read.2 < 4

/-- The chip leaves up to eight polls without an answer, and then sends the word. -/
def Prompt (config : Config) (wire : Wire) : Prop :=
  ∀ address c log, Command.read SHA204_ZONE_CONFIG address = some c →
    ∃ busy ≤ 8, Answers wire (config.response (address >>> 2).toNat) busy
      (log ++ [.sent [SHA204_SWI_FLAG_CMD], .sent c.packet, .waited c.timing.delay])

/-- The serial number of a chip. -/
def HasSerial (config : Config) (response : Buffer) : Prop :=
  (∀ i < 4, response i = config i) ∧ (∀ i < 4, response (4 + i) = config (8 + i)) ∧
    response 8 = config 12

variable {config : Config}

theorem good_response (config : Config) (w : Nat) :
    Good SHA204_RSP_SIZE_VAL (config.response w) where
  length := by
    rw [response, length_withCrc]
    rfl
  min := by decide
  count := rfl
  crc := checkCrc_withCrc (Nat.succ_pos _) rfl
  status := fun h => absurd h (by decide)

theorem response_data (config : Config) (w : Nat) {i : Nat} (hi : i < 4) :
    (config.response w).getD (SHA204_BUFFER_POS_DATA + i) 0 = config (4 * w + i) := by
  rw [response, withCrc_getD _ (show 1 + i < 5 by omega)]
  match i, hi with
  | 0, _ | 1, _ | 2, _ | 3, _ => rfl

end Config

/-- A READ of a word of the configuration zone. -/
theorem Command.read_config {address : UInt16} {c : Command}
    (h : Command.read SHA204_ZONE_CONFIG address = some c) :
    c.rx_size = SHA204_RSP_SIZE_VAL ∧ c.timing = READ_TIMING := by
  obtain ⟨_, h⟩ := Option.ite_none_left_eq_some.mp h
  obtain ⟨_, h⟩ := Option.ite_none_left_eq_some.mp h
  cases h
  exact ⟨rfl, rfl⟩

/-! ## A chip -/

/-- The word that a command asks for, as the chip reads it. -/
def Transfer.readWord : Transfer → Option UInt8
  | .sent [_, op_code, _, address, _, _, _] => if op_code = SHA204_READ then some address else none
  | _ => none

/-- A chip that answers every poll with the word of the last READ. -/
def Config.chip (config : Config) : Wire := fun log =>
  match (log.filterMap Transfer.readWord).getLast? with
  | some address => sending (config.response address.toNat)
  | none => fun _ => .HIGH

theorem Transfer.readWord_of_isPoll {t : Transfer} (h : t.isPoll = true) : t.readWord = none := by
  cases t with
  | sent bytes =>
    cases beq_iff_eq.mp h
    rfl
  | received status bytes => rfl
  | waited ms => rfl
  | woken => rfl

/-- The address in the packet is the number of the word. -/
theorem Command.readWord_packet {address : UInt16} {c : Command}
    (h : Command.read SHA204_ZONE_CONFIG address = some c) :
    ∃ w : UInt8, (Transfer.sent c.packet).readWord = some w ∧ w.toNat = (address >>> 2).toNat := by
  obtain ⟨_, h⟩ := Option.ite_none_left_eq_some.mp h
  obtain ⟨haddress, h⟩ := Option.ite_none_left_eq_some.mp h
  cases h
  have hle : (address >>> 2).toNat ≤ 31 :=
    UInt16.le_iff_toNat_le.mp (UInt16.not_lt.mp fun h => haddress (decide_eq_true h))
  have hmask : SHA204_ADDRESS_MASK.toNat = 2 ^ 7 - 1 := rfl
  have hbyte : (0xFF : UInt16).toNat = 2 ^ 8 - 1 := rfl
  refine ⟨(((address >>> 2) &&& SHA204_ADDRESS_MASK) &&& 0xFF).toUInt8, rfl, ?_⟩
  rw [UInt16.toNat_toUInt8, UInt16.toNat_and, UInt16.toNat_and, hmask, hbyte,
    Nat.and_two_pow_sub_one_eq_mod, Nat.and_two_pow_sub_one_eq_mod]
  omega

namespace Config

variable {config : Config}

/-- Whatever the chip was polled for before, it answers the last READ. -/
theorem chip_listening {address : UInt16} {c : Command} {log : List Transfer}
    (hc : Command.read SHA204_ZONE_CONFIG address = some c) (h : Host.Listening c.packet log) :
    Clean (config.chip (log ++ [.sent [SHA204_SWI_FLAG_TX]]))
      (config.response (address >>> 2).toNat) := by
  obtain ⟨w, hword, hw⟩ := Command.readWord_packet hc
  obtain ⟨pre, mid, rfl, hmid⟩ := h
  have hpolls : mid.filterMap Transfer.readWord = [] :=
    List.filterMap_eq_nil_iff.mpr fun t ht => Transfer.readWord_of_isPoll (hmid t ht)
  have hwords : (pre ++ Transfer.sent [SHA204_SWI_FLAG_CMD] :: .sent c.packet :: mid ++
      [Transfer.sent [SHA204_SWI_FLAG_TX]]).filterMap Transfer.readWord =
        pre.filterMap Transfer.readWord ++ [w] := by
    rw [List.filterMap_append, List.filterMap_append, List.filterMap_cons_none rfl,
      List.filterMap_cons_some hword, hpolls]
    exact List.append_nil _
  rw [chip, hwords, List.getLast?_concat, ← hw]
  exact clean_sending _

theorem chip_prompt (config : Config) : config.Prompt config.chip := by
  intro address c log hc
  refine ⟨0, Nat.zero_le 8, chip_listening hc ⟨log, [.waited c.timing.delay], rfl, fun t ht => ?_⟩⟩
  rw [List.mem_singleton.mp ht]
  rfl

theorem chip_honest (config : Config) : config.Honest config.chip := by
  intro address c log hc h buffer hclear read _
  obtain ⟨idle, hidle, stop, hhigh, hsampled⟩ := chip_listening hc h
  have hgood := config.good_response (address >>> 2).toNat
  have hsize := (Command.read_config hc).1
  have hlength : c.rx_size.toNat = (config.response (address >>> 2).toNat).length :=
    (congrArg UInt8.toNat hsize).trans hgood.length.symm
  have hread : Holds (config.response (address >>> 2).toNat) read.2 :=
    (receiveBytes_pause hlength (hlength ▸ hclear) (hsampled.pause hidle hhigh)).2
  refine ⟨fun i => (config.response (address >>> 2).toNat).getD i 0,
    ⟨hgood.crc, Or.inl ⟨rfl, fun i hi => response_data config _ hi⟩⟩, hread.count hgood, ?_⟩
  have hsame : bitErrors 7 (fun i => (config.response (address >>> 2).toNat).getD i 0) read.2 = 0 :=
    bitErrors_self fun i hi => hread i (hgood.length ▸ hi)
  exact Nat.lt_of_le_of_lt (Nat.le_of_eq hsame) (by decide)

end Config

/-! ## Reading the number -/

namespace Host

variable {wire : Wire} {config : Config} {address : UInt16} {c : Command}

/-- A success means that the word has arrived. -/
theorem read_honest (hwire : config.Honest wire)
    (hc : Command.read SHA204_ZONE_CONFIG address = some c) (s : Host) :
    Returns (call wire (.read SHA204_ZONE_CONFIG address)) s fun returnCode s' =>
      returnCode = SHA204_SUCCESS → ∀ i < 4,
        s'.rx_buffer (SHA204_BUFFER_POS_DATA + i) = config (4 * (address >>> 2).toNat + i) := by
  refine (call_spec wire (r := .read SHA204_ZONE_CONFIG address) hc s).mono
    fun returnCode s' h hsuccess => ?_
  obtain ⟨hpolled, hcrc, hstatus⟩ := h.2 hsuccess
  obtain ⟨log, hlistening, hresponse, -⟩ := hpolled
  obtain ⟨buffer, hclear, hread, hcame⟩ := hresponse.read
  obtain ⟨r, hanswer, hcount, herrors⟩ := hwire address c log hc hlistening buffer hclear hcame
  rw [← hread] at hcount herrors
  have hmin : 2 ≤ (r 0).toNat := by
    rcases hanswer.content with ⟨h, -⟩ | ⟨h, -⟩
    · exact h ▸ (by decide)
    · exact h ▸ (by decide)
  have hsame : ∀ i < (r 0).toNat, s'.rx_buffer i = r i := fun i hi =>
    eq_of_bitErrors hcount hmin hanswer.crc hcrc herrors hi
  rcases hanswer.content with ⟨hsize, hdata⟩ | ⟨hsize, herror⟩
  · have hseven : (r 0).toNat = 7 := congrArg UInt8.toNat hsize
    exact fun i hi => (hsame (1 + i) (by omega)).trans (hdata i hi)
  · -- An error is no success.
    have hfour : (r 0).toNat = 4 := congrArg UInt8.toNat hsize
    have hsecond : s'.rx_buffer SHA204_BUFFER_POS_STATUS = r SHA204_BUFFER_POS_STATUS :=
      hsame 1 (by omega)
    obtain ⟨hparse, hexec, hcomm⟩ := hstatus (hcount.trans hsize)
    rcases herror with h | h | h
    · exact absurd (hsecond.trans h) hparse
    · exact absurd (hsecond.trans h) hexec
    · exact absurd (hsecond.trans h) hcomm

/-- The word arrives. -/
theorem read_prompt (hwire : config.Prompt wire)
    (hc : Command.read SHA204_ZONE_CONFIG address = some c) (s : Host) :
    Returns (call wire (.read SHA204_ZONE_CONFIG address)) s fun returnCode s' =>
      returnCode = SHA204_SUCCESS ∧ ∀ i < 4,
        s'.rx_buffer (SHA204_BUFFER_POS_DATA + i) = config (4 * (address >>> 2).toNat + i) := by
  obtain ⟨hsize, htiming⟩ := Command.read_config hc
  obtain ⟨busy, hbusy, hanswers⟩ := hwire address c s.log hc
  have hgood := hsize ▸ config.good_response (address >>> 2).toNat
  have htime : 476 * busy < 1000 * (c.timing.exec_max - c.timing.delay).toNat := by
    rw [htiming]
    exact Nat.lt_of_le_of_lt (Nat.mul_le_mul_left 476 hbusy) (by decide)
  refine (call_done (r := .read SHA204_ZONE_CONFIG address) hc hgood hanswers htime).mono
    fun returnCode s' h => ⟨h.1, fun i hi => ?_⟩
  rw [h.2 _ (by rw [hgood.length, hsize]; exact Nat.add_lt_add_left hi 1 |>.trans_le (by decide)),
    Config.response_data _ _ hi]

theorem storeResponse_of_mem {i n j : Nat} (readResponse response : Buffer) (hle : i ≤ j)
    (hlt : j < i + n) : storeResponse i n readResponse response j =
      readResponse (SHA204_BUFFER_POS_DATA + (j - i)) := by
  rw [storeResponse, store, length_memcpy, if_pos ⟨hle, hlt⟩]
  exact memcpy_getD _ (by omega)

theorem storeResponse_of_not_mem {i n j : Nat} (readResponse response : Buffer)
    (h : j < i ∨ i + n ≤ j) : storeResponse i n readResponse response j = response j := by
  rw [storeResponse, store, length_memcpy, if_neg (by omega)]

/-- Three words of the zone in their places. -/
theorem hasSerial_storeResponse {word₁ word₂ word₃ : Buffer} (response : Buffer)
    (h₁ : ∀ i < 4, word₁ (SHA204_BUFFER_POS_DATA + i) = config (0 + i))
    (h₂ : ∀ i < 4, word₂ (SHA204_BUFFER_POS_DATA + i) = config (8 + i))
    (h₃ : ∀ i < 4, word₃ (SHA204_BUFFER_POS_DATA + i) = config (12 + i)) :
    config.HasSerial
      (storeResponse 8 1 word₃ (storeResponse 4 4 word₂ (storeResponse 0 4 word₁ response))) := by
  refine ⟨fun i hi => ?_, fun i hi => ?_, ?_⟩
  · rw [storeResponse_of_not_mem _ _ (by omega), storeResponse_of_not_mem _ _ (by omega),
      storeResponse_of_mem _ _ (Nat.zero_le i) (by omega), Nat.sub_zero, h₁ i hi, Nat.zero_add]
  · rw [storeResponse_of_not_mem _ _ (by omega),
      storeResponse_of_mem _ _ (Nat.le_add_right 4 i) (by omega), Nat.add_sub_cancel_left, h₂ i hi]
  · rw [storeResponse_of_mem _ _ (Nat.le_refl 8) (by omega)]
    exact h₃ 0 (by omega)

/-- The three words in the array, when the reads get them. -/
theorem serialNumber_spec {Q : UInt8 → Prop}
    (hread : ∀ address c, Command.read SHA204_ZONE_CONFIG address = some c → ∀ s,
      Returns (call wire (.read SHA204_ZONE_CONFIG address)) s fun returnCode s' =>
        Q returnCode ∧ (returnCode = SHA204_SUCCESS → ∀ i < 4,
          s'.rx_buffer (SHA204_BUFFER_POS_DATA + i) = config (4 * (address >>> 2).toNat + i)))
    (response : Buffer) (s : Host) :
    Returns (serialNumber wire response) s fun result _ => Q result.1 ∧
      (result.1 = SHA204_SUCCESS → config.HasSerial result.2) ∧
      ∀ i, 9 ≤ i → result.2 i = response i := by
  refine Returns.bind (hread ADDRESS_SN03 _ rfl s) fun returnCode₁ s₁ h₁ => ?_
  split_ifs with hfirst
  · exact Returns.pure ⟨h₁.1, fun h => absurd h hfirst, fun _ _ => rfl⟩
  refine Returns.get_bind (Returns.bind (hread ADDRESS_SN47 _ rfl s₁) fun returnCode₂ s₂ h₂ => ?_)
  refine Returns.get_bind ?_
  dsimp only
  split_ifs with hsecond
  · refine Returns.pure ⟨h₂.1, fun h => absurd h hsecond, fun i hi => ?_⟩
    exact (storeResponse_of_not_mem _ _ (by omega)).trans (storeResponse_of_not_mem _ _ (by omega))
  refine Returns.bind (hread ADDRESS_SN8 _ rfl s₂) fun returnCode₃ s₃ h₃ => ?_
  refine Returns.get_bind (Returns.pure ⟨h₃.1, fun hthird => ?_, fun i hi => ?_⟩)
  · exact hasSerial_storeResponse response (h₁.2 (not_not.mp hfirst)) (h₂.2 (not_not.mp hsecond))
      (h₃.2 hthird)
  · exact (storeResponse_of_not_mem _ _ (by omega)).trans
      ((storeResponse_of_not_mem _ _ (by omega)).trans (storeResponse_of_not_mem _ _ (by omega)))

/-- **Safety.**  With an honest chip a success gives its serial number, however often there is
no answer and a command is sent again. -/
theorem serialNumber_sound (hwire : config.Honest wire) (response : Buffer) (s : Host) :
    Returns (serialNumber wire response) s fun result _ =>
      (result.1 = SHA204_SUCCESS → config.HasSerial result.2) ∧
      ∀ i, 9 ≤ i → result.2 i = response i :=
  (serialNumber_spec (Q := fun _ => True)
    (fun _ _ hc s => (read_honest hwire hc s).mono fun _ _ h => ⟨trivial, h⟩) response s).mono
    fun _ _ h => h.2

theorem serialNumber_sound_chip :
    let config : Config := fun i => .ofNat i
    Returns (serialNumber config.chip fun _ => 0) ⟨fun _ => 0, fun _ => 0, []⟩ fun result _ =>
      (result.1 = SHA204_SUCCESS → config.HasSerial result.2) ∧
      ∀ i, 9 ≤ i → result.2 i = 0 :=
  serialNumber_sound (Config.chip_honest _) _ _

/-- **Progress.**  A prompt chip is read with success. -/
theorem serialNumber_answered (hwire : config.Prompt wire) (response : Buffer) (s : Host) :
    Returns (serialNumber wire response) s fun result _ =>
      result.1 = SHA204_SUCCESS ∧ config.HasSerial result.2 ∧
      ∀ i, 9 ≤ i → result.2 i = response i :=
  (serialNumber_spec (Q := (· = SHA204_SUCCESS))
    (fun _ _ hc s => (read_prompt hwire hc s).mono fun _ _ h => ⟨h.1, fun _ => h.2⟩)
    response s).mono
    fun _ _ h => ⟨h.1, h.2.1 h.1, h.2.2⟩

theorem serialNumber_answered_chip :
    let config : Config := fun i => .ofNat i
    Returns (serialNumber config.chip fun _ => 0) ⟨fun _ => 0, fun _ => 0, []⟩ fun result _ =>
      result.1 = SHA204_SUCCESS ∧ config.HasSerial result.2 ∧
      ∀ i, 9 ≤ i → result.2 i = 0 :=
  serialNumber_answered (Config.chip_prompt _) _ _

end Host

end ArduinoProjects.Sha204
