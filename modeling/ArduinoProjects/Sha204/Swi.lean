import ArduinoProjects.Dataflash.Basic
import ArduinoProjects.Sha204.Crc
import Mathlib.Data.List.GetD

/-!
# The single wire

`src/libraries/SHA204/SHA204SWI.cpp` talks to the chip over one wire.  Every bit begins
with a short pulse to `LOW`, and a second pulse behind it makes the bit a 0.
`send_bytes` makes the pulses and measures them with delays.  `receive_bytes` reads the
level over and over and counts its readings.

`receiveBytes_sendBytes` says that the bytes of `send_bytes` arrive at `receive_bytes`
if it reads each pulse of 4 microseconds between 4 and 14 times, and the pauses in
proportion.
-/

namespace ArduinoProjects.Sha204

open Dataflash (Level)

/-! ## Sending -/

/-- delay macro for width of one pulse (start pulse or zero pulse) -/
def BIT_DELAY : Nat := 4

/-- turn around time when switching from receive to transmit -/
def RX_TX_DELAY : Nat := 15

/-- A level that `digitalWrite` sets, and the microseconds for which it stays. -/
structure Pulse where
  level : Level
  microseconds : Nat
  deriving DecidableEq, Repr

/-- One bit of `buffer[i]`. -/
def sendBit (bit_mask b : UInt8) : List Pulse :=
  if bit_mask &&& b ≠ 0 then [⟨.LOW, BIT_DELAY⟩, ⟨.HIGH, 7 * BIT_DELAY⟩]
  else -- Send a zero bit.
    [⟨.LOW, BIT_DELAY⟩, ⟨.HIGH, BIT_DELAY⟩, ⟨.LOW, BIT_DELAY⟩, ⟨.HIGH, 5 * BIT_DELAY⟩]

/-- The loop over `bit_mask`, which ends when the bit falls out of its byte. -/
def sendByte (b : UInt8) : List Pulse := shiftRegisters.flatMap fun bit_mask => sendBit bit_mask b

/-- The wire during `send_bytes`. -/
def sendBytes (bytes : List UInt8) : List Pulse :=
  ⟨.HIGH, RX_TX_DELAY⟩ :: bytes.flatMap sendByte

/-! ## Receiving -/

/-- decremented while waiting for the falling edge of a start pulse -/
def START_PULSE_TIME_OUT : Nat := 255

/-- decremented while waiting for the falling edge of a zero pulse -/
def ZERO_PULSE_TIME_OUT : Nat := 26

/-- What `digitalRead` returns, from one reading to the next. -/
abbrev Levels := Nat → Level

/-- Detect start bit: `timeout_count` behind the loop, and the number of the next
reading. -/
def fallingEdge (levels : Levels) : Nat → Nat → Nat × Nat
  | 0, n => (0, n)
  | t + 1, n =>
    if t = 0 then (0, n)
    else if levels n = .LOW then (t, n + 1)
    else fallingEdge levels t (n + 1)

/-- Wait for rising edge. -/
def risingEdge (levels : Levels) : Nat → Nat → Bool × Nat
  | 0, n => (false, n)
  | t + 1, n => if levels n = .HIGH then (true, n + 1) else risingEdge levels t (n + 1)

/-- Detect possible edge indicating zero bit: `timeout_count` at the edge. -/
def zeroEdge (levels : Levels) : Nat → Nat → Option Nat × Nat
  | 0, n => (none, n)
  | t + 1, n => if levels n = .LOW then (some (t + 1), n + 1) else zeroEdge levels t (n + 1)

/-- Wait for rising edge of zero pulse before returning. -/
def zeroEnds (levels : Levels) : Nat → Nat → Nat
  | 0, n => n + 1
  | t + 1, n => if levels n = .HIGH then n + 1 else zeroEnds levels t (n + 1)

/-- One bit, unless the time is out. -/
def receiveBit (levels : Levels) (n : Nat) : Option (Bool × Nat) :=
  let (timeout_count, n) := fallingEdge levels START_PULSE_TIME_OUT n
  if timeout_count = 0 then none
  else
    match risingEdge levels timeout_count n with
    | (false, _) => none
    | (true, n) =>
      match zeroEdge levels ZERO_PULSE_TIME_OUT n with
      | (some timeout_count, n) => some (false, zeroEnds levels timeout_count n)
      | (none, n) => some (true, n)

/-- The loop over `bit_mask`: `buffer[i]`, and the number of the next reading unless the
time is out. -/
def receiveByte (levels : Levels) : List UInt8 → UInt8 → Nat → UInt8 × Option Nat
  | [], b, n => (b, some n)
  | bit_mask :: masks, b, n =>
    match receiveBit levels n with
    | none => (b, none)
    | some (true, n) => receiveByte levels masks (b ||| bit_mask) n
    | some (false, n) => receiveByte levels masks b n

/-- Communication with device succeeded. -/
def SWI_FUNCTION_RETCODE_SUCCESS : UInt8 := 0x00

/-- Communication timed out. -/
def SWI_FUNCTION_RETCODE_TIMEOUT : UInt8 := 0xF1

/-- Communication failed after at least one byte was received. -/
def SWI_FUNCTION_RETCODE_RX_FAIL : UInt8 := 0xF9

/-- The loop over `buffer[i]`, for a number of bytes. -/
def receiveLoop (levels : Levels) : Nat → Nat → Nat → Buffer → UInt8 × Buffer
  | 0, _, _, buffer => (SWI_FUNCTION_RETCODE_SUCCESS, buffer)
  | count + 1, i, n, buffer =>
    match receiveByte levels shiftRegisters (buffer i) n with
    | (b, some n) => receiveLoop levels count (i + 1) n (Function.update buffer i b)
    | (b, none) =>
      -- Indicate that we timed out after having received at least one byte.
      (if i > 0 then SWI_FUNCTION_RETCODE_RX_FAIL else SWI_FUNCTION_RETCODE_TIMEOUT,
        Function.update buffer i b)

def receiveBytes (levels : Levels) (count : UInt8) (buffer : Buffer) : UInt8 × Buffer :=
  receiveLoop levels count.toNat 0 0 buffer

/-! ## Readings of pulses -/

/-- The readings from `n` on see these pulses, each between 1 and 3.5 times a
microsecond.  The one at `stop` is the first behind them. -/
inductive Sampled (levels : Levels) : Nat → List Pulse → Nat → Prop
  | nil (n : Nat) : Sampled levels n [] n
  | cons {n m stop : Nat} {p : Pulse} {ps : List Pulse} (hlevel : ∀ i < m, levels (n + i) = p.level)
    (hslow : p.microseconds ≤ m) (hfast : 2 * m ≤ 7 * p.microseconds)
    (hrest : Sampled levels (n + m) ps stop) : Sampled levels n (p :: ps) stop

/-- `levels` does not change for `m` readings. -/
def Stays (levels : Levels) (n m : Nat) (level : Level) : Prop := ∀ i < m, levels (n + i) = level

variable {levels : Levels} {n m : Nat} {level : Level}

theorem Stays.first (h : Stays levels n (m + 1) level) : levels n = level := h 0 (Nat.succ_pos m)

theorem Stays.drop (h : Stays levels n m level) (k : Nat) : Stays levels (n + k) (m - k) level := by
  intro i hi
  rw [Nat.add_assoc]
  exact h (k + i) (by omega)

theorem Stays.rest (h : Stays levels n (m + 1) level) : Stays levels (n + 1) m level := h.drop 1

/-- The level behind a row of `m + 1`, seen from its second reading. -/
theorem level_rest {level' : Level} (h : levels (n + (m + 1)) = level') :
    levels (n + 1 + m) = level' := by
  rw [Nat.add_assoc, Nat.add_comm 1 m]
  exact h

theorem Stays.ne_low (h : Stays levels n (m + 1) .HIGH) : levels n ≠ .LOW := by
  rw [h.first]
  decide

theorem Stays.ne_high (h : Stays levels n (m + 1) .LOW) : levels n ≠ .HIGH := by
  rw [h.first]
  decide

theorem fallingEdge_eq {t : Nat} (hhigh : Stays levels n m .HIGH) (hlow : levels (n + m) = .LOW)
    (ht : m + 1 < t) : fallingEdge levels t n = (t - 1 - m, n + m + 1) := by
  induction m generalizing n t with
  | zero =>
    obtain ⟨t, rfl⟩ : ∃ u, t = u + 1 := ⟨t - 1, by omega⟩
    exact (if_neg (show t ≠ 0 by omega)).trans (if_pos hlow)
  | succ m ih =>
    obtain ⟨t, rfl⟩ : ∃ u, t = u + 1 := ⟨t - 1, by omega⟩
    rw [fallingEdge, if_neg (by omega), if_neg hhigh.ne_low,
      ih hhigh.rest (level_rest hlow) (by omega)]
    exact Prod.ext (show t - 1 - m = t + 1 - 1 - (m + 1) by omega) (show _ = _ by omega)

theorem risingEdge_eq {t : Nat} (hlow : Stays levels n m .LOW) (hhigh : levels (n + m) = .HIGH)
    (ht : m < t) : risingEdge levels t n = (true, n + m + 1) := by
  induction m generalizing n t with
  | zero =>
    obtain ⟨t, rfl⟩ : ∃ u, t = u + 1 := ⟨t - 1, by omega⟩
    exact if_pos hhigh
  | succ m ih =>
    obtain ⟨t, rfl⟩ : ∃ u, t = u + 1 := ⟨t - 1, by omega⟩
    rw [risingEdge, if_neg hlow.ne_high, ih hlow.rest (level_rest hhigh) (by omega)]
    exact Prod.ext rfl (show _ = _ by omega)

theorem zeroEdge_eq {t : Nat} (hhigh : Stays levels n m .HIGH) (hlow : levels (n + m) = .LOW)
    (ht : m < t) : zeroEdge levels t n = (some (t - m), n + m + 1) := by
  induction m generalizing n t with
  | zero =>
    obtain ⟨t, rfl⟩ : ∃ u, t = u + 1 := ⟨t - 1, by omega⟩
    exact if_pos hlow
  | succ m ih =>
    obtain ⟨t, rfl⟩ : ∃ u, t = u + 1 := ⟨t - 1, by omega⟩
    rw [zeroEdge, if_neg hhigh.ne_low, ih hhigh.rest (level_rest hlow) (by omega),
      Nat.add_sub_add_right]
    exact Prod.ext rfl (show _ = _ by omega)

theorem zeroEdge_none {t : Nat} (hhigh : Stays levels n t .HIGH) :
    zeroEdge levels t n = (none, n + t) := by
  induction t generalizing n with
  | zero => rfl
  | succ t ih =>
    rw [zeroEdge, if_neg hhigh.ne_low, ih hhigh.rest]
    exact Prod.ext rfl (show _ = _ by omega)

theorem zeroEnds_eq {t : Nat} (hlow : Stays levels n m .LOW) (hhigh : levels (n + m) = .HIGH)
    (ht : m ≤ t) : zeroEnds levels t n = n + m + 1 := by
  induction m generalizing n t with
  | zero =>
    cases t with
    | zero => rfl
    | succ t => exact if_pos hhigh
  | succ m ih =>
    obtain ⟨t, rfl⟩ : ∃ u, t = u + 1 := ⟨t - 1, by omega⟩
    rw [zeroEnds, if_neg hlow.ne_high, ih hlow.rest (level_rest hhigh) (by omega)]
    omega

/-! ## One bit -/

/-- Between two bits: the wire stays `HIGH` for some readings, and then the pulses come. -/
def Pause (levels : Levels) (n : Nat) (ps : List Pulse) (stop : Nat) : Prop :=
  ∃ a ≤ 150, Stays levels n a .HIGH ∧ Sampled levels (n + a) ps stop

/-- A start pulse. -/
theorem startPulse_eq {a b : Nat} (ha : a ≤ 150) (hwait : Stays levels n a .HIGH) (hb : b ≤ 50)
    (hstart : Stays levels (n + a) (b + 1) .LOW) (hrise : levels (n + a + (b + 1)) = .HIGH) :
    fallingEdge levels START_PULSE_TIME_OUT n = (254 - a, n + a + 1) ∧
      risingEdge levels (254 - a) (n + a + 1) = (true, n + a + (b + 1) + 1) := by
  refine ⟨fallingEdge_eq hwait hstart.first (show a + 1 < 255 by omega), ?_⟩
  rw [risingEdge_eq hstart.rest (level_rest hrise) (by omega), Nat.add_assoc (n + a) 1 b,
    Nat.add_comm 1 b]

theorem receiveBit_one {a b k : Nat} (ha : a ≤ 150) (hwait : Stays levels n a .HIGH) (hb : b ≤ 50)
    (hstart : Stays levels (n + a) (b + 1) .LOW)
    (hhigh : Stays levels (n + a + (b + 1)) (k + 27) .HIGH) :
    receiveBit levels n = some (true, n + a + (b + 1) + 27) := by
  obtain ⟨hfalls, hrises⟩ := startPulse_eq ha hwait hb hstart hhigh.first
  have hquiet : Stays levels (n + a + (b + 1) + 1) ZERO_PULSE_TIME_OUT .HIGH := by
    intro i hi
    exact hhigh.rest i (Nat.lt_of_lt_of_le hi (Nat.le_add_left 26 k))
  have hwaiting : ¬ 254 - a = 0 := by omega
  simp only [receiveBit, hfalls, if_neg hwaiting, hrises, zeroEdge_none hquiet]
  rfl

theorem receiveBit_zero {a b c d : Nat} (ha : a ≤ 150) (hwait : Stays levels n a .HIGH)
    (hb : b ≤ 50) (hstart : Stays levels (n + a) (b + 1) .LOW)
    (hgap : Stays levels (n + a + (b + 1)) (c + 1) .HIGH)
    (hpulse : Stays levels (n + a + (b + 1) + (c + 1)) (d + 1) .LOW)
    (hend : levels (n + a + (b + 1) + (c + 1) + (d + 1)) = .HIGH) (hcd : c + d ≤ 26)
    (hc : c ≤ 25) :
    receiveBit levels n = some (false, n + a + (b + 1) + (c + 1) + (d + 1) + 1) := by
  obtain ⟨hfalls, hrises⟩ := startPulse_eq ha hwait hb hstart hgap.first
  have hzero : zeroEdge levels ZERO_PULSE_TIME_OUT (n + a + (b + 1) + 1) =
      (some (26 - c), n + a + (b + 1) + (c + 1) + 1) := by
    have hlimit : c < ZERO_PULSE_TIME_OUT := Nat.lt_succ_of_le hc
    rw [zeroEdge_eq hgap.rest (level_rest hpulse.first) hlimit, Nat.add_assoc _ 1 c,
      Nat.add_comm 1 c]
    rfl
  have hrise : zeroEnds levels (26 - c) (n + a + (b + 1) + (c + 1) + 1) =
      n + a + (b + 1) + (c + 1) + (d + 1) + 1 := by
    rw [zeroEnds_eq hpulse.rest (level_rest hend) (by omega), Nat.add_assoc _ 1 d,
      Nat.add_comm 1 d]
  have hwaiting : ¬ 254 - a = 0 := by omega
  simp only [receiveBit, hfalls, if_neg hwaiting, hrises, hzero, hrise]

/-- A bit arrives, and the rest of its last pause is the beginning of the next one. -/
theorem receiveBit_sendBit {bit_mask b : UInt8} {ps : List Pulse} {stop : Nat}
    (h : Pause levels n (sendBit bit_mask b ++ ps) stop) :
    ∃ n', receiveBit levels n = some (decide (bit_mask &&& b ≠ 0), n') ∧
      Pause levels n' ps stop := by
  obtain ⟨a, ha, hwait, hbit⟩ := h
  rw [sendBit] at hbit
  split_ifs at hbit with hone
  · rw [decide_eq_true hone]
    cases hbit with
    | @cons _ m₁ _ _ _ hlow hslow₁ hfast₁ hbit =>
    cases hbit with
    | @cons _ m₂ _ _ _ hhigh hslow₂ hfast₂ hrest =>
    simp only [BIT_DELAY] at hslow₁ hfast₁ hslow₂ hfast₂
    obtain ⟨b, rfl⟩ : ∃ b, m₁ = b + 1 := ⟨m₁ - 1, by omega⟩
    obtain ⟨k, rfl⟩ : ∃ k, m₂ = k + 27 := ⟨m₂ - 27, by omega⟩
    refine ⟨_, receiveBit_one ha hwait (by omega) hlow hhigh, k, by omega, ?_, ?_⟩
    · exact (Stays.drop hhigh 27)
    · rw [Nat.add_assoc, Nat.add_comm 27 k]
      exact hrest
  · rw [decide_eq_false hone]
    cases hbit with
    | @cons _ m₁ _ _ _ hlow hslow₁ hfast₁ hbit =>
    cases hbit with
    | @cons _ m₂ _ _ _ hgap hslow₂ hfast₂ hbit =>
    cases hbit with
    | @cons _ m₃ _ _ _ hpulse hslow₃ hfast₃ hbit =>
    cases hbit with
    | @cons _ m₄ _ _ _ hhigh hslow₄ hfast₄ hrest =>
    simp only [BIT_DELAY] at hslow₁ hfast₁ hslow₂ hfast₂ hslow₃ hfast₃ hslow₄ hfast₄
    obtain ⟨b, rfl⟩ : ∃ b, m₁ = b + 1 := ⟨m₁ - 1, by omega⟩
    obtain ⟨c, rfl⟩ : ∃ c, m₂ = c + 1 := ⟨m₂ - 1, by omega⟩
    obtain ⟨d, rfl⟩ : ∃ d, m₃ = d + 1 := ⟨m₃ - 1, by omega⟩
    obtain ⟨k, rfl⟩ : ∃ k, m₄ = k + 1 := ⟨m₄ - 1, by omega⟩
    refine ⟨_, receiveBit_zero ha hwait (by omega) hlow hgap hpulse (Stays.first hhigh)
      (by omega) (by omega), k, by omega, Stays.rest hhigh, ?_⟩
    rw [Nat.add_assoc _ 1 k, Nat.add_comm 1 k]
    exact hrest

/-! ## Bytes -/

theorem receiveByte_sendBit {masks : List UInt8} {b b₀ : UInt8} {ps : List Pulse} {stop : Nat}
    (h : Pause levels n ((masks.flatMap fun bit_mask => sendBit bit_mask b) ++ ps) stop) :
    ∃ n', receiveByte levels masks b₀ n = (masks.foldl (fun acc bit_mask =>
        if bit_mask &&& b ≠ 0 then acc ||| bit_mask else acc) b₀, some n') ∧
      Pause levels n' ps stop := by
  induction masks generalizing n b₀ with
  | nil => exact ⟨n, rfl, h⟩
  | cons bit_mask masks ih =>
    rw [List.flatMap_cons, List.append_assoc] at h
    obtain ⟨n₁, hbit, h₁⟩ := receiveBit_sendBit h
    rw [receiveByte, hbit, List.foldl_cons]
    by_cases hone : bit_mask &&& b ≠ 0
    · rw [decide_eq_true hone, if_pos hone]
      exact ih h₁
    · rw [decide_eq_false hone, if_neg hone]
      exact ih h₁

/-- The masks put a byte together again. -/
theorem foldl_shiftRegisters (b : UInt8) : shiftRegisters.foldl (fun acc bit_mask =>
    if bit_mask &&& b ≠ 0 then acc ||| bit_mask else acc) 0 = b := by
  have hall : ∀ i : Fin 256, shiftRegisters.foldl (fun acc bit_mask =>
      if bit_mask &&& UInt8.ofNat i ≠ 0 then acc ||| bit_mask else acc) 0 = UInt8.ofNat i := by
    decide +kernel
  have hb := hall ⟨b.toNat, b.toNat_lt⟩
  rw [UInt8.ofNat_toNat] at hb
  exact hb

/-- A byte arrives. -/
theorem receiveByte_sendByte {b : UInt8} {ps : List Pulse} {stop : Nat}
    (h : Pause levels n (sendByte b ++ ps) stop) :
    ∃ n', receiveByte levels shiftRegisters 0 n = (b, some n') ∧ Pause levels n' ps stop := by
  obtain ⟨n', hbyte, hrest⟩ := receiveByte_sendBit h
  rw [foldl_shiftRegisters] at hbyte
  exact ⟨n', hbyte, hrest⟩

/-- The loop fills the buffer from place `i` on. -/
theorem receiveLoop_sendByte {bytes : List UInt8} {i stop : Nat} {buffer : Buffer}
    (hclear : ∀ j, i ≤ j → j < i + bytes.length → buffer j = 0)
    (h : Pause levels n (bytes.flatMap sendByte) stop) :
    ∃ buffer', receiveLoop levels bytes.length i n buffer =
        (SWI_FUNCTION_RETCODE_SUCCESS, buffer') ∧
      (∀ j < bytes.length, buffer' (i + j) = bytes.getD j 0) ∧
      ∀ j < i, buffer' j = buffer j := by
  induction bytes generalizing i n buffer with
  | nil => exact ⟨buffer, rfl, fun j hj => absurd hj (Nat.not_lt_zero j), fun _ _ => rfl⟩
  | cons b bytes ih =>
    rw [List.flatMap_cons] at h
    rw [List.length_cons] at hclear
    obtain ⟨n₁, hbyte, h₁⟩ := receiveByte_sendByte h
    have hclear₁ : ∀ j, i + 1 ≤ j → j < i + 1 + bytes.length →
        Function.update buffer i b j = 0 := by
      intro j hle hlt
      rw [Function.update_of_ne (by omega)]
      exact hclear j (by omega) (by omega)
    obtain ⟨buffer', hloop, hbytes, hbelow⟩ := ih hclear₁ h₁
    refine ⟨buffer', ?_, fun j hj => ?_, fun j hj => ?_⟩
    · rw [List.length_cons, receiveLoop, hclear i (Nat.le_refl i) (by omega), hbyte]
      exact hloop
    · cases j with
      | zero =>
        rw [Nat.add_zero, hbelow i (Nat.lt_succ_self i), Function.update_self]
        rfl
      | succ j =>
        rw [Nat.add_comm j 1, ← Nat.add_assoc, Nat.add_comm 1 j, List.getD_cons_succ]
        exact hbytes j (Nat.lt_of_succ_lt_succ hj)
    · rw [hbelow j (Nat.lt_succ_of_lt hj), Function.update_of_ne (Nat.ne_of_lt hj)]

/-- The wire is idle, and then the bytes come: the turn around is a pause too. -/
theorem Sampled.pause {bytes : List UInt8} {idle stop : Nat} (hidle : idle ≤ 80)
    (hhigh : ∀ i < idle, levels i = .HIGH) (h : Sampled levels idle (sendBytes bytes) stop) :
    Pause levels 0 (bytes.flatMap sendByte) stop := by
  cases h with
  | @cons _ m _ _ _ hturn hslow hfast hrest =>
  simp only [RX_TX_DELAY] at hslow hfast
  refine ⟨idle + m, by omega, fun i hi => ?_, by rw [Nat.zero_add]; exact hrest⟩
  rw [Nat.zero_add]
  by_cases hlt : i < idle
  · exact hhigh i hlt
  · have hlevel := hturn (i - idle) (by omega)
    rw [Nat.add_sub_cancel' (Nat.not_lt.mp hlt)] at hlevel
    exact hlevel

theorem receiveBytes_pause {bytes : List UInt8} {count : UInt8} {stop : Nat} {buffer : Buffer}
    (hcount : count.toNat = bytes.length) (hclear : ∀ i < bytes.length, buffer i = 0)
    (h : Pause levels 0 (bytes.flatMap sendByte) stop) :
    (receiveBytes levels count buffer).1 = SWI_FUNCTION_RETCODE_SUCCESS ∧
      ∀ i < bytes.length, (receiveBytes levels count buffer).2 i = bytes.getD i 0 := by
  have hclear₀ : ∀ j, 0 ≤ j → j < 0 + bytes.length → buffer j = 0 := by
    intro j _ hj
    exact hclear j (by omega)
  obtain ⟨buffer', hloop, hbytes, _⟩ := receiveLoop_sendByte hclear₀ h
  rw [receiveBytes, hcount, hloop]
  refine ⟨rfl, fun i hi => ?_⟩
  have hbyte := hbytes i hi
  rw [Nat.zero_add] at hbyte
  exact hbyte

/-- **The wire.**  The bytes of `send_bytes` arrive at `receive_bytes`, wherever in the
first pause or on the idle wire before it the readings begin: what counts are the
`idle` readings up to the first pulse. -/
theorem receiveBytes_sendBytes {bytes : List UInt8} {count : UInt8} {stop : Nat} {buffer : Buffer}
    (hcount : count.toNat = bytes.length) (hclear : ∀ i < bytes.length, buffer i = 0)
    {idle : Nat} (hidle : idle ≤ 150) (hhigh : ∀ i < idle, levels i = .HIGH)
    (h : Sampled levels idle (sendBytes bytes).tail stop) :
    (receiveBytes levels count buffer).1 = SWI_FUNCTION_RETCODE_SUCCESS ∧
      ∀ i < bytes.length, (receiveBytes levels count buffer).2 i = bytes.getD i 0 := by
  have hwait : Stays levels 0 idle .HIGH := by
    intro i hi
    rw [Nat.zero_add]
    exact hhigh i hi
  apply receiveBytes_pause hcount hclear
  exact ⟨idle, hidle, hwait, by rw [Nat.zero_add]; exact h⟩

/-- The readings of pulses, one for each microsecond. -/
def readings (ps : List Pulse) : List Level :=
  ps.flatMap fun p => List.replicate p.microseconds p.level

theorem sampled_readings (ps : List Pulse) : ∀ {n : Nat},
    (∀ i < (readings ps).length, levels (n + i) = (readings ps).getD i .HIGH) →
    Sampled levels n ps (n + (readings ps).length) := by
  induction ps with
  | nil => exact fun {n} _ => .nil n
  | cons p ps ih =>
    intro n h
    have hlength : (readings (p :: ps)).length = p.microseconds + (readings ps).length := by
      rw [readings, List.flatMap_cons, List.length_append, List.length_replicate]
      rfl
    have happend : readings (p :: ps) = List.replicate p.microseconds p.level ++ readings ps := rfl
    rw [hlength] at h ⊢
    rw [happend] at h
    refine .cons (m := p.microseconds) (fun i hi => ?_) (Nat.le_refl _) (by omega) ?_
    · rw [h i (by omega), List.getD_append _ _ _ _ (by rw [List.length_replicate]; exact hi)]
      exact List.getD_replicate _ hi
    · rw [← Nat.add_assoc]
      refine ih fun i hi => ?_
      rw [Nat.add_assoc, h _ (by omega), List.getD_append_right _ _ _ _ (by simp),
        List.length_replicate, Nat.add_sub_cancel_left]

/-- The readings begin 10 microseconds into the first pause. -/
theorem receiveBytes_sendBytes_flag :
    let levels : Levels := fun n => (readings (sendBytes [0x88])).getD (10 + n) .HIGH
    (receiveBytes levels 1 fun _ => 0).1 = SWI_FUNCTION_RETCODE_SUCCESS ∧
      ∀ i < [0x88].length, (receiveBytes levels 1 fun _ => 0).2 i = [0x88].getD i 0 := by
  intro levels
  have happend : readings (sendBytes [0x88]) =
      List.replicate 15 .HIGH ++ readings (sendBytes [0x88]).tail := rfl
  have hsampled : Sampled levels 5 (sendBytes [0x88]).tail
      (5 + (readings (sendBytes [0x88]).tail).length) := by
    apply sampled_readings
    intro i _
    show (readings (sendBytes [0x88])).getD (10 + (5 + i)) .HIGH = _
    rw [happend, List.getD_append_right _ _ _ _ (by simp; omega), List.length_replicate]
    congr 1
    omega
  have hhigh : ∀ i < 5, levels i = .HIGH := by
    intro i hi
    show (readings (sendBytes [0x88])).getD (10 + i) .HIGH = _
    rw [happend, List.getD_append _ _ _ _ (by simp; omega)]
    exact List.getD_replicate _ (by omega)
  exact receiveBytes_sendBytes rfl (fun _ _ => rfl) (by decide) hhigh hsampled

end ArduinoProjects.Sha204
