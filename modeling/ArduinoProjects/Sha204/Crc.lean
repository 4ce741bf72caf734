import Mathlib.Data.List.GetD
import ArduinoProjects.Lib.Crc

/-!
# The check of a packet

Commands for the ATSHA204 and its responses begin with a count byte and end with the two
bytes of a check, which `calculate_crc` of `src/libraries/SHA204/SHA204.cpp` computes bit
by bit.  `check_crc` compares the check of a response with the one it should have.

The polynomial is `x^16 + x^15 + x^2 + 1`.  Its powers do not come around within a packet,
so up to three wrong bits behind the count byte never go unnoticed (`checkCrc_detects`).
-/

namespace ArduinoProjects.Sha204

/-- A buffer in memory. -/
abbrev Buffer := Nat → UInt8

def SHA204_SUCCESS : UInt8 := 0x00

/-- incorrect CRC received -/
def SHA204_BAD_CRC : UInt8 := 0xE5

/-- number of CRC bytes -/
def SHA204_CRC_SIZE : UInt8 := 2

/-- buffer index of count byte in command or response -/
def SHA204_BUFFER_POS_COUNT : Nat := 0

def polynom : UInt16 := 0x8005

/-- The loop over `shift_register`, which ends when the bit falls out of its byte. -/
def shiftRegisters : List UInt8 := [0x01, 0x02, 0x04, 0x08, 0x10, 0x20, 0x40, 0x80]

def crcStep (data : UInt8) (crc_register : UInt16) (shift_register : UInt8) : UInt16 :=
  let data_bit : UInt8 := if data &&& shift_register ≠ 0 then 1 else 0
  let crc_bit := (crc_register >>> 15).toUInt8
  let crc_register := crc_register <<< 1
  if data_bit ^^^ crc_bit ≠ 0 then crc_register ^^^ polynom else crc_register

/-- `crc_register` after `length` bytes. -/
def crcRegister (data : Buffer) : Nat → UInt16
  | 0 => 0
  | length + 1 => shiftRegisters.foldl (crcStep (data length)) (crcRegister data length)

/-- The two bytes at `crc`. -/
def calculateCrc (length : UInt8) (data : Buffer) : UInt8 × UInt8 :=
  let crc_register := crcRegister data length.toNat
  ((crc_register &&& 0x00FF).toUInt8, (crc_register >>> 8).toUInt8)

def checkCrc (response : Buffer) : UInt8 :=
  let count := response SHA204_BUFFER_POS_COUNT - SHA204_CRC_SIZE
  let crc := calculateCrc count response
  if crc.1 = response count.toNat ∧ crc.2 = response (count.toNat + 1) then SHA204_SUCCESS
  else SHA204_BAD_CRC

/-! ## The polynomial -/

open Crc (Word Generator Register)
open Crc.Register (differences)

def generator : Generator 16 where
  low := ⟨polynom.toBitVec⟩
  constant := by decide
  weight := by decide

/-- The bits of a buffer, in the order in which they go over the wire. -/
def bits (data : Buffer) (i : Nat) : Bool := (data (i / 8)).toBitVec.getLsbD (i % 8)

/-- `crc_register` as a word. -/
def word (crc_register : UInt16) : Word 16 := ⟨crc_register.toBitVec⟩

theorem word_xor (a b : UInt16) : word (a ^^^ b) = word a + word b := rfl

theorem word_ite (b : Bool) :
    word (if b then polynom else 0) = if b then generator.low else 0 := by
  cases b <;> rfl

theorem step_eq (data_bit crc_bit : Bool) (up : UInt16) :
    (if (if data_bit then (1 : UInt8) else 0) ^^^ (if crc_bit then 1 else 0) ≠ 0
      then up ^^^ polynom else up) =
      up ^^^ (if crc_bit then polynom else 0) ^^^ (if data_bit then polynom else 0) := by
  cases data_bit with
  | false => cases crc_bit <;> simp
  | true =>
    cases crc_bit with
    | false => simp
    | true =>
      -- the polynom comes and goes
      have htwice : up ^^^ polynom ^^^ polynom = up := by
        rw [UInt16.xor_assoc, UInt16.xor_self, UInt16.xor_zero]
      simp [htwice]

/-- The highest bit of the register. -/
theorem crc_bit_eq (crc_register : UInt16) : (crc_register >>> 15).toUInt8 =
    if crc_register.toBitVec.msb then 1 else 0 := by
  have hlt := crc_register.toNat_lt
  have htop : (crc_register >>> 15).toUInt8.toNat = crc_register.toNat / 2 ^ 15 := by
    rw [UInt16.toNat_toUInt8, UInt16.toNat_shiftRight]
    show (crc_register.toNat >>> 15) % 2 ^ 8 = _
    rw [Nat.shiftRight_eq_div_pow]
    omega
  have hmsb : crc_register.toBitVec.msb = decide (2 ^ 15 ≤ crc_register.toNat) :=
    BitVec.msb_eq_decide _
  refine UInt8.toNat_inj.mp ?_
  rw [htop, hmsb]
  by_cases hhigh : 2 ^ 15 ≤ crc_register.toNat
  · rw [if_pos (decide_eq_true hhigh)]
    show _ = 1
    omega
  · rw [if_neg fun h => hhigh (of_decide_eq_true h)]
    show _ = 0
    omega

/-- One bit of a byte. -/
theorem data_bit_eq (data : UInt8) {j : Nat} (hj : j < 8) :
    (data &&& shiftRegisters.getD j 0 ≠ 0) ↔ data.toBitVec.getLsbD j = true := by
  have hpower : ∀ i < 8, (shiftRegisters.getD i 0).toBitVec = BitVec.twoPow 8 i ∧
      BitVec.twoPow 8 i ≠ 0#8 := by decide
  obtain ⟨hshift, hne⟩ := hpower j hj
  rw [ne_eq, ← UInt8.toBitVec_inj, UInt8.toBitVec_and, hshift, BitVec.and_twoPow]
  cases data.toBitVec.getLsbD j with
  | false => simp
  | true => simpa using hne

/-- One step is one bit for the polynomial. -/
theorem word_crcStep (data : UInt8) (crc_register : UInt16) {j : Nat} (hj : j < 8) :
    word (crcStep data crc_register (shiftRegisters.getD j 0)) =
      generator.register.feed 16 (word crc_register) (data.toBitVec.getLsbD j) := by
  have hbit : (if data &&& shiftRegisters.getD j 0 ≠ 0 then (1 : UInt8) else 0) =
      if data.toBitVec.getLsbD j then 1 else 0 := by
    simp only [data_bit_eq data hj]
  rw [crcStep, hbit, crc_bit_eq, step_eq, word_xor, word_xor, word_ite, word_ite, Register.feed,
    generator.power_width]
  rfl

/-- The register after `8 * length` bits. -/
theorem word_crcRegister (data : Buffer) (length : Nat) :
    word (crcRegister data length) = generator.register.crc 16 (bits data) (8 * length) := by
  induction length with
  | zero => rfl
  | succ length ih =>
    have hbit : ∀ j, j < 8 → bits data (8 * length + j) = (data length).toBitVec.getLsbD j := by
      intro j hj
      rw [bits, show (8 * length + j) / 8 = length by omega,
        show (8 * length + j) % 8 = j by omega]
    have hfold : ∀ n ≤ 8, word ((shiftRegisters.take n).foldl (crcStep (data length))
        (crcRegister data length)) = generator.register.crc 16 (bits data) (8 * length + n) := by
      intro n hn
      induction n with
      | zero => exact ih
      | succ n ihn =>
        have hlt : n < shiftRegisters.length := hn
        have hget : shiftRegisters.getD n 0 = shiftRegisters[n] := by
          rw [List.getD_eq_getElem?_getD, List.getElem?_eq_getElem hlt, Option.getD_some]
        rw [List.take_add_one, List.getElem?_eq_getElem hlt, Option.toList_some, List.foldl_append,
          List.foldl_cons, List.foldl_nil, ← hget, word_crcStep _ _ hn, ihn (by omega),
          ← hbit n hn]
        rfl
    exact hfold 8 (Nat.le_refl 8)

/-! ## The period -/

/-- A step with a bit that is 0. -/
def advance (crc_register : UInt16) : UInt16 := crcStep 0 crc_register 0x01

/-- The register `1` is among the next `n` ones. -/
def returns : Nat → UInt16 → Bool
  | 0, _ => false
  | n + 1, crc_register => advance crc_register == 1 || returns n (advance crc_register)

theorem iterate_ne_of_returns {n : Nat} : ∀ {r : UInt16}, returns n r = false →
    ∀ d, 0 < d → d ≤ n → advance^[d] r ≠ 1 := by
  induction n with
  | zero =>
    intro r _ d hpos hle
    omega
  | succ n ih =>
    intro r h d hpos hle
    obtain ⟨hfirst, hrest⟩ := Bool.or_eq_false_iff.mp h
    obtain ⟨d, rfl⟩ : ∃ e, d = e + 1 := ⟨d - 1, by omega⟩
    rw [Function.iterate_succ_apply]
    rcases Nat.eq_zero_or_pos d with rfl | hd
    · exact beq_eq_false_iff_ne.mp hfirst
    · exact ih hrest d hd (by omega)

theorem power_eq (k : Nat) : generator.register.power k = word (advance^[k] 1) := by
  induction k with
  | zero => rfl
  | succ k ih =>
    have hstep := word_crcStep 0 (advance^[k] 1) (show 0 < 8 by decide)
    rw [Function.iterate_succ_apply', Register.power_succ, ih]
    exact ((hstep.trans (add_zero _))).symm

/-- A packet has at most 255 bytes. -/
theorem period : generator.register.Period (8 * 255) := by
  have hnever : returns (8 * 255) 1 = false := by decide +kernel
  intro d hpos hlt heq
  rw [power_eq] at heq
  have hone : advance^[d] 1 = 1 := UInt16.toBitVec_inj.mp (congrArg Word.bits heq)
  exact iterate_ne_of_returns hnever d hpos (Nat.le_of_lt hlt) hone

/-! ## Errors -/

/-- The number of bits in which the first `count` bytes differ. -/
def bitErrors (count : Nat) (r r' : Buffer) : Nat := differences (8 * count) (bits r) (bits r')

theorem bitErrors_self {count : Nat} {r r' : Buffer} (h : ∀ i < count, r' i = r i) :
    bitErrors count r r' = 0 := by
  refine Register.differences_eq_zero_iff.mpr fun i hi => ?_
  rw [bits, bits, h _ (by omega)]

theorem bit_low (crc_register : UInt16) {j : Nat} (hj : j < 8) :
    (crc_register &&& 0x00FF).toUInt8.toBitVec.getLsbD j = crc_register.toBitVec.getLsbD j := by
  have hmask : ∀ i < 8, (0x00FF : UInt16).toBitVec.getLsbD i = true := by decide
  rw [UInt16.toBitVec_toUInt8, BitVec.getLsbD_setWidth, UInt16.toBitVec_and, BitVec.getLsbD_and,
    hmask j hj, decide_eq_true hj, Bool.and_true, Bool.true_and]

theorem bit_high (crc_register : UInt16) {j : Nat} (hj : j < 8) :
    (crc_register >>> 8).toUInt8.toBitVec.getLsbD j = crc_register.toBitVec.getLsbD (8 + j) := by
  rw [UInt16.toBitVec_toUInt8, BitVec.getLsbD_setWidth, UInt16.toBitVec_shiftRight,
    decide_eq_true hj, Bool.true_and]
  exact BitVec.getLsbD_ushiftRight _ 8 j

/-- The check is behind the data. -/
theorem checkCrc_iff {r : Buffer} {n : Nat} (hn : (r 0).toNat = n + 2) :
    checkCrc r = SHA204_SUCCESS ↔ (crcRegister r n &&& 0x00FF).toUInt8 = r n ∧
      (crcRegister r n >>> 8).toUInt8 = r (n + 1) := by
  have hcount : (r SHA204_BUFFER_POS_COUNT - SHA204_CRC_SIZE).toNat = n := by
    have hle : SHA204_CRC_SIZE ≤ r 0 := by
      rw [UInt8.le_iff_toNat_le, hn]
      exact Nat.le_add_left 2 n
    rw [SHA204_BUFFER_POS_COUNT, UInt8.toNat_sub_of_le _ _ hle, hn]
    exact Nat.add_sub_cancel n 2
  rw [checkCrc, calculateCrc, hcount]
  split_ifs with hcrc
  · exact ⟨fun _ => hcrc, fun _ => rfl⟩
  · exact ⟨fun hbad => absurd hbad (by decide), fun h => absurd h hcrc⟩

/-- The bytes behind the data of a valid packet are the register. -/
theorem bit_check {r : Buffer} (h : checkCrc r = SHA204_SUCCESS) {n : Nat}
    (hn : (r 0).toNat = n + 2) {j : Nat} (hj : j < 16) :
    (word (crcRegister r n)).bit j = bits r (8 * n + j) := by
  have hcrc := (checkCrc_iff hn).mp h
  rw [bits, word, Word.bit]
  by_cases hlow : j < 8
  · rw [show (8 * n + j) / 8 = n by omega, show (8 * n + j) % 8 = j by omega, ← hcrc.1,
      bit_low _ hlow]
  · rw [show (8 * n + j) / 8 = n + 1 by omega, show (8 * n + j) % 8 = j - 8 by omega, ← hcrc.2,
      bit_high _ (by omega), show 8 + (j - 8) = j by omega]

/-- A valid packet is a message of the polynomial with its check. -/
theorem crc_eq_check {r : Buffer} (h : checkCrc r = SHA204_SUCCESS) {n : Nat}
    (hn : (r 0).toNat = n + 2) : generator.register.crc 16 (bits r) (8 * n) =
      ∑ j ∈ Finset.range 16, if bits r (8 * n + j) then generator.register.power j else 0 := by
  rw [← word_crcRegister, generator.eq_sum_power (word (crcRegister r n))]
  refine Finset.sum_congr rfl fun j hj => ?_
  rw [bit_check h hn (Finset.mem_range.mp hj)]

/-- Two valid packets of one length are equal or differ in at least four bits. -/
theorem eq_of_bitErrors {r r' : Buffer} (hcount : r' 0 = r 0) (hsize : 2 ≤ (r 0).toNat)
    (h : checkCrc r = SHA204_SUCCESS) (h' : checkCrc r' = SHA204_SUCCESS)
    (hfew : bitErrors (r 0).toNat r r' < 4) {i : Nat} (hi : i < (r 0).toNat) : r' i = r i := by
  obtain ⟨n, hn⟩ : ∃ n, (r 0).toNat = n + 2 := ⟨(r 0).toNat - 2, by omega⟩
  have hlt := (r 0).toNat_lt
  have hdistance := Register.distance (period.mono (show 16 + 8 * n ≤ 8 * 255 by omega))
    (crc_eq_check h hn) (crc_eq_check h' (hcount ▸ hn))
  have htotal : bitErrors (r 0).toNat r r' = differences (8 * n) (bits r) (bits r') +
      differences 16 (fun j => bits r (8 * n + j)) fun j => bits r' (8 * n + j) := by
    rw [bitErrors, hn, Nat.mul_add, Register.differences_add]
  have hzero : bitErrors (r 0).toNat r r' = 0 := by omega
  refine UInt8.toBitVec_inj.mp (BitVec.eq_of_getLsbD_eq fun j hj => ?_)
  have hbit := Register.differences_eq_zero_iff.mp hzero (8 * i + j)
    (show 8 * i + j < 8 * (r 0).toNat by omega)
  rw [bits, bits, show (8 * i + j) / 8 = i by omega, show (8 * i + j) % 8 = j by omega] at hbit
  exact hbit.symm

theorem crcRegister_congr {r r' : Buffer} {n : Nat} (h : ∀ i < n, r' i = r i) :
    crcRegister r' n = crcRegister r n := by
  induction n with
  | zero => rfl
  | succ n ih => rw [crcRegister, crcRegister, ih fun i hi => h i (by omega), h n (by omega)]

/-- Only the bytes of the packet count. -/
theorem checkCrc_of_eq {r r' : Buffer} (h : checkCrc r = SHA204_SUCCESS) (hsize : 2 ≤ (r 0).toNat)
    (hsame : ∀ i < (r 0).toNat, r' i = r i) : checkCrc r' = SHA204_SUCCESS := by
  obtain ⟨n, hn⟩ : ∃ n, (r 0).toNat = n + 2 := ⟨(r 0).toNat - 2, by omega⟩
  have hcount : r' 0 = r 0 := hsame 0 (by omega)
  rw [checkCrc_iff (hcount ▸ hn), crcRegister_congr fun i hi => hsame i (by omega),
    hsame n (by omega), hsame (n + 1) (by omega)]
  exact (checkCrc_iff hn).mp h

/-- Bytes and their check. -/
def withCrc (bytes : List UInt8) : List UInt8 :=
  let crc := calculateCrc (.ofNat bytes.length) fun i => bytes.getD i 0
  bytes ++ [crc.1, crc.2]

theorem length_withCrc (bytes : List UInt8) : (withCrc bytes).length = bytes.length + 2 :=
  List.length_append

theorem withCrc_getD (bytes : List UInt8) {i : Nat} (hi : i < bytes.length) :
    (withCrc bytes).getD i 0 = bytes.getD i 0 :=
  List.getD_append _ _ _ _ hi

/-- Bytes that begin with their count become a valid packet. -/
theorem checkCrc_withCrc {bytes : List UInt8} (hne : 0 < bytes.length)
    (hcount : (bytes.getD 0 0).toNat = bytes.length + 2) :
    checkCrc (fun i => (withCrc bytes).getD i 0) = SHA204_SUCCESS := by
  have hlt := (bytes.getD 0 0).toNat_lt
  have hlength : (UInt8.ofNat bytes.length).toNat = bytes.length := by
    rw [UInt8.toNat_ofNat']
    omega
  have hcount' : ((withCrc bytes).getD 0 0).toNat = bytes.length + 2 := by
    rw [withCrc_getD bytes hne, hcount]
  rw [checkCrc_iff (n := bytes.length) hcount', crcRegister_congr fun i hi => withCrc_getD bytes hi]
  constructor
  · rw [withCrc, List.getD_append_right _ _ _ _ (Nat.le_refl _), Nat.sub_self, calculateCrc,
      hlength]
    rfl
  · rw [withCrc, List.getD_append_right _ _ _ _ (Nat.le_add_right _ 1), Nat.add_sub_cancel_left,
      calculateCrc, hlength]
    rfl

/-- **Error detection.**  A packet with up to three wrong bits behind its count byte does
not pass. -/
theorem checkCrc_detects {r r' : Buffer} (h : checkCrc r = SHA204_SUCCESS)
    (hsize : 2 ≤ (r 0).toNat) (hcount : r' 0 = r 0) (hfew : bitErrors (r 0).toNat r r' < 4) :
    checkCrc r' = SHA204_SUCCESS ↔ ∀ i < (r 0).toNat, r' i = r i :=
  ⟨fun h' _ hi => eq_of_bitErrors hcount hsize h h' hfew hi, checkCrc_of_eq h hsize⟩

set_option maxRecDepth 4096 in
/-- The response to the wake-up, and how it may look after two errors. -/
theorem checkCrc_detects_two :
    let r : Buffer := fun i => [4, 0x11, 0x33, 0x43].getD i 0
    let r' : Buffer := fun i => [4, 0x13, 0x33, 0x42].getD i 0
    checkCrc r' = SHA204_SUCCESS ↔ ∀ i < (r 0).toNat, r' i = r i := by
  intro r r'
  have h : checkCrc r = SHA204_SUCCESS := by decide
  have hfew : bitErrors (r 0).toNat r r' < 4 := by decide +kernel
  exact checkCrc_detects h (by decide) rfl hfew

end ArduinoProjects.Sha204
