import Mathlib.Data.Nat.Bitwise
import Mathlib.Tactic.Ring

/-!
# Words shifted into a register bit by bit

A serial register has `n` stages in a row.  A clock pulse moves the bit of each
stage to the next one, takes a new bit into the first stage, and drops the bit
of the last one.  `foldl_pulse` says what is in the stages after a word of `w`
bits went in, highest bit first: the low bits are the word, and above them is
what was there before.
-/

namespace SerialRegister

/-- One clock pulse of a register with `n` stages.  The first stage holds the
lowest bit. -/
def pulse (n stages : Nat) (bit : Bool) : Nat := (2 * stages + bit.toNat) % 2 ^ n

/-- The lowest `w` bits of a word, highest bit first. -/
def highFirst (w value : Nat) : List Bool :=
  (List.range w).map fun i => value.testBit (w - 1 - i)

theorem highFirst_succ (w value : Nat) :
    highFirst (w + 1) value = value.testBit w :: highFirst w value := by
  rw [highFirst, List.range_succ_eq_map, List.map_cons, List.map_map, highFirst]
  congr 1
  apply List.map_congr_left
  intro i hi
  have hlt : i < w := List.mem_range.mp hi
  show value.testBit (w + 1 - 1 - (i + 1)) = value.testBit (w - 1 - i)
  congr 1
  omega

/-- The highest of `w + 1` bits and the `w` bits below it. -/
theorem testBit_add_mod (w value : Nat) :
    (value.testBit w).toNat * 2 ^ w + value % 2 ^ w = value % 2 ^ (w + 1) := by
  rw [Nat.toNat_testBit, Nat.mod_pow_succ]
  ring

/-- The stages after a word has been shifted in. -/
theorem foldl_pulse (n value stages : Nat) {w : Nat} (hw : 0 < w) :
    (highFirst w value).foldl (pulse n) stages = (stages * 2 ^ w + value % 2 ^ w) % 2 ^ n := by
  induction w, hw using Nat.le_induction generalizing stages with
  | base =>
    have hbit : (value.testBit 0).toNat = value % 2 := by
      rw [Nat.toNat_testBit, pow_zero, Nat.div_one]
    show (2 * stages + (value.testBit 0).toNat) % 2 ^ n = _
    rw [hbit, pow_one, Nat.mul_comm]
  | succ w hw ih =>
    have hbit := testBit_add_mod w value
    have hstages : (2 * stages + (value.testBit w).toNat) * 2 ^ w + value % 2 ^ w =
        stages * 2 ^ (w + 1) + value % 2 ^ (w + 1) := by
      rw [← hbit]
      ring
    rw [highFirst_succ, List.foldl_cons, ih, pulse, ← hstages, Nat.add_mod, Nat.mod_mul_mod,
      ← Nat.add_mod]

end SerialRegister
