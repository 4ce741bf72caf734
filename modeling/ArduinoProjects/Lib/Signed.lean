import ArduinoProjects.Lib.CInt

/-!
# Signed arithmetic that may overflow

The operators of C on a signed type with `w` bits.  A result that the type does not
hold is undefined, and so is a division by zero.  Both are `none` here, so a program
in these operators returns when nothing overflows, and what it returns is the result
over the integers.
-/

namespace CInt

/-- The integer is a value of the signed type with `w` bits. -/
def Fits (w : Nat) (x : Int) : Prop := -2 ^ (w - 1) ≤ x ∧ x < 2 ^ (w - 1)

instance (w : Nat) (x : Int) : Decidable (Fits w x) := inferInstanceAs (Decidable (_ ∧ _))

/-- The result of an operator. -/
def signed (w : Nat) (x : Int) : Option Int := if Fits w x then some x else none

/-- `a + b` -/
def add (w : Nat) (a b : Int) : Option Int := signed w (a + b)

/-- `a * b` -/
def mul (w : Nat) (a b : Int) : Option Int := signed w (a * b)

/-- `a / b` -/
def div (w : Nat) (a b : Int) : Option Int := if b = 0 then none else signed w (a.tdiv b)

/-- `a % b`, which is undefined when `a / b` is. -/
def mod (w : Nat) (a b : Int) : Option Int := (div w a b).map fun _ => a.tmod b

variable {w : Nat} {a b : Int}

/-! ## Values that fit -/

theorem fits_iff_of_nonneg (h : 0 ≤ a) : Fits w a ↔ a < 2 ^ (w - 1) := by
  have hpos : (0 : Int) < 2 ^ (w - 1) := Int.pow_pos (by decide)
  unfold Fits
  omega

theorem signed_of_fits (h : Fits w a) : signed w a = some a := if_pos h

theorem signed_of_nonneg (h : 0 ≤ a) :
    signed w a = if a < 2 ^ (w - 1) then some a else none := by
  simp only [signed, fits_iff_of_nonneg h]

/-- A quotient is no larger than what is divided. -/
theorem Fits.tdiv (h : Fits w a) (hb : 0 < b) : Fits w (a.tdiv b) := by
  obtain ⟨hlo, hhi⟩ := h
  have habs := Int.natAbs_tdiv_le_natAbs a b
  have hpos : (0 : Int) < 2 ^ (w - 1) := Int.pow_pos (by decide)
  unfold Fits
  rcases le_total 0 a with h0 | h0
  · have hq := Int.tdiv_nonneg h0 hb.le
    omega
  · have hq := Int.tdiv_le_tdiv hb h0
    rw [Int.zero_tdiv] at hq
    omega

/-! ## Division by a positive number -/

theorem div_of_pos (h : Fits w a) (hb : 0 < b) : div w a b = some (a.tdiv b) := by
  rw [div, if_neg hb.ne', signed_of_fits (h.tdiv hb)]

theorem mod_of_pos (h : Fits w a) (hb : 0 < b) : mod w a b = some (a.tmod b) := by
  rw [mod, div_of_pos h hb, Option.map_some]

/-! ## The repaired remainder -/

/-- `(i % n + n) % n` -/
def signedFloorMod (w : Nat) (i n : Int) : Option Int := do
  let remainder ← mod w i n
  let shifted ← add w remainder n
  mod w shifted n

/-- Only the sum can overflow, and only upwards. -/
theorem signedFloorMod_eq {i n : Int} (hn : 0 < n) (hi : Fits w i) :
    signedFloorMod w i n =
      if i.tmod n + n < 2 ^ (w - 1) then some (floorMod i n) else none := by
  have hgt : -n < i.tmod n := Int.lt_tmod_of_pos i hn
  have hnonneg : 0 ≤ i.tmod n + n := by omega
  have hsum : add w (i.tmod n) n = if i.tmod n + n < 2 ^ (w - 1) then some (i.tmod n + n)
      else none := signed_of_nonneg hnonneg
  rw [signedFloorMod, mod_of_pos hi hn, Option.bind_eq_bind, Option.bind_some, hsum]
  split_ifs with hlt
  · exact mod_of_pos ((fits_iff_of_nonneg hnonneg).mpr hlt) hn
  · rfl

/-- The remainder is at most what is divided, and not positive when that is not. -/
theorem tmod_le {i n m : Int} (hn : 0 < n) (hm : 0 ≤ m) (him : i ≤ m) : i.tmod n ≤ m := by
  rcases le_total 0 i with h0 | h0
  · have hsplit := Int.emod_add_mul_ediv i n
    have hquot : 0 ≤ n * (i / n) := mul_nonneg hn.le (Int.ediv_nonneg h0 hn.le)
    rw [Int.tmod_eq_emod_of_nonneg h0]
    omega
  · have hneg := Int.tmod_nonneg n (neg_nonneg.mpr h0)
    rw [Int.neg_tmod] at hneg
    omega

end CInt
