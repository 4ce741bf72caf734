import Mathlib.Data.Finset.Card
import Mathlib.Tactic.Linarith
import Mathlib.Tactic.Ring

/-!
# Positions spread over slots in proportion

`n` positions are shown on `b` slots, and position `p` belongs to slot
`b * p / n`, rounded down.  A slot owns an interval of positions: slot `k` starts
at `first b n k`, the least position with `n * k ≤ b * p`, and ends where the
next one starts.

* `slot_eq_iff` is the interval, and `slot_mono` follows the order.
* `card_positions` counts the positions of a slot, and `width_cases` says that
  the count is `n / b`, rounded down or up.
* `slot_strictMono` is the case with no more positions than slots.
-/

namespace Proportional

/-- The slot of a position. -/
def slot (b n p : Int) : Int := b * p / n

/-- The first position of a slot, which is `n * k / b` rounded up. -/
def first (b n k : Int) : Int := (n * k + b - 1) / b

variable {b n : Int}

theorem first_le_iff (hb : 0 < b) (k p : Int) : first b n k ≤ p ↔ n * k ≤ b * p := by
  have hlt : first b n k < p + 1 ↔ n * k + b - 1 < (p + 1) * b := Int.ediv_lt_iff_lt_mul hb
  have hexpand : (p + 1) * b = b * p + b := by ring
  omega

theorem slot_eq_iff (hb : 0 < b) (hn : 0 < n) (p k : Int) :
    slot b n p = k ↔ first b n k ≤ p ∧ p < first b n (k + 1) := by
  have hle : k ≤ slot b n p ↔ k * n ≤ b * p := Int.le_ediv_iff_mul_le hn
  have hlt : slot b n p < k + 1 ↔ b * p < (k + 1) * n := Int.ediv_lt_iff_lt_mul hn
  have hfirst := first_le_iff (n := n) hb k p
  have hnext := first_le_iff (n := n) hb (k + 1) p
  rw [mul_comm k n] at hle
  rw [mul_comm (k + 1) n] at hlt
  omega

theorem slot_mono (hb : 0 ≤ b) (hn : 0 < n) {p q : Int} (h : p ≤ q) :
    slot b n p ≤ slot b n q :=
  Int.ediv_le_ediv hn (Int.mul_le_mul_of_nonneg_left h hb)

/-- With no more positions than slots each position has a slot of its own. -/
theorem slot_strictMono (hn : 0 < n) (h : n ≤ b) {p q : Int} (hpq : p < q) :
    slot b n p < slot b n q := by
  have hstep : b * p + n ≤ b * q := by
    have hle : b * (p + 1) ≤ b * q := mul_le_mul_of_nonneg_left hpq (by omega)
    linarith
  calc slot b n p < b * p / n + 1 := Int.lt_succ _
    _ = (b * p + n) / n := by rw [Int.add_ediv_of_dvd_right dvd_rfl, Int.ediv_self hn.ne']
    _ ≤ slot b n q := Int.ediv_le_ediv hn hstep

@[simp] theorem slot_zero (b n : Int) : slot b n 0 = 0 := by
  rw [slot, mul_zero, Int.zero_ediv]

/-- The positions in range have the slots in range. -/
theorem slot_mem (hb : 0 < b) (hn : 0 < n) {p : Int} (h0 : 0 ≤ p) (hlt : p < n) :
    0 ≤ slot b n p ∧ slot b n p < b :=
  ⟨Int.ediv_nonneg (mul_nonneg hb.le h0) hn.le,
    (Int.ediv_lt_iff_lt_mul hn).mpr (mul_lt_mul_of_pos_left hlt hb)⟩

@[simp] theorem first_zero (hb : 0 < b) : first b n 0 = 0 := by
  have hle := (first_le_iff (n := n) hb 0 0).mpr (by simp)
  have hge := (first_le_iff (n := n) hb 0 (-1)).not.mpr (by simp; omega)
  omega

theorem first_self (hb : 0 < b) : first b n b = n := by
  have hle := (first_le_iff (n := n) hb b n).mpr (mul_comm n b).le
  have hge := (first_le_iff (n := n) hb b (n - 1)).not.mpr (by nlinarith)
  omega

theorem first_mono (hb : 0 < b) (hn : 0 ≤ n) {j k : Int} (h : j ≤ k) :
    first b n j ≤ first b n k := by
  rw [first_le_iff hb]
  exact (mul_le_mul_of_nonneg_left h hn).trans ((first_le_iff hb k _).mp le_rfl)

/-! ## The share of a slot -/

/-- The positions in range that belong to a slot: those before the next slot, without
those before this one. -/
theorem positions_eq_sdiff (hb : 0 < b) (hn : 0 < n) {k : Int} (h0 : 0 ≤ k) (hlt : k < b) :
    (Finset.range n.toNat).filter (fun p : Nat => slot b n p = k) =
      Finset.range (first b n (k + 1)).toNat \ Finset.range (first b n k).toNat := by
  have hstart : 0 ≤ first b n k := first_zero (n := n) hb ▸ first_mono hb hn.le h0
  have hend : first b n (k + 1) ≤ n := by
    have h := first_mono hb hn.le (show k + 1 ≤ b by omega)
    rwa [first_self hb] at h
  ext p
  rw [Finset.mem_filter, Finset.mem_sdiff, Finset.mem_range, Finset.mem_range, Finset.mem_range,
    slot_eq_iff hb hn]
  omega

theorem card_positions (hb : 0 < b) (hn : 0 < n) {k : Int} (h0 : 0 ≤ k) (hlt : k < b) :
    (((Finset.range n.toNat).filter (fun p : Nat => slot b n p = k)).card : Int) =
      first b n (k + 1) - first b n k := by
  have hstart : 0 ≤ first b n k := first_zero (n := n) hb ▸ first_mono hb hn.le h0
  have hle : first b n k ≤ first b n (k + 1) := first_mono hb hn.le (by omega)
  have hsub : Finset.range (first b n k).toNat ⊆ Finset.range (first b n (k + 1)).toNat :=
    Finset.range_subset_range.mpr (by omega)
  rw [positions_eq_sdiff hb hn h0 hlt, Finset.card_sdiff_of_subset hsub, Finset.card_range,
    Finset.card_range]
  omega

/-- The share of a slot is the quotient, rounded down or up. -/
theorem width_cases (hb : 0 < b) (k : Int) :
    first b n (k + 1) - first b n k = n / b ∨
      first b n (k + 1) - first b n k = (n + b - 1) / b := by
  have hstart := (first_le_iff (n := n) hb k (first b n k)).mp le_rfl
  have hbefore := (first_le_iff (n := n) hb k (first b n k - 1)).not.mp (by omega)
  have hend := (first_le_iff (n := n) hb (k + 1) (first b n (k + 1))).mp le_rfl
  have hlast := (first_le_iff (n := n) hb (k + 1) (first b n (k + 1) - 1)).not.mp (by omega)
  generalize first b n (k + 1) = stop at *
  generalize first b n k = start at *
  have hdown : n / b < stop - start + 1 := (Int.ediv_lt_iff_lt_mul hb).mpr (by linarith)
  have hup : stop - start ≤ (n + b - 1) / b := (Int.le_ediv_iff_mul_le hb).mpr (by linarith)
  have hgap : (n + b - 1) / b < n / b + 2 := by
    have hquot : n < (n / b + 1) * b := Int.lt_ediv_add_one_mul_self n hb
    exact (Int.ediv_lt_iff_lt_mul hb).mpr (by linarith)
  omega

end Proportional
