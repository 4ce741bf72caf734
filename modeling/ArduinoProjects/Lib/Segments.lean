import Mathlib.Order.Basic
import Mathlib.Data.Nat.Init

/-!
# Positions in a row of segments

Years are rows of days, and so are the months of a year.  Segment `k` of a row has
`len k` places, and a place of the row is a segment and an offset in it.

`Located len n k r` says that place `n` of the row is place `r` of segment `k`.
A place is in one segment only (`Located.unique`), and the place behind it is in the
same segment or at the start of the next one (`Located.succ`).

`scanDown` is the loop that finds the segment.  It takes the lengths off the number of
the place.
-/

namespace Segments

/-- The number of places in front of segment `k`. -/
def start (len : Nat → Nat) : Nat → Nat
  | 0 => 0
  | k + 1 => start len k + len k

structure Located (len : Nat → Nat) (n k r : Nat) : Prop where
  eq : n = start len k + r
  lt : r < len k

variable {len : Nat → Nat}

theorem start_le (len : Nat → Nat) {j k : Nat} (h : j ≤ k) : start len j ≤ start len k := by
  induction h with
  | refl => exact Nat.le_refl _
  | step _ ih => exact Nat.le_trans ih (Nat.le_add_right _ _)

/-- A segment ends before the later ones start. -/
theorem Located.lt_start {n k r j : Nat} (h : Located len n k r) (hj : k < j) :
    n < start len j := by
  have heq := h.eq
  have hlt := h.lt
  have hle : start len k + len k ≤ start len j := start_le len hj
  omega

theorem Located.start_le {n k r : Nat} (h : Located len n k r) : start len k ≤ n := by
  rw [h.eq]
  exact Nat.le_add_right _ _

/-- A place before the start of a segment is in an earlier one. -/
theorem Located.lt_of_lt_start {n k r j : Nat} (h : Located len n k r) (hn : n < start len j) :
    k < j := by
  by_contra hle
  have hstart := Segments.start_le len (Nat.le_of_not_lt hle)
  have hbelow := h.start_le
  omega

theorem Located.unique {n k r k' r' : Nat} (h : Located len n k r) (h' : Located len n k' r') :
    k = k' ∧ r = r' := by
  have hk : k = k' := by
    rcases Nat.lt_trichotomy k k' with hlt | heq | hgt
    · exact absurd (h.lt_start hlt) (Nat.not_lt.mpr h'.start_le)
    · exact heq
    · exact absurd (h'.lt_start hgt) (Nat.not_lt.mpr h.start_le)
  subst hk
  have heq := h.eq
  have heq' := h'.eq
  exact ⟨rfl, by omega⟩

/-- The place behind a place. -/
theorem Located.succ {n k r : Nat} (h : Located len n k r) (hpos : 0 < len (k + 1)) :
    (r + 1 < len k ∧ Located len (n + 1) k (r + 1)) ∨
      (r + 1 = len k ∧ Located len (n + 1) (k + 1) 0) := by
  have heq := h.eq
  have hlt := h.lt
  by_cases hin : r + 1 < len k
  · exact Or.inl ⟨hin, by omega, hin⟩
  · refine Or.inr ⟨by omega, ?_, hpos⟩
    show n + 1 = start len k + len k + 0
    omega

/-! ## The loop -/

/-- Takes the lengths from segment `k` on off the number, for at most `rounds` segments. -/
def scanDown (len : Nat → Nat) : Nat → Nat → Nat → Nat × Nat
  | 0, k, n => (k, n)
  | rounds + 1, k, n => if len k ≤ n then scanDown len rounds (k + 1) (n - len k) else (k, n)

theorem scanDown_located (rounds : Nat) : ∀ {k n : Nat}, start len k + n < start len (k + rounds) →
    Located len (start len k + n) (scanDown len rounds k n).1 (scanDown len rounds k n).2 := by
  induction rounds with
  | zero =>
    intro k n hn
    rw [Nat.add_zero] at hn
    omega
  | succ rounds ih =>
    intro k n hn
    rw [scanDown]
    split_ifs with hle
    · have hplace : start len k + n = start len (k + 1) + (n - len k) := by
        show _ = start len k + len k + _
        omega
      have hrounds : k + (rounds + 1) = k + 1 + rounds := by omega
      rw [hplace] at hn ⊢
      exact ih (hrounds ▸ hn)
    · exact ⟨rfl, Nat.lt_of_not_le hle⟩

end Segments
