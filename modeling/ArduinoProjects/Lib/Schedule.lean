import ArduinoProjects.Lib.Machine
import Mathlib.Order.Monotone.Basic

/-!
# Machines that run forever

A schedule gives a machine an input for every step.  `after` is the state after
a number of steps, and `emitted` are the things that the steps have emitted so
far.

`eventually_zero` is the induction for what happens at last: a measure that
never grows, and shrinks again and again until it is zero.
-/

namespace Machine

variable {σ ι ο ω : Type*} (m : Machine σ ι ο) (s : σ) (schedule : Nat → ι)

/-- The first inputs of a schedule. -/
def firstInputs (k : Nat) : List ι := (List.range k).map schedule

/-- The state after the first `k` steps. -/
def after (k : Nat) : σ := m.run s (firstInputs schedule k)

/-- What the first `k` steps emit, oldest first. -/
def emitted (emit : ο → List ω) (k : Nat) : List ω :=
  (m.trace s (firstInputs schedule k)).flatMap emit

theorem firstInputs_succ (k : Nat) :
    firstInputs schedule (k + 1) = firstInputs schedule k ++ [schedule k] := by
  rw [firstInputs, List.range_succ, List.map_append]
  rfl

theorem after_succ (k : Nat) :
    m.after s schedule (k + 1) = m.next (m.after s schedule k) (schedule k) := by
  rw [after, firstInputs_succ, run_concat]
  rfl

theorem emitted_succ (emit : ο → List ω) (k : Nat) :
    m.emitted s schedule emit (k + 1) =
      m.emitted s schedule emit k ++ emit (m.out (m.after s schedule k) (schedule k)) := by
  rw [emitted, firstInputs_succ, trace_concat, List.flatMap_append]
  exact congrArg _ (List.flatMap_singleton _ _)

end Machine

/-- A measure that never grows, and shrinks again as long as it is not zero, is
zero at last. -/
theorem eventually_zero {f : Nat → Nat} (hle : ∀ k, f (k + 1) ≤ f k)
    (hprogress : ∀ k, f k ≠ 0 → ∃ j, k ≤ j ∧ f (j + 1) < f j) :
    ∃ N, ∀ k, N ≤ k → f k = 0 := by
  have hanti : Antitone f := antitone_nat_of_succ_le hle
  have hreach : ∀ n k, f k ≤ n → ∃ N, f N = 0 := by
    intro n
    induction n with
    | zero => exact fun k hk => ⟨k, Nat.le_zero.mp hk⟩
    | succ n ih =>
      intro k hk
      by_cases hzero : f k = 0
      · exact ⟨k, hzero⟩
      · obtain ⟨j, hkj, hlt⟩ := hprogress k hzero
        have hj : f j ≤ f k := hanti hkj
        exact ih (j + 1) (by omega)
  obtain ⟨N, hN⟩ := hreach (f 0) 0 le_rfl
  exact ⟨N, fun k hk => Nat.le_zero.mp (hN ▸ hanti hk)⟩
