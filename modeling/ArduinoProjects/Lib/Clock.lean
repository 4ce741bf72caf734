import Mathlib.Data.UInt
import Mathlib.Order.Basic

/-!
# A clock that wraps

A counter of 32 bits counts the ticks of a true time that never wraps.
Subtracting two readings gives the true time between them, modulo `2 ^ 32`.

A timer acts when its interval has passed since it acted last.  `Paced` is what
that means in true time, as far as 32 bits can tell.  `paced_of_interval` says
that a timer which compares the difference of two readings is paced, and
`paced_iff_of_negative` says what is left of that when the interval is negative
before it becomes unsigned.
-/

namespace Clock

/-- The counter at a true time. -/
def read (time : Nat) : UInt32 := .ofNat time

theorem toNat_read_sub {earlier later : Nat} (h : earlier ≤ later) :
    (read later - read earlier).toNat = (later - earlier) % 2 ^ 32 := by
  rw [read, read, UInt32.toNat_sub, UInt32.toNat_ofNat', UInt32.toNat_ofNat']
  omega

/-- Comparing an interval with the difference of two readings. -/
theorem le_read_sub_iff {interval : UInt32} {earlier later : Nat} (h : earlier ≤ later) :
    interval ≤ read later - read earlier ↔ interval.toNat ≤ (later - earlier) % 2 ^ 32 := by
  rw [UInt32.le_iff_toNat_le, toNat_read_sub h]

/-- Whether a timer acts `elapsed` ticks after it acted last: not before its
interval has passed, and from then on until the counter has gone round. -/
structure Paced (interval elapsed : Nat) (acts : Prop) : Prop where
  notBefore : acts → interval ≤ elapsed
  after : interval ≤ elapsed → elapsed < 2 ^ 32 → acts

theorem paced_of_interval {interval earlier later : Nat} (hle : earlier ≤ later)
    (hlt : interval < 2 ^ 32) :
    Paced interval (later - earlier) (UInt32.ofNat interval ≤ read later - read earlier) := by
  have hinterval : (UInt32.ofNat interval).toNat = interval := by
    rw [UInt32.toNat_ofNat']
    omega
  have hle' : (later - earlier) % 2 ^ 32 ≤ later - earlier := Nat.mod_le _ _
  rw [le_read_sub_iff hle, hinterval]
  constructor
  · intro hacts
    omega
  · intro hpassed hround
    omega

/-- A negative interval is one of almost `2 ^ 32` ticks. -/
theorem paced_iff_of_negative {interval earlier later : Nat} (hle : earlier ≤ later)
    (hpos : 0 < interval) (hhalf : 2 * interval ≤ 2 ^ 32) :
    Paced interval (later - earlier) (UInt32.ofInt (-interval) ≤ read later - read earlier) ↔
      (later - earlier < interval ∨ 2 ^ 32 - interval ≤ later - earlier) := by
  have hmod : (-(interval : Int) % 2 ^ 32).toNat = 2 ^ 32 - interval := by omega
  have hinterval : (UInt32.ofInt (-interval)).toNat = 2 ^ 32 - interval := by
    rw [UInt32.ofInt, hmod, UInt32.toNat_ofNat']
    omega
  have hle' : (later - earlier) % 2 ^ 32 ≤ later - earlier := Nat.mod_le _ _
  rw [le_read_sub_iff hle, hinterval]
  constructor
  · rintro ⟨_, hafter⟩
    by_contra hnot
    have hacts := hafter (by omega) (by omega)
    omega
  · intro hwait
    constructor
    · intro hacts
      omega
    · intro hpassed hround
      omega

end Clock
