import ArduinoProjects.RingCoder.Position
import Mathlib.Data.Nat.Bitwise

/-!
# The LEDs share the dial

`calculateShift` shows a position on the 16 LEDs of the ring.  The two branches
are coded apart: the follower sets one bit and the filler sets the bits below it
in a loop.  Both take the bit from `16 * _encoderPosition / _range`.

The positions in range are not negative, so the truncated quotient is the slot
of `Proportional`, and the shares of the LEDs are the shares of the slots.
-/

namespace ArduinoProjects.RingCoder

/-- The object with its dial at some position. -/
def atPosition (rc : RingCoder) (position : Int) : RingCoder :=
  { rc with encoderPosition := position }

/-- The positions in range that light an LED. -/
def positionsOf (rc : RingCoder) (led : Int) : Finset Nat :=
  (Finset.range rc.range.toNat).filter fun position : Nat =>
    (rc.atPosition position).ledIndex = led

/-- The two patterns of a position. -/
structure PatternsMeet (rc : RingCoder) : Prop where
  follower : rc.calculateShift false = 2 ^ rc.ledIndex.toNat
  filler : rc.calculateShift true = 2 ^ rc.ledIndex.toNat - 1
  follower_lt : rc.calculateShift false < 2 ^ 16
  filler_lt : rc.calculateShift true < 2 ^ 16
  disjoint : rc.calculateShift true &&& rc.calculateShift false = 0
  firstDark : (rc.calculateShift true).testBit rc.ledIndex.toNat = false ∧
    ∀ led < rc.ledIndex.toNat, (rc.calculateShift true).testBit led = true

/-! ## The patterns of one position -/

theorem calculateShift_false (rc : RingCoder) :
    rc.calculateShift false = 2 ^ rc.ledIndex.toNat := by
  show 0 ||| 1 <<< rc.ledIndex.toNat = 2 ^ rc.ledIndex.toNat
  rw [Nat.zero_or, Nat.one_shiftLeft]

theorem calculateShift_true (rc : RingCoder) :
    rc.calculateShift true = 2 ^ rc.ledIndex.toNat - 1 :=
  calculateShiftAt_true rc.ledIndex

theorem patternsMeet {rc : RingCoder} (h : InRange rc) : PatternsMeet rc := by
  have hled := ledIndex_of_inRange h
  have hlt : 2 ^ rc.ledIndex.toNat < 2 ^ 16 := Nat.pow_lt_pow_right (by decide) (by omega)
  refine ⟨calculateShift_false rc, calculateShift_true rc, ?_, ?_, ?_, ?_, ?_⟩
  · rw [calculateShift_false]
    exact hlt
  · rw [calculateShift_true]
    omega
  · rw [calculateShift_true, calculateShift_false]
    apply Nat.eq_of_testBit_eq
    intro i
    rw [Nat.testBit_and, Nat.testBit_two_pow_sub_one, Nat.testBit_two_pow, Nat.zero_testBit]
    simp only [Bool.and_eq_false_iff, decide_eq_false_iff_not]
    omega
  · rw [calculateShift_true, Nat.testBit_two_pow_sub_one]
    exact decide_eq_false (lt_irrefl _)
  · intro led hled
    rw [calculateShift_true, Nat.testBit_two_pow_sub_one]
    exact decide_eq_true hled

/-! ## The LEDs of all positions -/

/-- For a position that is not negative the LED is a slot. -/
theorem ledIndex_atPosition (rc : RingCoder) {position : Int} (h0 : 0 ≤ position) :
    (rc.atPosition position).ledIndex = Proportional.slot ledCount rc.range position :=
  Int.tdiv_eq_ediv_of_nonneg (mul_nonneg (by decide) h0)

theorem positionsOf_eq (rc : RingCoder) (led : Int) :
    rc.positionsOf led = (Finset.range rc.range.toNat).filter fun position : Nat =>
      Proportional.slot ledCount rc.range position = led := by
  apply Finset.filter_congr
  intro position _
  rw [ledIndex_atPosition rc (Int.natCast_nonneg position)]

/-- With at least one position for each LED every LED has its share of the
positions, rounded down or up. -/
theorem card_positionsOf {rc : RingCoder} (hrange : 16 ≤ rc.range) {led : Int} (h0 : 0 ≤ led)
    (hlt : led < 16) :
    0 < (rc.positionsOf led).card ∧
      (((rc.positionsOf led).card : Int) = rc.range / 16 ∨
        ((rc.positionsOf led).card : Int) = (rc.range + 15) / 16) := by
  have hpos : 0 < rc.range := by omega
  have hcard := Proportional.card_positions (b := ledCount) (by decide) hpos h0 hlt
  rw [← positionsOf_eq] at hcard
  have hcases := Proportional.width_cases (b := ledCount) (n := rc.range) (by decide) led
  simp only [ledCount] at hcard hcases
  rw [← hcard] at hcases
  have hceil : rc.range + 16 - 1 = rc.range + 15 := by omega
  rw [hceil] at hcases
  refine ⟨?_, hcases⟩
  omega

/-- With no more positions than LEDs distinct positions light distinct LEDs. -/
theorem ledIndex_injective {rc : RingCoder} (hrange : 0 < rc.range) (hle : rc.range ≤ 16)
    {p q : Int} (hp : 0 ≤ p) (hq : 0 ≤ q)
    (h : (rc.atPosition p).ledIndex = (rc.atPosition q).ledIndex) : p = q := by
  rw [ledIndex_atPosition rc hp, ledIndex_atPosition rc hq] at h
  rcases lt_trichotomy p q with hlt | heq | hlt
  · exact absurd h (Proportional.slot_strictMono hrange hle hlt).ne
  · exact heq
  · exact absurd h (Proportional.slot_strictMono hrange hle hlt).ne'

/-- The LEDs share the positions of the dial in order and fairly. -/
structure SharesDial (rc : RingCoder) : Prop where
  led : ∀ p, 0 ≤ p → p < rc.range → (rc.atPosition p).ledIndex = 16 * p / rc.range
  patterns : ∀ p, 0 ≤ p → p < rc.range → PatternsMeet (rc.atPosition p)
  zero : (rc.atPosition 0).ledIndex = 0
  mono : ∀ p q, 0 ≤ p → p ≤ q → q < rc.range →
    (rc.atPosition p).ledIndex ≤ (rc.atPosition q).ledIndex
  share : 16 ≤ rc.range → ∀ led, 0 ≤ led → led < 16 →
    0 < (rc.positionsOf led).card ∧
      (((rc.positionsOf led).card : Int) = rc.range / 16 ∨
        ((rc.positionsOf led).card : Int) = (rc.range + 15) / 16)
  distinct : rc.range ≤ 16 → ∀ p q, 0 ≤ p → p < rc.range → 0 ≤ q → q < rc.range → p ≠ q →
    (rc.atPosition p).ledIndex ≠ (rc.atPosition q).ledIndex

theorem sharesDial (rc : RingCoder) (hrange : 0 < rc.range) : SharesDial rc where
  led _ h0 _ := ledIndex_atPosition rc h0
  patterns _ h0 hlt := patternsMeet ⟨h0, hlt⟩
  zero := (ledIndex_atPosition rc le_rfl).trans (Proportional.slot_zero _ _)
  mono p q h0 hle _ := by
    rw [ledIndex_atPosition rc h0, ledIndex_atPosition rc (h0.trans hle)]
    exact Proportional.slot_mono (by decide) hrange hle
  share h _ h0 hlt := card_positionsOf h h0 hlt
  distinct hle _ _ hp _ hq _ hne heq := hne (ledIndex_injective hrange hle hp hq heq)

/-- The dial of 60 positions, which 16 LEDs do not divide. -/
theorem sharesDial_sixty : SharesDial ((construct ⟨0, 0⟩ false).1.setEncoderRange 60) :=
  sharesDial _ (by decide)

end ArduinoProjects.RingCoder
