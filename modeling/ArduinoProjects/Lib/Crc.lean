import Mathlib.Algebra.BigOperators.Group.Finset.Basic
import Mathlib.Algebra.Field.ZMod
import Mathlib.Data.Nat.Cast.Basic

/-!
# Cyclic redundancy checks

A check is computed in a register that is shifted once for every bit of a message.  The
shift is linear and loses nothing.  `power k` is the register that holds one bit after
`k` shifts, so that every register is a sum of powers: the register of a message with
its errors is a sum over the places of the errors.

If the shift keeps the parity and the powers do not come around, a sum of powers that is
zero has at least four terms (`card_of_sum_eq_zero`).  So two messages with their checks
are equal or differ in four bits (`Register.distance`).

`Word` is the group of words under exclusive or, and `Generator.register` is the register
of a polynomial with a constant term and an odd number of terms below the highest.
-/

namespace Crc

open Finset

/-! ## Registers -/

structure Register (V : Type) [AddCommGroup V] where
  shift : V →+ V
  unit : V
  parity : V →+ ZMod 2
  add_self : ∀ r : V, r + r = 0
  shift_injective : Function.Injective shift
  parity_shift : ∀ r, parity (shift r) = parity r
  parity_unit : parity unit = 1

namespace Register

variable {V : Type} [AddCommGroup V] (R : Register V)

/-- The register that holds one bit, after `k` shifts. -/
def power (k : Nat) : V := R.shift^[k] R.unit

theorem power_succ (k : Nat) : R.power (k + 1) = R.shift (R.power k) :=
  Function.iterate_succ_apply' R.shift k R.unit

theorem parity_power (k : Nat) : R.parity (R.power k) = 1 := by
  induction k with
  | zero => exact R.parity_unit
  | succ k ih => rw [power_succ, R.parity_shift, ih]

/-- The powers below `n` do not come back to the first one. -/
def Period (n : Nat) : Prop := ∀ d, 0 < d → d < n → R.power d ≠ R.unit

variable {R} {n : Nat}

theorem Period.mono {m : Nat} (h : R.Period m) (hle : n ≤ m) : R.Period n :=
  fun d hpos hlt => h d hpos (Nat.lt_of_lt_of_le hlt hle)

theorem Period.power_ne (h : R.Period n) {a b : Nat} (hab : a < b) (hb : b < n) :
    R.power a ≠ R.power b := by
  intro heq
  have hsplit : R.power b = R.shift^[a] (R.power (b - a)) := by
    rw [power, power, ← Function.iterate_add_apply]
    congr 2
    omega
  rw [hsplit] at heq
  have hunit : R.unit = R.power (b - a) := R.shift_injective.iterate a heq
  exact h (b - a) (by omega) (by omega) hunit.symm

/-- Few powers do not cancel: an odd number has the wrong parity, and two of them are
different. -/
theorem card_of_sum_eq_zero (h : R.Period n) {E : Finset Nat} (hE : ∀ k ∈ E, k < n)
    (hsum : ∑ k ∈ E, R.power k = 0) : E = ∅ ∨ 4 ≤ E.card := by
  have heven : ((E.card : Nat) : ZMod 2) = 0 := by
    have hparity := congrArg R.parity hsum
    rw [map_sum, map_zero, sum_congr rfl fun k _ => R.parity_power k, sum_const,
      nsmul_one] at hparity
    exact hparity
  have hdvd : 2 ∣ E.card := (ZMod.natCast_eq_zero_iff _ _).mp heven
  have htwo : E.card ≠ 2 := by
    intro hcard
    obtain ⟨a, b, hab, rfl⟩ := card_eq_two.mp hcard
    rw [sum_pair hab] at hsum
    have heq : R.power a = R.power b := by
      rw [eq_neg_of_add_eq_zero_left hsum, ← eq_neg_of_add_eq_zero_left (R.add_self (R.power b))]
    have ha := hE a (by simp)
    have hb := hE b (by simp)
    rcases Nat.lt_or_gt_of_ne hab with hlt | hlt
    · exact h.power_ne hlt hb heq
    · exact h.power_ne hlt ha heq.symm
  rcases Nat.eq_zero_or_pos E.card with hzero | hpos
  · exact Or.inl (card_eq_zero.mp hzero)
  · exact Or.inr (by omega)

/-! ## Messages -/

/-- The register takes one more bit.  `w` is its width. -/
def feed (R : Register V) (w : Nat) (r : V) (b : Bool) : V :=
  R.shift r + if b then R.power w else 0

/-- The register after the first `n` bits of a message. -/
def crc (R : Register V) (w : Nat) (message : Nat → Bool) : Nat → V
  | 0 => 0
  | n + 1 => R.feed w (crc R w message n) (message n)

theorem crc_eq_sum (R : Register V) (w : Nat) (message : Nat → Bool) (n : Nat) :
    R.crc w message n =
      ∑ i ∈ range n, if message i then R.power (w + (n - 1 - i)) else 0 := by
  induction n with
  | zero => rfl
  | succ n ih =>
    rw [crc, feed, ih, map_sum, sum_range_succ]
    congr 1
    · refine sum_congr rfl fun i hi => ?_
      have hlt := mem_range.mp hi
      have hplace : w + (n + 1 - 1 - i) = w + (n - 1 - i) + 1 := by omega
      rw [apply_ite R.shift, map_zero, hplace, power_succ]
    · rw [show w + (n + 1 - 1 - n) = w by omega]

/-- Equal bits cancel. -/
theorem ite_add_ite (R : Register V) (r : V) (a b : Bool) :
    ((if a then r else 0) + if b then r else 0) = if a ≠ b then r else 0 := by
  cases a with
  | false => cases b <;> simp
  | true =>
    cases b with
    | false => simp
    | true => simp [R.add_self r]

/-- The sum of two rows of bits is the row of their differences. -/
theorem sum_add_sum (R : Register V) (f : Nat → V) (a b : Nat → Bool) (n : Nat) :
    (∑ i ∈ range n, if a i then f i else 0) + (∑ i ∈ range n, if b i then f i else 0) =
      ∑ i ∈ range n with a i ≠ b i, f i := by
  rw [← sum_add_distrib, sum_filter]
  exact sum_congr rfl fun i _ => R.ite_add_ite (f i) (a i) (b i)

/-- The number of places where two rows of bits differ. -/
def differences (n : Nat) (a b : Nat → Bool) : Nat := ({i ∈ range n | a i ≠ b i} : Finset Nat).card

theorem differences_add (m n : Nat) (a b : Nat → Bool) : differences (m + n) a b =
    differences m a b + differences n (fun i => a (m + i)) fun i => b (m + i) := by
  simp only [differences, card_filter]
  exact sum_range_add _ m n

theorem differences_eq_zero_iff {n : Nat} {a b : Nat → Bool} :
    differences n a b = 0 ↔ ∀ i < n, a i = b i := by
  simp only [differences, card_eq_zero, filter_eq_empty_iff, mem_range, ne_eq, not_not]

/-- Two messages of `n` bits, each with its check of `w` bits, are equal or differ in at
least four bits. -/
theorem distance {w : Nat} (h : R.Period (w + n)) {message message' check check' : Nat → Bool}
    (hcrc : R.crc w message n = ∑ j ∈ range w, if check j then R.power j else 0)
    (hcrc' : R.crc w message' n = ∑ j ∈ range w, if check' j then R.power j else 0) :
    differences n message message' + differences w check check' = 0 ∨
      4 ≤ differences n message message' + differences w check check' := by
  let place : Nat → Nat := fun i => w + (n - 1 - i)
  let low : Finset Nat := {j ∈ range w | check j ≠ check' j}
  let high : Finset Nat := {i ∈ range n | message i ≠ message' i}
  have hlow : ∀ j ∈ low, j < w := fun j hj => mem_range.mp (mem_filter.mp hj).1
  have hhigh : ∀ i ∈ high, i < n := fun i hi => mem_range.mp (mem_filter.mp hi).1
  have hinj : Set.InjOn place high := by
    intro i hi i' hi' heq
    have hi := hhigh i hi
    have hi' := hhigh i' hi'
    change w + (n - 1 - i) = w + (n - 1 - i') at heq
    omega
  have hdisjoint : Disjoint low (high.image place) := by
    rw [disjoint_left]
    intro j hj himage
    obtain ⟨i, _, rfl⟩ := mem_image.mp himage
    exact absurd (hlow _ hj) (Nat.not_lt.mpr (Nat.le_add_right _ _))
  have hsum : ∑ k ∈ low ∪ high.image place, R.power k = 0 := by
    rw [sum_union hdisjoint, sum_image hinj, ← R.sum_add_sum R.power check check' w,
      ← R.sum_add_sum (fun i => R.power (place i)) message message' n, ← R.crc_eq_sum w message n,
      ← R.crc_eq_sum w message' n, hcrc, hcrc']
    exact R.add_self _
  have hbelow : ∀ k ∈ low ∪ high.image place, k < w + n := by
    intro k hk
    rcases mem_union.mp hk with hk | hk
    · exact Nat.lt_of_lt_of_le (hlow k hk) (Nat.le_add_right _ _)
    · obtain ⟨i, hi, rfl⟩ := mem_image.mp hk
      have hlt := hhigh i hi
      show w + (n - 1 - i) < w + n
      omega
  have hcard : (low ∪ high.image place).card = high.card + low.card := by
    rw [card_union_of_disjoint hdisjoint, card_image_of_injOn hinj, Nat.add_comm]
  show high.card + low.card = 0 ∨ 4 ≤ high.card + low.card
  rw [← hcard]
  exact (card_of_sum_eq_zero h hbelow hsum).imp_left fun hempty => card_eq_zero.mpr hempty

end Register

/-! ## Words under exclusive or -/

structure Word (w : Nat) where
  bits : BitVec w
  deriving DecidableEq

namespace Word

variable {w : Nat}

instance : Zero (Word w) := ⟨⟨0⟩⟩

instance : Add (Word w) := ⟨fun a b => ⟨a.bits ^^^ b.bits⟩⟩

instance : Neg (Word w) := ⟨id⟩

theorem ext {a b : Word w} (h : a.bits = b.bits) : a = b := congrArg mk h

theorem add_bits (a b : Word w) : (a + b).bits = a.bits ^^^ b.bits := rfl

instance : AddCommGroup (Word w) where
  add_assoc a b c := ext (BitVec.xor_assoc a.bits b.bits c.bits)
  zero_add a := ext BitVec.zero_xor
  add_zero a := ext BitVec.xor_zero
  add_comm a b := ext (BitVec.xor_comm a.bits b.bits)
  neg_add_cancel a := ext BitVec.xor_self
  nsmul := nsmulRec
  zsmul := zsmulRec

/-- The bit at place `i`. -/
def bit (a : Word w) (i : Nat) : Bool := a.bits.getLsbD i

theorem bit_add (a b : Word w) (i : Nat) : (a + b).bit i = (a.bit i ^^ b.bit i) :=
  BitVec.getLsbD_xor

/-- The word with one bit. -/
def one (i : Nat) : Word w := ⟨BitVec.twoPow w i⟩

theorem bit_one (i j : Nat) : (one i : Word w).bit j = (decide (j < w) && decide (i = j)) := by
  rw [bit, one, BitVec.getLsbD_twoPow]
  by_cases hij : i = j
  · subst hij
    simp
  · simp [hij]

theorem ext_bit {a b : Word w} (h : ∀ i < w, a.bit i = b.bit i) : a = b :=
  ext (BitVec.eq_of_getLsbD_eq h)

/-- A word is the sum of its bits. -/
theorem eq_sum (a : Word w) : a = ∑ i ∈ range w, if a.bit i then one i else 0 := by
  have hpart : ∀ m j, (∑ i ∈ range m, if a.bit i then one i else 0 : Word w).bit j =
      (decide (j < m) && decide (j < w) && a.bit j) := by
    intro m j
    induction m with
    | zero => simp [bit, show (0 : Word w).bits = 0#w from rfl]
    | succ m ih =>
      rw [sum_range_succ, bit_add, ih]
      by_cases hm : a.bit m = true
      · rw [if_pos hm, bit_one]
        by_cases hj : m = j
        · subst hj
          simp [hm]
        · have hlt : j < m + 1 ↔ j < m := by omega
          simp [hj, hlt]
      · have hzero : (0 : Word w).bit j = false := BitVec.getLsbD_zero
        rw [if_neg hm, hzero, Bool.xor_false]
        by_cases hj : m = j
        · subst hj
          simp [hm]
        · have hlt : j < m + 1 ↔ j < m := by omega
          simp [hlt]
  refine ext_bit fun i hi => ?_
  rw [hpart w i]
  simp [hi]

/-- The sum of the bits, modulo 2. -/
def parity : Word w →+ ZMod 2 where
  toFun a := ∑ i ∈ range w, if a.bit i then 1 else 0
  map_zero' := by
    refine sum_eq_zero fun i _ => ?_
    have hzero : (0 : Word w).bit i = false := BitVec.getLsbD_zero
    rw [hzero]
    rfl
  map_add' a b := by
    rw [← sum_add_distrib]
    refine sum_congr rfl fun i _ => ?_
    rw [bit_add]
    cases a.bit i <;> cases b.bit i <;> decide

theorem parity_one {i : Nat} (hi : i < w) : parity (one i : Word w) = 1 := by
  have hbit : ∀ j ∈ range w, (if (one i : Word w).bit j then (1 : ZMod 2) else 0) =
      if i = j then 1 else 0 := by
    intro j hj
    simp [bit_one, mem_range.mp hj]
  show (∑ j ∈ range w, if (one i : Word w).bit j then (1 : ZMod 2) else 0) = 1
  rw [sum_congr rfl hbit, sum_ite_eq, if_pos (mem_range.mpr hi)]

/-- A linear form is given by its values at the words with one bit. -/
theorem hom_ext {A : Type} [AddCommGroup A] {f g : Word w →+ A}
    (h : ∀ i < w, f (one i) = g (one i)) (a : Word w) : f a = g a := by
  rw [eq_sum a, map_sum, map_sum]
  refine sum_congr rfl fun i hi => ?_
  split_ifs
  · exact h i (mem_range.mp hi)
  · rw [map_zero, map_zero]

end Word

/-! ## Polynomials -/

/-- The terms of a polynomial below the highest one, which is the `w`-th. -/
structure Generator (w : Nat) where
  low : Word w
  constant : low.bit 0 = true
  weight : Word.parity low = 1

namespace Generator

open Word

variable {w : Nat} (g : Generator w)

theorem width_pos (g : Generator w) : 0 < w := by
  rcases Nat.eq_zero_or_pos w with hw | hw
  · have hbit : g.low.bit 0 = false := BitVec.getLsbD_of_ge g.low.bits 0 (Nat.le_of_eq hw)
    rw [g.constant] at hbit
    cases hbit
  · exact hw

/-- The bits move up.  What falls out at the top comes back as the low terms. -/
def shift : Word w →+ Word w where
  toFun r := ⟨r.bits <<< 1⟩ + if r.bits.msb then g.low else 0
  map_zero' := by
    refine ext_bit fun i _ => ?_
    simp [show (0 : Word w).bits = 0#w from rfl, bit]
  map_add' a b := by
    refine ext ?_
    rw [add_bits a b, BitVec.msb_xor, BitVec.shiftLeft_xor_distrib]
    show _ ^^^ _ = (_ ^^^ _) ^^^ (_ ^^^ _)
    have hback : (if (a.bits.msb ^^ b.bits.msb) then g.low else 0 : Word w) =
        (if a.bits.msb then g.low else 0) + if b.bits.msb then g.low else 0 := by
      have hself : g.low + g.low = 0 := ext BitVec.xor_self
      cases a.bits.msb <;> cases b.bits.msb <;> simp [hself]
    rw [hback]
    exact congrArg Word.bits (add_add_add_comm (⟨a.bits <<< 1⟩ : Word w) ⟨b.bits <<< 1⟩ _ _)

theorem shift_apply (r : Word w) :
    g.shift r = ⟨r.bits <<< 1⟩ + if r.bits.msb then g.low else 0 := rfl

/-- One bit moves up, and becomes the low terms behind the top. -/
theorem shift_one {i : Nat} (hi : i < w) :
    g.shift (one i) = if i + 1 < w then one (i + 1) else g.low := by
  have hmsb : (one i : Word w).bits.msb = decide (i + 1 = w) := by
    rw [one, BitVec.msb_twoPow]
    by_cases h : i + 1 = w
    · simp [hi, h]
      omega
    · simp [hi, h]
      omega
  have hup : (one i : Word w).bits <<< 1 = (one (i + 1) : Word w).bits := by
    rw [one, BitVec.twoPow_eq, ← BitVec.shiftLeft_add]
    exact (BitVec.twoPow_eq w (i + 1)).symm
  rw [shift_apply, hmsb, hup]
  by_cases h : i + 1 < w
  · have hne : ¬ i + 1 = w := by omega
    rw [if_pos h, decide_eq_false hne]
    exact add_zero _
  · have heq : i + 1 = w := by omega
    have hzero : (one (i + 1) : Word w) = 0 := by
      refine ext_bit fun j hj => ?_
      have hne : ¬ i + 1 = j := by omega
      rw [bit_one, decide_eq_false hne, Bool.and_false]
      exact BitVec.getLsbD_zero.symm
    rw [if_neg h, decide_eq_true heq, hzero, if_pos rfl]
    exact zero_add _

/-- The constant term shows what fell out at the top. -/
theorem shift_injective : Function.Injective g.shift := by
  rw [injective_iff_map_eq_zero]
  intro r hr
  have hbits : (r.bits <<< 1) ^^^ (if r.bits.msb then g.low else 0 : Word w).bits = 0#w :=
    congrArg Word.bits hr
  have hmsb : r.bits.msb = false := by
    by_contra hne
    rw [Bool.not_eq_false] at hne
    have hlow := congrArg (fun x => BitVec.getLsbD x 0) hbits
    have hconstant := g.constant
    rw [bit] at hconstant
    simp [hne, hconstant, BitVec.getLsbD_xor] at hlow
  refine ext_bit fun i hi => ?_
  have hzero : (0 : Word w).bit i = false := BitVec.getLsbD_zero
  rw [hzero]
  by_cases htop : i + 1 < w
  · have hbit := congrArg (fun x => BitVec.getLsbD x (i + 1)) hbits
    rw [bit, BitVec.getLsbD_eq_getElem hi]
    simpa [hmsb, show (0 : Word w).bits = 0#w from rfl, BitVec.getLsbD_shiftLeft, htop] using hbit
  · have hlast : i = w - 1 := by omega
    rw [BitVec.msb_eq_getLsbD_last] at hmsb
    rw [hlast]
    exact hmsb

theorem parity_shift (r : Word w) : parity (g.shift r) = parity r := by
  refine hom_ext (f := parity.comp g.shift) (g := parity) (fun i hi => ?_) r
  show parity (g.shift (one i)) = parity (one i)
  rw [shift_one g hi, parity_one hi]
  split_ifs with h
  · exact parity_one h
  · exact g.weight

def register : Register (Word w) where
  shift := g.shift
  unit := one 0
  parity := parity
  add_self _ := ext BitVec.xor_self
  shift_injective := g.shift_injective
  parity_shift := g.parity_shift
  parity_unit := parity_one g.width_pos

theorem power_eq_one {k : Nat} (hk : k < w) : g.register.power k = one k := by
  induction k with
  | zero => rfl
  | succ k ih =>
    rw [Register.power_succ, ih (by omega)]
    exact (shift_one g (by omega)).trans (if_pos hk)

theorem power_width : g.register.power w = g.low := by
  have hpos := g.width_pos
  obtain ⟨k, rfl⟩ : ∃ k, w = k + 1 := ⟨w - 1, by omega⟩
  rw [Register.power_succ, power_eq_one g (Nat.lt_succ_self k)]
  exact (shift_one g (Nat.lt_succ_self k)).trans (if_neg (Nat.lt_irrefl _))

/-- A check is the sum of the powers at its bits. -/
theorem eq_sum_power (a : Word w) :
    a = ∑ j ∈ range w, if a.bit j then g.register.power j else 0 := by
  refine (eq_sum a).trans (sum_congr rfl fun j hj => ?_)
  rw [power_eq_one g (mem_range.mp hj)]

end Generator

end Crc
