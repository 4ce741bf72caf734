import ArduinoProjects.BleRgb.Animations
import Mathlib.Logic.Function.Iterate

/-!
# Pictures that fade

The NeoPixel library scales a colour down when it is set and up again when it
is read.  At the brightness that `setup` sets, a byte that is read and set
again comes back one lower, and zero stays zero.  `shift` and the blink read
and set every pixel, so that each of their frames takes one from every byte.

`exact_iff_dark` says which of the pictures that can be drawn survive: the dark
one, and for two shifts against one also those with bytes of at most one.
-/

namespace ArduinoProjects.BleRgb

/-! ## Packed colours -/

theorem Color_red (r g b : UInt8) : (Color r g b >>> 16).toUInt8 = r := by
  apply UInt8.toBitVec_inj.mp
  ext i hi
  have hg : g.toBitVec.getLsbD (16 + i - 8) = false := BitVec.getLsbD_of_ge _ _ (by omega)
  have hb : b.toBitVec.getLsbD (16 + i) = false := BitVec.getLsbD_of_ge _ _ (by omega)
  have hr : 16 + i < 32 ∧ i < 32 := by omega
  simp [Color, hg, hb, hr, BitVec.getLsbD_eq_getElem hi]

theorem Color_green (r g b : UInt8) : (Color r g b >>> 8).toUInt8 = g := by
  apply UInt8.toBitVec_inj.mp
  ext i hi
  have hr : 8 + i < 32 ∧ 8 + i < 16 ∧ i < 32 := by omega
  simp [Color, hr, BitVec.getLsbD_eq_getElem hi]

theorem Color_blue (r g b : UInt8) : (Color r g b).toUInt8 = b := by
  apply UInt8.toBitVec_inj.mp
  ext i hi
  simp [Color]

/-! ## A byte that is read and set again -/

/-- One less, down to zero. -/
def fade (c : UInt8) : UInt8 := if c = 0 then 0 else c - 1

theorem fade_toNat (c : UInt8) : (fade c).toNat = c.toNat - 1 := by
  unfold fade
  split_ifs with h
  · simp [h]
  · have hpos : 1 ≤ c.toNat := by
      by_contra hzero
      exact h (UInt8.toNat_inj.mp (by rw [UInt8.toNat_zero]; omega))
    have hone : (1 : UInt8) ≤ c := UInt8.le_iff_toNat_le.mpr hpos
    rw [UInt8.toNat_sub_of_le _ _ hone]
    rfl

theorem fade_iterate_toNat (k : Nat) (c : UInt8) : (fade^[k] c).toNat = c.toNat - k := by
  induction k generalizing c with
  | zero => rfl
  | succ k ih =>
    rw [Function.iterate_succ_apply, ih, fade_toNat]
    omega

/-- Some fading leaves only zero as it is. -/
theorem fade_iterate_eq_self_iff {k : Nat} (hk : 0 < k) (c : UInt8) :
    fade^[k] c = c ↔ c = 0 := by
  rw [← UInt8.toNat_inj, fade_iterate_toNat, ← UInt8.toNat_inj, UInt8.toNat_zero]
  omega

/-- The bytes that the library keeps at the brightness of the sketch. -/
theorem scaleDown_le (c : UInt8) : (scaleDown 65 c).toNat ≤ 64 := by
  have hc := c.toNat_lt
  have hmul : c.toNat * 65 % 4294967296 = c.toNat * 65 := Nat.mod_eq_of_lt (by omega)
  have hval : (scaleDown 65 c).toNat = c.toNat * 65 / 256 % 256 := by
    simp [scaleDown, hmul, Nat.shiftRight_eq_div_pow]
  have hdiv : c.toNat * 65 / 256 < 65 := Nat.div_lt_of_lt_mul (by omega)
  rw [hval, Nat.mod_eq_of_lt (by omega)]
  exact Nat.le_of_lt_succ hdiv

theorem scale_eq_fade {c : UInt8} (h : c.toNat ≤ 64) :
    scaleUp 65 c = (scaleUp 65 c).toUInt8.toUInt32 ∧
      scaleDown 65 (scaleUp 65 c).toUInt8 = fade c := by
  have hall : ∀ n : Fin 65,
      scaleUp 65 (UInt8.ofNat n.val) = (scaleUp 65 (UInt8.ofNat n.val)).toUInt8.toUInt32 ∧
        scaleDown 65 (scaleUp 65 (UInt8.ofNat n.val)).toUInt8 = fade (UInt8.ofNat n.val) := by
    decide
  have hc := hall ⟨c.toNat, by omega⟩
  rwa [UInt8.ofNat_toNat] at hc

/-! ## A pixel that is read and set again -/

/-- The bytes of a pixel that was set at the brightness of the sketch. -/
def Scaled (p : Rgb) : Prop := p.r.toNat ≤ 64 ∧ p.g.toNat ≤ 64 ∧ p.b.toNat ≤ 64

def fadePixel (p : Rgb) : Rgb := ⟨fade p.r, fade p.g, fade p.b⟩

theorem scaled_write (c : UInt32) : Scaled (ledStore.write c) :=
  ⟨scaleDown_le _, scaleDown_le _, scaleDown_le _⟩

theorem write_read {p : Rgb} (h : Scaled p) : ledStore.write (ledStore.read p) = fadePixel p := by
  obtain ⟨hr, hr'⟩ := scale_eq_fade h.1
  obtain ⟨hg, hg'⟩ := scale_eq_fade h.2.1
  obtain ⟨hb, hb'⟩ := scale_eq_fade h.2.2
  have hread : ledStore.read p =
      Color (scaleUp 65 p.r).toUInt8 (scaleUp 65 p.g).toUInt8 (scaleUp 65 p.b).toUInt8 := by
    show (scaleUp 65 p.r <<< 16) ||| (scaleUp 65 p.g <<< 8) ||| scaleUp 65 p.b = _
    rw [Color, ← hr, ← hg, ← hb]
  have hwrite (r g b : UInt8) : ledStore.write (Color r g b) =
      (⟨scaleDown 65 r, scaleDown 65 g, scaleDown 65 b⟩ : Rgb) := by
    show (⟨scaleDown 65 (Color r g b >>> 16).toUInt8, scaleDown 65 (Color r g b >>> 8).toUInt8,
      scaleDown 65 (Color r g b).toUInt8⟩ : Rgb) = _
    rw [Color_red, Color_green, Color_blue]
  rw [hread, hwrite, hr', hg', hb', fadePixel]

theorem fadePixel_iterate (k : Nat) (p : Rgb) :
    fadePixel^[k] p = ⟨fade^[k] p.r, fade^[k] p.g, fade^[k] p.b⟩ := by
  induction k generalizing p with
  | zero => rfl
  | succ k ih => simp only [Function.iterate_succ_apply, ih, fadePixel]

/-- Some fading leaves only a dark pixel as it is. -/
theorem fadePixel_iterate_eq_self_iff {k : Nat} (hk : 0 < k) (p : Rgb) :
    fadePixel^[k] p = p ↔ p = ⟨0, 0, 0⟩ := by
  obtain ⟨r, g, b⟩ := p
  simp only [fadePixel_iterate, Rgb.mk.injEq, fade_iterate_eq_self_iff hk]

theorem fadePixel_eq_self_iff (p : Rgb) : fadePixel p = p ↔ p = ⟨0, 0, 0⟩ :=
  fadePixel_iterate_eq_self_iff Nat.one_pos p

/-- Fading twice is fading once for bytes of at most one. -/
theorem fadePixel_fadePixel_iff (p : Rgb) :
    fadePixel (fadePixel p) = fadePixel p ↔
      p.r.toNat ≤ 1 ∧ p.g.toNat ≤ 1 ∧ p.b.toNat ≤ 1 := by
  have hbyte (c : UInt8) : fade (fade c) = fade c ↔ c.toNat ≤ 1 := by
    rw [← UInt8.toNat_inj, fade_toNat, fade_toNat]
    omega
  simp only [fadePixel, Rgb.mk.injEq, hbyte]

/-! ## Pictures -/

/-- The pictures that `setup`, `setOne`, `setAll` and `shift` can draw. -/
inductive Drawn : Ring ledStore → Prop where
  | setup : Drawn (setupRing ledStore)
  | setOne {ring} (h : Drawn ring) (i : Int) (c : UInt32) : Drawn (setOne ring i c)
  | setAll {ring} (h : Drawn ring) (c : UInt32) : Drawn (setAll ring c)
  | shift {ring} (h : Drawn ring) (n : Int) : Drawn (shift ring n)

theorem scaled_setPixelColor {ring : Ring ledStore} (h : ∀ i, Scaled (ring i)) (n : UInt16)
    (c : UInt32) (i : Fin LED_COUNT) : Scaled (setPixelColor ring n c i) := by
  unfold setPixelColor
  split_ifs with hn
  · rw [Function.update_apply]
    split_ifs
    · exact scaled_write c
    · exact h i
  · exact h i

theorem Drawn.scaled {ring : Ring ledStore} (h : Drawn ring) (i : Fin LED_COUNT) :
    Scaled (ring i) := by
  induction h generalizing i with
  | setup =>
    have hcleared : ∀ i : Fin LED_COUNT, Scaled ((fun _ => ledStore.cleared) i) :=
      fun _ => ⟨Nat.zero_le 64, Nat.zero_le 64, Nat.zero_le 64⟩
    exact scaled_setPixelColor (scaled_setPixelColor (scaled_setPixelColor hcleared _ _) _ _) _ _ i
  | setOne h j c ih => exact scaled_setPixelColor ih _ c i
  | setAll h c ih =>
    rw [setAll_apply]
    exact scaled_write c
  | shift h n ih =>
    rw [shift_apply]
    exact scaled_write _

theorem Drawn.shift_apply {ring : Ring ledStore} (h : Drawn ring) (n : Int)
    (i : Fin LED_COUNT) : BleRgb.shift ring n i = fadePixel (ring (source n i)) := by
  rw [BleRgb.shift_apply, write_read (h.scaled _)]

/-- Every pixel is off. -/
def Dark (ring : Ring ledStore) : Prop := ∀ i, ring i = (⟨0, 0, 0⟩ : Rgb)

/-- No byte is more than one. -/
def Dim (ring : Ring ledStore) : Prop :=
  ∀ i, (ring i : Rgb).r.toNat ≤ 1 ∧ (ring i : Rgb).g.toNat ≤ 1 ∧ (ring i : Rgb).b.toNat ≤ 1

/-! ## What a picture survives -/

/-- `shift` moves the bytes without a change. -/
def ShiftExact (ring : Ring ledStore) (n : Int) : Prop :=
  ∀ i j : Fin LED_COUNT, (j.val : Int) = ((i.val : Int) + n) % 24 → shift ring n i = ring j

/-- A dark blink frame and the lit one after it put back the bytes that were
there. -/
def BlinkExact (ring : Ring ledStore) : Prop :=
  ∀ (cc : Compiler) (s : Sketch ledStore) (ms ms' : UInt32), s.ring = ring →
    s.blinky.count % 2 ≠ 0 → (flash cc s ms).frame = true →
    (flash cc (flash cc s ms).sketch ms').frame = true →
    (flash cc (flash cc s ms).sketch ms').sketch.ring = ring

section Survives

variable {ring : Ring ledStore} (h : Drawn ring)
include h

theorem shiftExact_iff (n : Int) : ShiftExact ring n ↔ Dark ring := by
  have hsource : ∀ j, ∃ i, source n i = j := fun j =>
    ⟨source (-n) j, by rw [source_source, Int.add_right_neg, source_zero]⟩
  constructor
  · intro hexact j
    obtain ⟨i, rfl⟩ := hsource j
    have hi := hexact i (source n i) (source_val n i)
    rw [h.shift_apply] at hi
    exact (fadePixel_eq_self_iff _).mp hi
  · intro hdark i j hj
    have hij : source n i = j := Fin.ext (by have := source_val n i; omega)
    rw [h.shift_apply, hij]
    exact (fadePixel_eq_self_iff _).mpr (hdark j)

theorem shift_shift_iff (a b : Int) :
    shift (shift ring a) b = shift ring (a + b) ↔ Dim ring := by
  have hleft (i : Fin LED_COUNT) :
      shift (shift ring a) b i = fadePixel (fadePixel (ring (source (a + b) i))) := by
    rw [(h.shift a).shift_apply, h.shift_apply, source_source]
  constructor
  · intro heq j
    have hj := congrFun heq (source (-(a + b)) j)
    rw [hleft, h.shift_apply, source_source, Int.add_right_neg, source_zero] at hj
    exact (fadePixel_fadePixel_iff _).mp hj
  · intro hdim
    funext i
    rw [hleft, h.shift_apply]
    exact (fadePixel_fadePixel_iff _).mpr (hdim _)

theorem shift_neg_iff (n : Int) : shift (shift ring n) (-n) = ring ↔ Dark ring := by
  have hback (i : Fin LED_COUNT) : shift (shift ring n) (-n) i = fadePixel^[2] (ring i) := by
    rw [(h.shift n).shift_apply, h.shift_apply, source_source, Int.add_right_neg, source_zero]
    rfl
  rw [funext_iff]
  exact forall_congr' fun i => by
    rw [hback, fadePixel_iterate_eq_self_iff (by decide)]

theorem iterate_shift (k : Nat) :
    Drawn ((fun ring => shift ring 1)^[k] ring) ∧
      ∀ i, (fun ring => shift ring 1)^[k] ring i = fadePixel^[k] (ring (source k i)) := by
  induction k with
  | zero => exact ⟨h, fun i => by simp⟩
  | succ k ih =>
    rw [Function.iterate_succ_apply']
    refine ⟨ih.1.shift 1, fun i => ?_⟩
    rw [ih.1.shift_apply, ih.2, source_source, Function.iterate_succ_apply']
    rfl

theorem shift_24_iff : (fun ring => shift ring 1)^[24] ring = ring ↔ Dark ring := by
  have hsource (i : Fin LED_COUNT) : source (24 : Nat) i = i := by
    have hval := source_val (24 : Nat) i
    have hi : i.val < 24 := i.isLt
    apply Fin.ext
    omega
  rw [funext_iff]
  refine forall_congr' fun i => ?_
  rw [(iterate_shift h 24).2, hsource, fadePixel_iterate_eq_self_iff (by decide)]

theorem blinked_iff : blinked ring = ring ↔ Dark ring := by
  have happly (i : Fin LED_COUNT) : blinked ring i = fadePixel (ring i) := by
    rw [blinked, setEach_apply, getEach_apply, write_read (h.scaled i)]
  rw [funext_iff]
  refine forall_congr' fun i => ?_
  rw [happly, fadePixel_eq_self_iff]

theorem blinkExact_iff : BlinkExact ring ↔ Dark ring := by
  rw [← blinked_iff h]
  constructor
  · intro hexact
    -- The blink of `setup` draws both frames.
    let s : Sketch ledStore := { (setup ledStore).1 with ring := ring }
    let cc : Compiler := ⟨.indexFirst, id⟩
    have hodd : (setup ledStore).1.blinky.count % 2 ≠ 0 := by decide
    have hcount : (setup ledStore).1.blinky.count ≠ 0 := by decide
    obtain ⟨ms, hfirst⟩ : ∃ ms, (flash cc s ms).frame = true :=
      ⟨_, flash_frame_of_interval cc hcount⟩
    have hnext : (flash cc s ms).sketch.blinky.count ≠ 0 := by
      rw [flash_of_odd hfirst hodd]
      show (setup ledStore).1.blinky.count - 1 ≠ 0
      decide
    obtain ⟨ms', hsecond⟩ : ∃ ms', (flash cc (flash cc s ms).sketch ms').frame = true :=
      ⟨_, flash_frame_of_interval cc hnext⟩
    rw [← flash_flash_ring hfirst hodd hsecond]
    exact hexact cc s ms ms' rfl hodd hfirst hsecond
  · intro hblinked cc s ms ms' hring hodd hfirst hsecond
    rw [flash_flash_ring hfirst hodd hsecond, hring, hblinked]

end Survives

/-- Which of the pictures that can be drawn the animations move or hide without
altering them. -/
theorem exact_iff_dark {ring : Ring ledStore} (h : Drawn ring) (n a b : Int) :
    (ShiftExact ring n ↔ Dark ring) ∧
      (shift (shift ring a) b = shift ring (a + b) ↔ Dim ring) ∧
      (shift (shift ring n) (-n) = ring ↔ Dark ring) ∧
      ((fun ring => shift ring 1)^[24] ring = ring ↔ Dark ring) ∧
      (BlinkExact ring ↔ Dark ring) :=
  ⟨shiftExact_iff h n, shift_shift_iff h a b, shift_neg_iff h n, shift_24_iff h,
    blinkExact_iff h⟩

theorem exact_iff_dark_setup :
    (ShiftExact (setupRing ledStore) 1 ↔ Dark (setupRing ledStore)) ∧
      (shift (shift (setupRing ledStore) 1) 1 = shift (setupRing ledStore) (1 + 1) ↔
        Dim (setupRing ledStore)) ∧
      (shift (shift (setupRing ledStore) 1) (-1) = setupRing ledStore ↔
        Dark (setupRing ledStore)) ∧
      ((fun ring => shift ring 1)^[24] (setupRing ledStore) = setupRing ledStore ↔
        Dark (setupRing ledStore)) ∧
      (BlinkExact (setupRing ledStore) ↔ Dark (setupRing ledStore)) :=
  exact_iff_dark Drawn.setup 1 1 1

/-- The red pixel that `setup` draws is darker after one shift. -/
theorem red_fades : ¬ ShiftExact (setupRing ledStore) 1 := by
  intro hexact
  have hred := hexact 23 0 (by decide)
  rw [Drawn.setup.shift_apply] at hred
  revert hred
  decide

end ArduinoProjects.BleRgb
