import ArduinoProjects.Lib.CInt
import Mathlib.Data.UInt
import Mathlib.Data.List.FinRange
import Mathlib.Logic.Function.Basic

/-!
# The pixel ring

The ring has 24 pixels.  A colour is a packed 32-bit number, and what the
library keeps for a pixel is a cell.  `PixelStore` is how colours go into cells
and come back, so that the functions of the sketch which draw on the ring are
written once.

* `neoPixel` is the arithmetic of the NeoPixel library, with three bytes a
  pixel and the brightness scaled in on the way in and out on the way back.
* `exact` keeps the colour itself.

`setEach_apply`, `setAll_apply` and `shift_apply` say what the loops over the
ring leave in each pixel.
-/

namespace ArduinoProjects.BleRgb

def LED_COUNT : Nat := 24

instance : NeZero LED_COUNT := ⟨by decide⟩

/-! ## Colours -/

/-- `Adafruit_NeoPixel::Color` -/
def Color (r g b : UInt8) : UInt32 :=
  (r.toUInt32 <<< 16) ||| (g.toUInt32 <<< 8) ||| b.toUInt32

/-- The cells that a library keeps for the pixels. -/
structure PixelStore where
  Cell : Type
  /-- A pixel that has not been set. -/
  cleared : Cell
  /-- `setPixelColor` of one pixel. -/
  write : UInt32 → Cell
  /-- `getPixelColor` of one pixel. -/
  read : Cell → UInt32

/-- The three bytes of a pixel. -/
structure Rgb where
  r : UInt8
  g : UInt8
  b : UInt8
  deriving DecidableEq, Repr

/-- `c = (c * brightness) >> 8`, unless the brightness is `0`. -/
def scaleDown (brightness c : UInt8) : UInt8 :=
  if brightness = 0 then c else ((c.toUInt32 * brightness.toUInt32) >>> 8).toUInt8

/-- `(uint32_t)(c << 8) / brightness`, unless the brightness is `0`. -/
def scaleUp (brightness c : UInt8) : UInt32 :=
  if brightness = 0 then c.toUInt32 else (c.toUInt32 <<< 8) / brightness.toUInt32

/-- The NeoPixel library at a stored brightness. -/
abbrev neoPixel (brightness : UInt8) : PixelStore where
  Cell := Rgb
  cleared := ⟨0, 0, 0⟩
  write c :=
    ⟨scaleDown brightness (c >>> 16).toUInt8, scaleDown brightness (c >>> 8).toUInt8,
      scaleDown brightness c.toUInt8⟩
  read p :=
    (scaleUp brightness p.r <<< 16) ||| (scaleUp brightness p.g <<< 8) |||
      scaleUp brightness p.b

/-- `setBrightness(b)` stores `b + 1`. -/
def storedBrightness (b : UInt8) : UInt8 := b + 1

/-- The store of the sketch, after `ring.setBrightness(64)`. -/
abbrev ledStore : PixelStore := neoPixel (storedBrightness 64)

/-- A store that gives back what was put in. -/
abbrev exact : PixelStore where
  Cell := UInt32
  cleared := 0
  write := id
  read := id

/-- The pixel buffer. -/
abbrev Ring (px : PixelStore) := Fin LED_COUNT → px.Cell

variable {px : PixelStore}

/-- An index past the end sets nothing. -/
def setPixelColor (ring : Ring px) (n : UInt16) (c : UInt32) : Ring px :=
  if h : n.toNat < LED_COUNT then Function.update ring ⟨n.toNat, h⟩ (px.write c) else ring

def getPixelColor (ring : Ring px) (n : UInt16) : UInt32 :=
  if h : n.toNat < LED_COUNT then px.read (ring ⟨n.toNat, h⟩) else 0

/-! ## Drawing -/

/-- The index is an `int`, and the library takes its low 16 bits. -/
def setOne (ring : Ring px) (i : Int) (c : UInt32) : Ring px :=
  setPixelColor ring (UInt16.ofInt i) c

/-- The loop `for(int i = 0; i < LED_COUNT; i++) setOne(i, colors[i])`. -/
def setEach (ring : Ring px) (colors : Fin LED_COUNT → UInt32) : Ring px :=
  (List.finRange LED_COUNT).foldl (fun ring i => setOne ring (i.val : Int) (colors i)) ring

def setAll (ring : Ring px) (c : UInt32) : Ring px := setEach ring fun _ => c

/-- The loop `for(int i = 0; i < LED_COUNT; i++) colors[i] = ring.getPixelColor(i)`. -/
def getEach (ring : Ring px) : Fin LED_COUNT → UInt32 := fun i =>
  getPixelColor ring (UInt16.ofNat i.val)

/-- Module with always positive result. -/
def pmod (i n : Int) : Int := CInt.floorMod i n

/-- The pixel whose colour `shift(n)` moves to pixel `i`. -/
def source (n : Int) (i : Fin LED_COUNT) : Fin LED_COUNT :=
  ⟨(pmod (i.val + n) LED_COUNT).toNat, by
    have hpos : (0 : Int) < LED_COUNT := by decide
    have hnonneg : 0 ≤ pmod (i.val + n) LED_COUNT := CInt.floorMod_nonneg hpos _
    have hlt : pmod (i.val + n) LED_COUNT < LED_COUNT := CInt.floorMod_lt hpos _
    omega⟩

def shift (ring : Ring px) (n : Int) : Ring px :=
  let colors := getEach ring
  setEach ring fun i => colors (source n i)

/-! ## What the loops leave -/

theorem toNat_led (i : Fin LED_COUNT) : (UInt16.ofNat i.val).toNat = i.val := by
  have hlt : i.val < 24 := i.isLt
  rw [UInt16.toNat_ofNat']
  omega

theorem toNat_led_lt (i : Fin LED_COUNT) : (UInt16.ofNat i.val).toNat < LED_COUNT := by
  rw [toNat_led]
  exact i.isLt

theorem mk_toNat_led (i : Fin LED_COUNT) :
    (⟨(UInt16.ofNat i.val).toNat, toNat_led_lt i⟩ : Fin LED_COUNT) = i :=
  Fin.ext (toNat_led i)

theorem ofInt_led (i : Fin LED_COUNT) : UInt16.ofInt (i.val : Int) = UInt16.ofNat i.val := by
  have hlt : i.val < 24 := i.isLt
  have hmod : ((i.val : Int) % 2 ^ 16).toNat = i.val := by omega
  rw [UInt16.ofInt, hmod]

theorem ofInt_byte (b : UInt8) : UInt8.ofInt (b.toNat : Int) = b := by
  have hlt : b.toNat < 256 := b.toNat_lt
  have hmod : ((b.toNat : Int) % 2 ^ 8).toNat = b.toNat := by omega
  rw [UInt8.ofInt, hmod, UInt8.ofNat_toNat]

theorem setOne_apply (ring : Ring px) (i j : Fin LED_COUNT) (c : UInt32) :
    setOne ring (i.val : Int) c j = if j = i then px.write c else ring j := by
  rw [setOne, ofInt_led, setPixelColor, dif_pos (toNat_led_lt i), mk_toNat_led,
    Function.update_apply]

@[simp] theorem setEach_apply (ring : Ring px) (colors : Fin LED_COUNT → UInt32)
    (j : Fin LED_COUNT) : setEach ring colors j = px.write (colors j) := by
  have hloop : ∀ (is : List (Fin LED_COUNT)) (ring : Ring px),
      is.foldl (fun ring i => setOne ring (i.val : Int) (colors i)) ring j =
        if j ∈ is then px.write (colors j) else ring j := by
    intro is
    induction is with
    | nil => intro ring; simp
    | cons i is ih =>
      intro ring
      rw [List.foldl_cons, ih, setOne_apply]
      by_cases hj : j = i
      · subst hj
        simp
      · simp [hj]
  rw [setEach, hloop, if_pos (List.mem_finRange j)]

@[simp] theorem setAll_apply (ring : Ring px) (c : UInt32) (j : Fin LED_COUNT) :
    setAll ring c j = px.write c := setEach_apply ring _ j

@[simp] theorem getEach_apply (ring : Ring px) (i : Fin LED_COUNT) :
    getEach ring i = px.read (ring i) := by
  rw [getEach, getPixelColor, dif_pos (toNat_led_lt i), mk_toNat_led]

@[simp] theorem shift_apply (ring : Ring px) (n : Int) (j : Fin LED_COUNT) :
    shift ring n j = px.write (px.read (ring (source n j))) := by
  simp [shift]

/-- In the exact store a picture is its colours. -/
theorem getEach_exact (ring : Ring exact) : getEach ring = ring :=
  funext fun i => getEach_apply ring i

theorem setEach_exact (ring : Ring exact) (colors : Fin LED_COUNT → UInt32) :
    setEach ring colors = colors :=
  funext fun i => setEach_apply ring colors i

/-! ## Indices -/

theorem source_val (n : Int) (i : Fin LED_COUNT) :
    ((source n i).val : Int) = ((i.val : Int) + n) % 24 := by
  have hpos : (0 : Int) < LED_COUNT := by decide
  have hmod : pmod (i.val + n) LED_COUNT = ((i.val : Int) + n) % 24 :=
    CInt.floorMod_eq_emod hpos _
  have hnonneg : 0 ≤ ((i.val : Int) + n) % 24 := Int.emod_nonneg _ (by decide)
  show ((pmod (i.val + n) LED_COUNT).toNat : Int) = _
  rw [hmod, Int.toNat_of_nonneg hnonneg]

theorem source_source (a b : Int) (i : Fin LED_COUNT) :
    source a (source b i) = source (a + b) i := by
  have hab := source_val a (source b i)
  have hb := source_val b i
  have hsum := source_val (a + b) i
  apply Fin.ext
  omega

@[simp] theorem source_zero (i : Fin LED_COUNT) : source 0 i = i := by
  have hzero := source_val 0 i
  have hi : i.val < 24 := i.isLt
  apply Fin.ext
  omega

end ArduinoProjects.BleRgb
