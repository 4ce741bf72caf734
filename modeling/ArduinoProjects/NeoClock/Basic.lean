import ArduinoProjects.BleRgb.Ring
import ArduinoProjects.TimeLib.Clock

/-!
# The ring clock

`src/NeoClock/NeoClock.ino` shows the time on a ring of 24 pixels, with a red hand for
the hours, a green one for the minutes and a blue one for the seconds.  The time comes
over the serial port.  `requestSync` asks for it and never knows it, so that the clock
needs a message every 300 seconds and stops drawing without one.

One call of `loop` reads the number of a waiting message, if there is one, and calls
`now` five times.  It writes the frame that it shows and the level of the LED.

The hands are drawn over each other with `|`, through the library, which keeps colours
scaled down to a tenth.  `face_drawHands` says that this mixes no hands up.
-/

namespace ArduinoProjects.NeoClock

open TimeLib
open BleRgb (LED_COUNT PixelStore Rgb Ring neoPixel storedBrightness Color setOne setAll
  getPixelColor)

/-! ## The sketch -/

def MAX_BRIGHTNESS : UInt8 := 255

def UTC_OFFSET : Int := 0

def HOURS : Int := 12

def MINUTES : Int := 60

def SECONDS : Int := 60

/-- The store of the strip, after `strip.setBrightness(MAX_BRIGHTNESS/10)`. -/
abbrev clockStore : PixelStore := neoPixel (storedBrightness (MAX_BRIGHTNESS / 10))

def red : UInt32 := Color 255 0 0

def green : UInt32 := Color 0 255 0

def off : UInt32 := Color 0 0 0

def positive_modulo (i n : Int) : Int := CInt.floorMod i n

/-- `a * (LED_COUNT / b)` or `a / (b / LED_COUNT)` of floating-point numbers, cut off.
`b` is 12.0 or 60.0, so that the quotients are 2.0 and 2.5. -/
def toLed (a b : Int) : Int := (a * LED_COUNT).tdiv b

/-- `strip.setPixelColor(led, c | strip.getPixelColor(led))` -/
def mix (strip : Ring clockStore) (led : Int) (c : UInt32) : Ring clockStore :=
  setOne strip led (c ||| getPixelColor strip (UInt16.ofInt led))

/-- The hands, from the results of `hourFormat12`, `minute` and the two calls of
`second`. -/
def drawHands (strip : Ring clockStore) (hour12 min sec sec' : Int) : Ring clockStore :=
  let hourLed := toLed (positive_modulo (hour12 + UTC_OFFSET) HOURS) HOURS
  let minuteLed := toLed min MINUTES
  let secondLed := toLed sec SECONDS
  let secondRemain := sec'.tmod (SECONDS.tdiv LED_COUNT) + 1
  let partialBlue := Color 0 0 (UInt8.ofInt ((MAX_BRIGHTNESS.toNat : Int).tdiv secondRemain))
  mix (mix (mix strip hourLed red) minuteLed green) secondLed partialBlue

/-- What one call of `loop` reads.  `setGap` is the time until `setTime` reads
`millis()`. -/
structure LoopInput where
  message : Option UInt32
  setGap : Nat
  waits : Fin 5 → Wait

/-- A frame that `strip.show()` sends, and the true times of the four readings of the
clock before it. -/
structure Frame where
  strip : Ring clockStore
  hourAt : Nat
  minuteAt : Nat
  secondAt : Nat
  blueAt : Nat

/-- What one call of `loop` writes, and the true time at which it asks for the status. -/
structure Shown where
  led : Bool
  askedAt : Nat
  frame : Option Frame

structure Sketch where
  board : Board
  strip : Ring clockStore

/-- Jan 1 2013 -/
def DEFAULT_TIME : UInt32 := 1357041600

/-- The time of a message that is valid. -/
def LoopInput.accepted (i : LoopInput) : Option UInt32 :=
  i.message.filter fun pctime => pctime > DEFAULT_TIME

def onBoard {α : Type} (x : StateT Board Option α) : StateT Sketch Option α := fun s =>
  (x s.board).map fun r => (r.1, { s with board := r.2 })

def processSyncMessage (i : LoopInput) : StateT Sketch Option Unit :=
  match i.message with
  | some pctime => if pctime > DEFAULT_TIME then onBoard (setTime pctime i.setGap) else return ()
  | none => return ()

/-- What `requestSync` returns.  The time will be sent later. -/
def requestSync : Option UInt32 := some 0

/-- `f()`, which is `f(now())`, and the true time of its reading. -/
def reading (f : UInt32 → StateT Board Option Int) (w : Wait) :
    StateT Board Option (Int × Nat) := do
  let t ← now w requestSync
  let x ← f t
  return (x, (← get).time)

def loop (i : LoopInput) : StateT Sketch Option Shown := do
  processSyncMessage i
  modify fun s => { s with strip := setAll s.strip off }
  let status ← onBoard (timeStatus (i.waits 0) requestSync)
  let askedAt := (← get).board.time
  if status = .timeSet then
    let (hour12, hourAt) ← onBoard (reading hourFormat12 (i.waits 1))
    let (min, minuteAt) ← onBoard (reading minute (i.waits 2))
    let (sec, secondAt) ← onBoard (reading second (i.waits 3))
    let (sec', blueAt) ← onBoard (reading second (i.waits 4))
    modify fun s => { s with strip := drawHands s.strip hour12 min sec sec' }
    let strip := (← get).strip
    return { led := false, askedAt, frame := some { strip, hourAt, minuteAt, secondAt, blueAt } }
  else return { led := true, askedAt, frame := none }

/-- The state before `setup`. -/
def Sketch.init : Sketch where
  board := { vars := .init, time := 0 }
  strip _ := clockStore.cleared

def setup (w : Wait) : StateT Sketch Option Unit := onBoard (setSyncProvider w requestSync)

def run (w : Wait) (inputs : List LoopInput) : StateT Sketch Option (List Shown) := do
  setup w
  inputs.mapM loop

/-! ## The face -/

/-- The frame shows these times of the day: red, green and blue are where their hands
are, and nowhere else. -/
def Face (f : Ring clockStore) (hour minute second : Nat) : Prop :=
  ∀ p, ((f p).r ≠ 0 ↔ p.val = 2 * (hour % 12)) ∧ ((f p).g ≠ 0 ↔ p.val = 2 * minute / 5) ∧
    ((f p).b ≠ 0 ↔ p.val = 2 * second / 5)

/-- What `mix` does to one pixel. -/
def mixCell (c : UInt32) (cell : Rgb) : Rgb := clockStore.write (c ||| clockStore.read cell)

theorem mix_apply (strip : Ring clockStore) {n : Nat} (hn : n < LED_COUNT) (c : UInt32)
    (p : Fin LED_COUNT) :
    mix strip (n : Int) c p = if p.val = n then mixCell c (strip p) else strip p := by
  have hread : getPixelColor strip (UInt16.ofInt (n : Int)) =
      clockStore.read (strip ⟨n, hn⟩) := by
    have hled := BleRgb.ofInt_led ⟨n, hn⟩
    rw [hled, getPixelColor, dif_pos (BleRgb.toNat_led_lt ⟨n, hn⟩),
      BleRgb.mk_toNat_led ⟨n, hn⟩]
  have happly := BleRgb.setOne_apply strip ⟨n, hn⟩ p (c ||| clockStore.read (strip ⟨n, hn⟩))
  rw [mix, hread, happly]
  by_cases hp : p = ⟨n, hn⟩
  · subst hp
    rw [if_pos rfl, if_pos rfl]
    rfl
  · rw [if_neg hp, if_neg fun hval => hp (Fin.ext hval)]

/-- A hand adds its own colour and takes no other away. -/
theorem mixed (onHour onMinute onSecond : Bool) (late : Bool) :
    let cell := clockStore.write off
    let cell := if onHour then mixCell red cell else cell
    let cell := if onMinute then mixCell green cell else cell
    let cell := if onSecond then mixCell (Color 0 0 (if late then 127 else 255)) cell else cell
    (cell.r ≠ 0 ↔ onHour = true) ∧ (cell.g ≠ 0 ↔ onMinute = true) ∧
      (cell.b ≠ 0 ↔ onSecond = true) := by
  revert onHour onMinute onSecond late
  decide

theorem toLed_eq (a b : Nat) : toLed (a : Int) (b : Int) = (24 * a / b : Nat) := by
  have hnonneg : (0 : Int) ≤ (a : Int) * LED_COUNT :=
    Int.mul_nonneg (Int.natCast_nonneg a) (Int.natCast_nonneg _)
  rw [toLed, Int.tdiv_eq_ediv_of_nonneg hnonneg]
  show (a : Int) * ((24 : Nat) : Int) / (b : Int) = _
  rw [Nat.mul_comm 24 a]
  push_cast
  rfl

theorem face_drawHands (strip : Ring clockStore) {hour min sec sec' : Nat} {hour12 : Int}
    (hhour : positive_modulo (hour12 + UTC_OFFSET) HOURS = (hour % 12 : Nat)) (hmin : min < 60)
    (hsec : sec < 60) :
    Face (drawHands (setAll strip off) hour12 min sec sec') hour min sec := by
  have hhourLed : toLed ((hour % 12 : Nat) : Int) HOURS = (2 * (hour % 12) : Nat) := by
    have hled := toLed_eq (hour % 12) 12
    rw [show HOURS = ((12 : Nat) : Int) from rfl, hled]
    congr 1
    omega
  have hminLed : toLed (min : Int) MINUTES = (2 * min / 5 : Nat) := by
    have hled := toLed_eq min 60
    rw [show MINUTES = ((60 : Nat) : Int) from rfl, hled]
    congr 1
    omega
  have hsecLed : toLed (sec : Int) SECONDS = (2 * sec / 5 : Nat) := by
    have hled := toLed_eq sec 60
    rw [show SECONDS = ((60 : Nat) : Int) from rfl, hled]
    congr 1
    omega
  have hblue : Color 0 0 (UInt8.ofInt ((MAX_BRIGHTNESS.toNat : Int).tdiv
      ((sec' : Int).tmod (SECONDS.tdiv LED_COUNT) + 1))) =
        Color 0 0 (if sec' % 2 = 1 then 127 else 255) := by
    have hrem : (sec' : Int).tmod (SECONDS.tdiv LED_COUNT) = (sec' % 2 : Nat) := rfl
    rw [hrem]
    rcases Nat.mod_two_eq_zero_or_one sec' with h | h <;> rw [h] <;> rfl
  intro p
  have hcount : LED_COUNT = 24 := rfl
  rw [drawHands, hhour]
  simp only [hhourLed, hminLed, hsecLed, hblue]
  rw [mix_apply _ (by omega), mix_apply _ (by omega), mix_apply _ (by omega),
    BleRgb.setAll_apply]
  have hcell := mixed (decide (p.val = 2 * (hour % 12))) (decide (p.val = 2 * min / 5))
    (decide (p.val = 2 * sec / 5)) (decide (sec' % 2 = 1))
  simp only [decide_eq_true_eq] at hcell
  exact hcell

end ArduinoProjects.NeoClock
