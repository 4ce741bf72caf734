import Mathlib.Data.UInt
import Mathlib.Data.Bool.Basic

/-!
# The Bounce2 library

A `Bounce` debounces one pin.  `update` takes a new level over when the pin has
shown it for the whole interval, and answers whether it did.  A `true` level is
`HIGH`.

This is the library as it is compiled by default, with neither of its two
`#define`s.
-/

namespace ArduinoProjects

/-- The three flags are the bits of `state`. -/
structure Bounce where
  previousMillis : UInt32
  intervalMillis : UInt16
  debounced : Bool
  unstable : Bool
  changed : Bool
  deriving DecidableEq, Repr

namespace Bounce

/-- What a call reads: the level of the pin, and what `millis()` gives the first
time and the second time. -/
structure Reading where
  level : Bool
  millis : UInt32
  laterMillis : UInt32
  deriving DecidableEq, Repr

/-- `Bounce::Bounce()` -/
def construct : Bounce := ⟨0, 10, false, false, false⟩

def attach (b : Bounce) (r : Reading) : Bounce :=
  { b with
    previousMillis := r.millis
    debounced := r.level
    unstable := r.level
    changed := false }

def interval (b : Bounce) (intervalMillis : UInt16) : Bounce :=
  { b with intervalMillis := intervalMillis }

def update (b : Bounce) (r : Reading) : Bounce × Bool :=
  let currentState := r.level
  let b := { b with changed := false }
  let b :=
    -- a reading unlike the last one resets the debounce counter
    if currentState ≠ b.unstable then
      { b with previousMillis := r.millis, unstable := !b.unstable }
    else if r.millis - b.previousMillis ≥ b.intervalMillis.toUInt32 then
      if b.debounced ≠ currentState then
        { b with
          previousMillis := r.laterMillis, debounced := !b.debounced, changed := true }
      else b
    else b
  (b, b.changed)

def read (b : Bounce) : Bool := b.debounced

/-- `update` answers whether the debounced level is another one than before. -/
theorem update_changed (b : Bounce) (r : Reading) :
    (b.update r).2 = true ↔ (b.update r).1.read ≠ b.read := by
  unfold update read
  dsimp only
  split_ifs <;> simp

/-- Without a change the level is the one from before. -/
theorem update_read_of_not_changed {b : Bounce} {r : Reading} (h : (b.update r).2 = false) :
    (b.update r).1.read = b.read := by
  by_contra hne
  rw [(update_changed b r).mpr hne] at h
  cases h

end Bounce

end ArduinoProjects
