import ArduinoProjects.Lib.Machine
import ArduinoProjects.Prankphone.Bounce

/-!
# The prank phone

`src/prankphone/prankphone.ino` is a telephone that rings at the click of a key
fob and plays a prank call to whoever picks it up.  One call of `loop()` reads
the debounced hook and ringer and whether a clip is playing.  Then it may ring,
and may start or stop a clip.

The player ends a clip by itself when its file is over.  That can happen at any
time, so an iteration reads for each stretch of its code whether a clip ends
there.
-/

namespace ArduinoProjects

def CLIP_COUNT : Nat := 12

/-- The digits that `dial` gets. -/
def MOES : String := "5551239"

/-- The settings of `audioShield.volume`. -/
inductive Loudness where
  | RING_VOLUME
  | OUTPUT_VOLUME
  deriving DecidableEq, Repr

/-- What the phone does to its audio hardware. -/
inductive Sound where
  | volume (v : Loudness)
  /-- A clip starts, and cuts off the clip that plays. -/
  | play (filename : String) (playing : Option String)
  | stop
  /-- Two sines together. -/
  | tones (sine1 sine2 milliseconds : Nat)
  deriving DecidableEq, Repr

/-- The globals of the sketch, and the clip that the player plays. -/
structure Prankphone where
  hook : Bounce
  ringer : Bounce
  wav : Option String
  deriving DecidableEq, Repr

namespace Prankphone

/-- What `setup` reads: the two pins, the result of `SD.begin`, and whether the
clip ends by itself. -/
structure PowerUp where
  hook : Bounce.Reading
  ringer : Bounce.Reading
  sdBegin : Bool
  endsWhileRinging : Bool

/-- What one iteration reads: the two pins, the result of `random(1, CLIP_COUNT)`
less 1, and whether the clip ends by itself before `wav.isPlaying()`, after it,
while the phone rings, while the number is dialed and after the last statement
that has to do with the player. -/
structure Input where
  hook : Bounce.Reading
  ringer : Bounce.Reading
  random : Fin (CLIP_COUNT - 1)
  endsBeforeSample : Bool
  endsAfterSample : Bool
  endsWhileRinging : Bool
  endsWhileDialing : Bool
  endsAtLast : Bool

/-- What one iteration writes, and the `isPlaying` that it has sampled. -/
structure Output where
  isPlaying : Bool
  sounds : List Sound
  deriving DecidableEq, Repr

/-! ## The player -/

/-- Time passes, and the clip may end. -/
def elapse (ends : Bool) (wav : Option String) : Option String := if ends then none else wav

/-- `wav.play(filename)` -/
def play (filename : String) (wav : Option String) : Option String × List Sound :=
  (some filename, [.play filename wav])

/-- `wav.stop()` ends whatever plays. -/
def stop (_wav : Option String) : Option String × List Sound := (none, [.stop])

/-- `sprintf(filename, "%02i.wav", randNumber)` -/
def clipName (randNumber : Nat) : String :=
  (if randNumber < 10 then "0" else "") ++ toString randNumber ++ ".wav"

/-- The clip of an iteration that plays one. -/
def Input.filename (i : Input) : String := clipName (i.random.val + 1)

/-! ## Dialing -/

def dialtone (milliseconds : Nat) : List Sound := [.tones 440 330 milliseconds]

/-- `low` is not set for a key that is not on the pad. -/
def lowKeyFreq (key : Char) : Option Nat :=
  if key ∈ ['1', '2', '3'] then some 697
  else if key ∈ ['4', '5', '6'] then some 770
  else if key ∈ ['7', '8', '9'] then some 852
  else if key ∈ ['*', '0', '#'] then some 941
  else none

def highKeyFreq (key : Char) : Option Nat :=
  if key ∈ ['1', '4', '7', '*'] then some 1209
  else if key ∈ ['2', '5', '8', '0'] then some 1336
  else if key ∈ ['3', '6', '9', '#'] then some 1477
  else none

/-- A key of the pad.  Its two tones sound for a tenth of a second. -/
def playKey (key : Char) : List Sound :=
  match lowKeyFreq key, highKeyFreq key with
  | some low, some high => if 0 < low ∧ 0 < high then [.tones low high 100] else []
  | _, _ => []

def dial (phonenumber : String) : List Sound := phonenumber.toList.flatMap playKey

/-! ## setup and loop -/

/-- The state after `setup()`, which plays one ring if there is a card. -/
def setup (p : PowerUp) : Prankphone × List Sound :=
  let hook := (Bounce.construct.attach p.hook).interval 5
  let ringer := (Bounce.construct.attach p.ringer).interval 5
  let wav := none
  if p.sdBegin then
    let (wav, playing) := play "ring.wav" wav
    let wav := elapse p.endsWhileRinging wav
    let (wav, stopped) := stop wav
    (⟨hook, ringer, wav⟩, .volume .OUTPUT_VOLUME :: playing ++ stopped)
  else
    (⟨hook, ringer, wav⟩, [.volume .OUTPUT_VOLUME])

/-- The ringer keyfob is clicked. -/
def ring (i : Input) (wav : Option String) : Option String × List Sound :=
  let (wav, playing) := play "ring.wav" wav
  let wav := elapse i.endsWhileRinging wav
  let (wav, stopped) := stop wav
  (wav, .volume .RING_VOLUME :: playing ++ stopped ++ [.volume .OUTPUT_VOLUME])

/-- The handset is picked up. -/
def pickUp (i : Input) (wav : Option String) : Option String × List Sound :=
  let wav := elapse i.endsWhileDialing wav
  let (wav, playing) := play i.filename wav
  (wav, dialtone 1000 ++ dial MOES ++ playing)

/-- What `loop` does about the ringer. -/
def answerRinger (i : Input) (ringerChanged ringState hookState isPlaying : Bool)
    (wav : Option String) : Option String × List Sound :=
  if ringerChanged && ringState && hookState && !isPlaying then ring i wav
  else (wav, [])

/-- What `loop` does about the hook. -/
def answerHook (i : Input) (hookChanged hookState isPlaying : Bool) (wav : Option String) :
    Option String × List Sound :=
  if hookChanged && !hookState && !isPlaying then pickUp i wav
  else if hookChanged && hookState then stop wav
  else (wav, [])

def loop (s : Prankphone) (i : Input) : Prankphone × Output :=
  let (hook, hookChanged) := s.hook.update i.hook
  let hookState := hook.read
  let (ringer, ringerChanged) := s.ringer.update i.ringer
  let ringState := ringer.read
  let wav := elapse i.endsBeforeSample s.wav
  let isPlaying := wav.isSome
  let wav := elapse i.endsAfterSample wav
  let (wav, ringing) := answerRinger i ringerChanged ringState hookState isPlaying wav
  let (wav, answering) := answerHook i hookChanged hookState isPlaying wav
  let wav := elapse i.endsAtLast wav
  (⟨hook, ringer, wav⟩, ⟨isPlaying, ringing ++ answering⟩)

/-- The sketch as a machine. -/
def sketch : Machine Prankphone Input Output where
  step := loop

end Prankphone

end ArduinoProjects
