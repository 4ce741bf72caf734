import ArduinoProjects.BleRgb.Animations

/-!
# What an animation command inherits

When no animation runs, an animation command sets some fields of its animation
and leaves the others as earlier commands left them.  `Alike` relates two
states that differ only in fields which nothing reads before they are written,
and `animate_alike` keeps it through an iteration.

`shown_eq_iff` says which commands start the same animation in two states that
show the same picture.  Only a blink with an even count does not: its first
frame puts back a picture that an earlier blink has saved.
-/

namespace ArduinoProjects.BleRgb

variable {px : PixelStore} {cc : Compiler} {s t : Sketch px}

/-! ## Reachable states -/

/-- The aimless animation is not called at speed zero, where it would divide by
zero. -/
def AimGuarded (cc : Compiler) (s : Sketch px) (i : Input) : Prop :=
  (rotate cc s i.rotateMs).frame = false →
    (flash cc (rotate cc s i.rotateMs).sketch i.flashMs).frame = false →
    s.aimless.style ≠ .off → s.aimless.speed ≠ 0

/-- The states after `setup()` and a run to which C++ gives a meaning as far as
the aimless animation is concerned.  The rotation and the blink may divide by
zero. -/
def Reachable (cc : Compiler) (s : Sketch px) : Prop :=
  ∃ inputs,
    (sketch px cc).Always (fun s i => AimGuarded cc (commanded cc s i) i) (setup px).1 inputs ∧
      s = (sketch px cc).run (setup px).1 inputs

/-- An aimless animation that has ended leaves no count for the next one. -/
def AimlessDone (s : Sketch px) : Prop := s.aimless.style = .off → s.aimless.count = 0

theorem aim_aimlessDone (h : AimlessDone s) (ms : UInt32) (random : Fin LED_COUNT)
    (hspeed : s.aimless.style ≠ .off → s.aimless.speed ≠ 0) :
    AimlessDone (aim cc s ms random).sketch := by
  unfold AimlessDone at h ⊢
  cases hstyle : s.aimless.style with
  | off => simpa [aim, hstyle] using h
  | roulette =>
    have hspeed' : s.aimless.speed ≠ 0 := hspeed (by rw [hstyle]; decide)
    simp only [aim, hstyle, spinRoulette]
    split_ifs with hdue hcount hzero
    · -- The speed has come down to zero, and the count is set to it.
      intro _
      simp only [hzero]
      rfl
    · simp
    · simp
    · simp [hstyle]
  | jump =>
    simp only [aim, hstyle, jumpAround]
    split_ifs with hdue hcount
    · exact fun _ => hcount
    · simp
    · simp [hstyle]

theorem animate_aimlessDone {i : Input} (h : AimlessDone s) (hguarded : AimGuarded cc s i) :
    AimlessDone (animate cc s i).sketch := by
  have hrotate : AimlessDone (rotate cc s i.rotateMs).sketch := by
    simpa [AimlessDone] using h
  cases hr : (rotate cc s i.rotateMs).frame with
  | true =>
    rw [animate_of_rotate hr]
    exact hrotate
  | false =>
    cases hf : (flash cc (rotate cc s i.rotateMs).sketch i.flashMs).frame with
    | true =>
      rw [(animate_of_flash hr hf).1]
      simpa [AimlessDone] using h
    | false =>
      rw [(animate_of_aim hr hf).1]
      refine aim_aimlessDone hrotate _ _ ?_
      rw [rotate_aimless]
      exact hguarded hr hf

theorem commanded_aimlessDone (h : AimlessDone s) (i : Input) :
    AimlessDone (commanded cc s i) := by
  apply commanded_of_execute (P := AimlessDone) (fun _ _ hs => hs) h
  intro c _
  cases c <;> first | exact h | simp [AimlessDone, Command.execute]

theorem Reachable.aimlessDone (h : Reachable cc s) : AimlessDone s := by
  obtain ⟨inputs, hguarded, rfl⟩ := h
  refine Machine.guarded_invariant AimlessDone (fun s i hs hstep => ?_)
    (fun _ => rfl) hguarded
  exact animate_aimlessDone (commanded_aimlessDone hs i) hstep

/-! ## Alike states -/

/-- The same rotation, or two that are stopped. -/
def Rotation.Alike (a b : Rotation) : Prop :=
  a = b ∨ a.speed = 0 ∧ b.speed = 0 ∧ a.previousUpdateMs = b.previousUpdateMs

/-- Two blinks that have ended, or the same blink but for what is saved.  That
must put the same cells back if it is the next thing to be used. -/
def Blink.Alike (px : PixelStore) (a b : Blink) : Prop :=
  a.previousUpdateMs = b.previousUpdateMs ∧ a.count = b.count ∧
    (a.count ≠ 0 → a.speed = b.speed ∧
      (a.count % 2 = 0 → ∀ i, px.write (a.saved i) = px.write (b.saved i)))

/-- The same aimless animation, or two that are off. -/
def Aimless.Alike (a b : Aimless) : Prop :=
  a = b ∨ a.style = .off ∧ b.style = .off ∧ a.previousUpdateMs = b.previousUpdateMs

/-- Two states with no command left to read which differ only in fields that
nothing reads before they are written. -/
structure Alike (s t : Sketch px) : Prop where
  rx : s.rx = [] ∧ t.rx = []
  ring : s.ring = t.ring
  rotation : s.rotation.Alike t.rotation
  blinky : s.blinky.Alike px t.blinky
  aimless : s.aimless.Alike t.aimless

/-- Two calls of an animation make a frame or not, and leave alike states. -/
def AlikeCalls (a b : Animation px) : Prop := a.frame = b.frame ∧ Alike a.sketch b.sketch

variable (cc) in
theorem rotate_alike (h : Alike s t) (ms : UInt32) :
    AlikeCalls (rotate cc s ms) (rotate cc t ms) := by
  unfold AlikeCalls rotate
  rcases h.rotation with heq | ⟨hs, ht, _⟩
  · dsimp only
    rw [heq, h.ring]
    split_ifs
    · exact ⟨rfl, h⟩
    all_goals exact ⟨rfl, ⟨h.rx, rfl, Or.inl rfl, h.blinky, h.aimless⟩⟩
  · rw [if_pos hs, if_pos ht]
    exact ⟨rfl, h⟩

variable (cc) in
theorem flash_alike (h : Alike s t) (ms : UInt32) :
    AlikeCalls (flash cc s ms) (flash cc t ms) := by
  obtain ⟨hms, hcount, hrest⟩ := h.blinky
  unfold AlikeCalls flash
  dsimp only
  rw [← hcount]
  by_cases hzero : s.blinky.count = 0
  · rw [if_pos hzero, if_pos hzero]
    exact ⟨rfl, h⟩
  · obtain ⟨hspeed, hsaved⟩ := hrest hzero
    rw [← hspeed, ← hms, h.ring]
    split_ifs with hdue heven
    · have hring : setEach t.ring s.blinky.saved = setEach t.ring t.blinky.saved := by
        funext i
        rw [setEach_apply, setEach_apply, hsaved heven i]
      have hodd := mt (sub_one_mod_two s.blinky.count).mp (not_not.mpr heven)
      exact ⟨rfl, ⟨h.rx, hring, h.rotation,
        ⟨rfl, rfl, fun _ => ⟨rfl, fun h => absurd h hodd⟩⟩, h.aimless⟩⟩
    · exact ⟨rfl, ⟨h.rx, rfl, h.rotation, ⟨rfl, rfl, fun _ => ⟨rfl, fun _ _ => rfl⟩⟩,
        h.aimless⟩⟩
    · exact ⟨rfl, h⟩

variable (cc) in
theorem aim_alike (h : Alike s t) (ms : UInt32) (random : Fin LED_COUNT) :
    AlikeCalls (aim cc s ms random) (aim cc t ms random) := by
  unfold AlikeCalls aim
  rcases h.aimless with heq | ⟨hs, ht, _⟩
  · unfold spinRoulette jumpAround
    dsimp only
    rw [heq, h.ring]
    split
    · exact ⟨rfl, h⟩
    all_goals
      split_ifs
      any_goals exact ⟨rfl, ⟨h.rx, rfl, h.rotation, h.blinky, Or.inl rfl⟩⟩
      exact ⟨rfl, h⟩
  · rw [hs, ht]
    exact ⟨rfl, h⟩

variable (cc) in
theorem animate_alike (h : Alike s t) (i : Input) :
    AlikeCalls (animate cc s i) (animate cc t i) := by
  have hrotate := rotate_alike cc h i.rotateMs
  have hflash := flash_alike cc hrotate.2 i.flashMs
  have haim := aim_alike cc hflash.2 i.aimMs i.random
  unfold AlikeCalls animate at *
  dsimp only
  rw [← hrotate.1, ← hflash.1]
  split_ifs
  · exact ⟨hrotate.1, hrotate.2⟩
  · exact ⟨rfl, hflash.2⟩
  · exact ⟨haim.1, haim.2⟩

/-! ## The frames of a quiet run -/

/-- The frames that a run shows. -/
def shown (cc : Compiler) (s : Sketch px) (inputs : List Input) : List (Ring px) :=
  (((sketch px cc).trace s inputs).map Output.frames).flatten

variable (cc) in
/-- An iteration that finds no command. -/
theorem loop_quiet {i : Input} (hrx : s.rx = []) (hi : i.received = []) :
    loop cc s i = ((animate cc s i).sketch,
      ⟨none, if (animate cc s i).frame then [(animate cc s i).sketch.ring] else [],
        (animate cc s i).divisors⟩) := by
  have hnext : nextCommand cc s i = (none, []) := by
    unfold nextCommand receive
    rw [hrx]
    split_ifs <;> rfl
  have hcommanded : commanded cc s i = s := by
    unfold commanded
    rw [hnext, hi]
    obtain ⟨ring, rotation, blinky, aimless, rx⟩ := s
    cases hrx
    rfl
  unfold loop
  dsimp only
  rw [hnext, hcommanded]
  rfl

theorem loop_alike {i : Input} (hi : i.received = []) (h : Alike s t) :
    ((sketch px cc).out s i).frames = ((sketch px cc).out t i).frames ∧
      Alike ((sketch px cc).next s i) ((sketch px cc).next t i) := by
  obtain ⟨hframe, hsketch⟩ := animate_alike cc h i
  show (loop cc s i).2.frames = (loop cc t i).2.frames ∧
    Alike (loop cc s i).1 (loop cc t i).1
  rw [loop_quiet cc h.rx.1 hi, loop_quiet cc h.rx.2 hi]
  dsimp only
  rw [hframe, hsketch.ring]
  exact ⟨rfl, hsketch⟩

theorem shown_eq_of_alike (h : Alike s t) {inputs : List Input}
    (hquiet : ∀ i ∈ inputs, i.received = []) : shown cc s inputs = shown cc t inputs :=
  congrArg List.flatten
    (Machine.map_trace_eq_of_simulation Output.frames (fun _ _ _ => loop_alike) h hquiet)

/-! ## The commands -/

/-- The first frame of the animation puts a saved picture back. -/
def Command.PutsBackFirst : Command → Prop
  | .blink _ count | .flash _ count =>
    UInt8.ofInt count ≠ 0 ∧ UInt8.ofInt count % 2 = 0
  | _ => False

variable (px) in
theorem Command.PutsBackFirst.execute {c : Command} (h : c.PutsBackFirst) :
    ∃ (speed : Int8) (count : UInt8), count ≠ 0 ∧ count % 2 = 0 ∧ ∀ s : Sketch px,
      c.execute s = { s with blinky := { s.blinky with speed := speed, count := count } } := by
  cases c with
  | blink speed count => exact ⟨_, _, h.1, h.2, fun _ => rfl⟩
  | flash speed count => exact ⟨_, _, h.1, h.2, fun _ => rfl⟩
  | _ => exact h.elim

/-- Two reachable states in which no animation runs and no command is left to
read, with the same picture and the same times. -/
structure Twins (cc : Compiler) (s t : Sketch px) : Prop where
  reachable : Reachable cc s ∧ Reachable cc t
  rx : s.rx = [] ∧ t.rx = []
  ring : s.ring = t.ring
  rotation : s.rotation.speed = 0 ∧ t.rotation.speed = 0
  blinky : s.blinky.count = 0 ∧ t.blinky.count = 0
  aimless : s.aimless.style = .off ∧ t.aimless.style = .off
  rotationMs : s.rotation.previousUpdateMs = t.rotation.previousUpdateMs
  blinkyMs : s.blinky.previousUpdateMs = t.blinky.previousUpdateMs
  aimlessMs : s.aimless.previousUpdateMs = t.aimless.previousUpdateMs

namespace Twins

variable {c : Command}

theorem execute_alike (h : Twins cc s t) (hc : c.shows = false)
    (hsaved : c.PutsBackFirst → ∀ i, px.write (s.blinky.saved i) = px.write (t.blinky.saved i)) :
    Alike (c.execute s) (c.execute t) := by
  have hrotation : s.rotation.Alike t.rotation := Or.inr ⟨h.rotation.1, h.rotation.2, h.rotationMs⟩
  have hblinky : s.blinky.Alike px t.blinky :=
    ⟨h.blinkyMs, h.blinky.1.trans h.blinky.2.symm, fun hcount => absurd h.blinky.1 hcount⟩
  have haimless : s.aimless.Alike t.aimless := Or.inr ⟨h.aimless.1, h.aimless.2, h.aimlessMs⟩
  -- Nothing is left of an earlier count for the roulette.
  have hcount : s.aimless.count = t.aimless.count :=
    (h.reachable.1.aimlessDone h.aimless.1).trans (h.reachable.2.aimlessDone h.aimless.2).symm
  cases c with
  | setOne i R G B => cases hc
  | setAll R G B => cases hc
  | rotate speed steps =>
    exact ⟨h.rx, h.ring, Or.inl (by simp [Command.execute, h.rotationMs]), hblinky, haimless⟩
  | blink speed count =>
    exact ⟨h.rx, h.ring, hrotation,
      ⟨h.blinkyMs, rfl, fun hne => ⟨rfl, fun heven => hsaved ⟨hne, heven⟩⟩⟩, haimless⟩
  | flash speed count =>
    exact ⟨h.rx, h.ring, hrotation,
      ⟨h.blinkyMs, rfl, fun hne => ⟨rfl, fun heven => hsaved ⟨hne, heven⟩⟩⟩, haimless⟩
  | jump speed count =>
    exact ⟨h.rx, h.ring, hrotation, hblinky,
      Or.inl (by simp [Command.execute, h.aimlessMs])⟩
  | roulette speed =>
    exact ⟨h.rx, h.ring, hrotation, hblinky,
      Or.inl (by simp [Command.execute, h.aimlessMs, hcount])⟩

end Twins

/-- An iteration in which the blink is due. -/
def blinkTime (cc : Compiler) (s : Sketch px) : Input :=
  ⟨false, [], 0, s.blinky.previousUpdateMs + cc.blinkInterval s.blinky.speed, 0, 0⟩

/-- The first frame of a blink with an even count. -/
theorem shown_blinkTime (hrx : s.rx = []) (hrotation : s.rotation.speed = 0)
    (hcount : s.blinky.count ≠ 0) (heven : s.blinky.count % 2 = 0) :
    shown cc s [blinkTime cc s] = [setEach s.ring s.blinky.saved] := by
  have hrotate : rotate cc s (blinkTime cc s).rotateMs = ⟨s, false, []⟩ := by
    unfold rotate
    rw [if_pos hrotation]
  have hframe : (flash cc s (blinkTime cc s).flashMs).frame = true :=
    flash_frame_of_interval cc hcount
  have hflash : (flash cc (rotate cc s (blinkTime cc s).rotateMs).sketch
      (blinkTime cc s).flashMs).frame = true := by
    rw [hrotate]
    exact hframe
  obtain ⟨hsketch, hshow⟩ := animate_of_flash (by rw [hrotate]) hflash
  have hloop := loop_quiet cc (i := blinkTime cc s) hrx rfl
  rw [hshow, hsketch, hrotate, flash_of_even hframe heven] at hloop
  show ([(loop cc s (blinkTime cc s)).2.frames]).flatten = _
  rw [hloop]
  rfl

/-- States that show the same have saved the same, if that is what is shown
first. -/
theorem Twins.same_saved (h : Twins cc s t) {c : Command}
    (hall : ∀ inputs, (∀ i ∈ inputs, i.received = []) →
      shown cc (c.execute s) inputs = shown cc (c.execute t) inputs)
    (hfirst : c.PutsBackFirst) (i : Fin LED_COUNT) :
    px.write (s.blinky.saved i) = px.write (t.blinky.saved i) := by
  obtain ⟨speed, count, hcount, heven, hexecute⟩ := hfirst.execute px
  have htime : blinkTime cc (c.execute t) = blinkTime cc (c.execute s) := by
    rw [hexecute, hexecute, blinkTime, blinkTime, h.blinkyMs]
  have hs : shown cc (c.execute s) [blinkTime cc (c.execute s)] =
      [setEach s.ring s.blinky.saved] := by
    rw [hexecute]
    exact shown_blinkTime h.rx.1 h.rotation.1 hcount heven
  have ht : shown cc (c.execute t) [blinkTime cc (c.execute s)] =
      [setEach t.ring t.blinky.saved] := by
    rw [← htime, hexecute]
    exact shown_blinkTime h.rx.2 h.rotation.2 hcount heven
  have hframes := hall [blinkTime cc (c.execute s)] (by simp [blinkTime])
  rw [hs, ht, List.cons.injEq] at hframes
  have hpixel := congrFun hframes.1 i
  rwa [setEach_apply, setEach_apply] at hpixel

/-- An animation command does the same in two states with the same picture
exactly when it does not start by putting back pictures that differ. -/
theorem shown_eq_iff (h : Twins cc s t) (c : Command) (hc : c.shows = false) :
    (∀ inputs, (∀ i ∈ inputs, i.received = []) →
      shown cc (c.execute s) inputs = shown cc (c.execute t) inputs) ↔
      (c.PutsBackFirst → ∀ i, px.write (s.blinky.saved i) = px.write (t.blinky.saved i)) :=
  ⟨fun hall hfirst => h.same_saved hall hfirst,
    fun hsaved _ hquiet => shown_eq_of_alike (h.execute_alike hc hsaved) hquiet⟩

/-! ## Two histories -/

/-- An iteration of a run in which only the blink can be due. -/
def blinkInput (received : List UInt8) (flashMs : UInt32) : Input :=
  ⟨true, received, 0, flashMs, 0, 0⟩

/-- The ring is turned off before the blink saves it, and the blink is ended. -/
def offFirst : List Input :=
  [blinkInput ['A'.toUInt8, 0, 0, 0, 'B'.toUInt8, 1, 0] 0, blinkInput [] 1000, blinkInput [] 1000]

/-- The blink saves the picture of `setup()` and turns the ring off, and the
blink is ended. -/
def blinkFirst : List Input :=
  [blinkInput ['B'.toUInt8, 1, 0] 1000, blinkInput [] 1000]

/-- The compiler of the two histories. -/
def someCompiler : Compiler := ⟨.indexFirst, id⟩

def afterOff : Sketch ledStore := (sketch ledStore someCompiler).run (setup ledStore).1 offFirst

def afterBlink : Sketch ledStore :=
  (sketch ledStore someCompiler).run (setup ledStore).1 blinkFirst

theorem afterOff_ring : afterOff.ring = setAll (setAll (setupRing ledStore) (Color 0 0 0))
    (Color 0 0 0) := rfl

theorem afterBlink_ring : afterBlink.ring = setAll (setupRing ledStore) (Color 0 0 0) := rfl

/-- Both rings are dark at the end. -/
theorem twins_afterOff_afterBlink : Twins someCompiler afterOff afterBlink where
  reachable := by
    -- No aimless animation ever runs.
    have hoff : ∀ {s : Sketch ledStore} {i : Input}, s.aimless.style = .off →
        AimGuarded someCompiler s i := fun h _ _ hstyle => absurd h hstyle
    exact ⟨⟨offFirst, ⟨hoff rfl, hoff rfl, hoff rfl, trivial⟩, rfl⟩,
      ⟨blinkFirst, ⟨hoff rfl, hoff rfl, trivial⟩, rfl⟩⟩
  rx := by decide
  ring := by
    funext i
    rw [afterOff_ring, afterBlink_ring, setAll_apply, setAll_apply]
  rotation := by decide
  blinky := by decide
  aimless := by decide
  rotationMs := by decide
  blinkyMs := by decide
  aimlessMs := by decide

theorem shown_eq_iff_jump :
    (∀ inputs, (∀ i ∈ inputs, i.received = []) →
      shown someCompiler ((Command.jump 1 15).execute afterOff) inputs =
        shown someCompiler ((Command.jump 1 15).execute afterBlink) inputs) ↔
      ((Command.jump 1 15).PutsBackFirst →
        ∀ i, ledStore.write (afterOff.blinky.saved i) =
          ledStore.write (afterBlink.blinky.saved i)) :=
  shown_eq_iff twins_afterOff_afterBlink (Command.jump 1 15) rfl

/-- The two states look the same, and blinking twice starts with what the
histories have saved. -/
theorem blink_shows_history :
    Twins someCompiler afterOff afterBlink ∧
      ¬ ∀ inputs, (∀ i ∈ inputs, i.received = []) →
        shown someCompiler ((Command.blink 1 2).execute afterOff) inputs =
          shown someCompiler ((Command.blink 1 2).execute afterBlink) inputs := by
  refine ⟨twins_afterOff_afterBlink, fun hall => ?_⟩
  have hsaved := twins_afterOff_afterBlink.same_saved hall ⟨by decide, by decide⟩ 0
  revert hsaved
  decide

end ArduinoProjects.BleRgb
