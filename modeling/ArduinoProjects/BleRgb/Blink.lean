import ArduinoProjects.BleRgb.Divisions

/-!
# Pictures that a blink loses

The blink saves the picture, turns the ring off and later puts the saved
picture back.  What the other animations and the commands draw in between is
drawn on the dark ring, and is lost.

`withoutBlink` is the picture of the same run without the blink frames, and
`Lit` says that a lit blink frame shows it.  `strokes` lists what an iteration
draws on the ring, the blink aside, and `Restored` is the condition on these: what
is drawn between a dark frame and the lit one behind it, drawn on the saved
picture, gives the saved picture back.  `lit_iff_restored` says that a run
without blink commands loses nothing exactly when it meets this condition.

The pixel store is exact here, so that nothing else changes a picture.
-/

namespace ArduinoProjects.BleRgb

variable {px : PixelStore} (cc : Compiler)

/-! ## Blink frames of an iteration -/

/-- The iteration makes a blink frame. -/
def blinks (s : Sketch px) (i : Input) : Bool :=
  let c := commanded cc s i
  let r := rotate cc c i.rotateMs
  !r.frame && (flash cc r.sketch i.flashMs).frame

/-- The two commands that start a blink. -/
def Command.startsBlink : Command → Bool
  | .blink .. | .flash .. => true
  | _ => false

/-- The iteration executes no blink command. -/
def NoBlinkCommand (s : Sketch px) (i : Input) : Prop :=
  (nextCommand cc s i).1.any Command.startsBlink = false

instance (s : Sketch px) (i : Input) : Decidable (NoBlinkCommand cc s i) :=
  inferInstanceAs (Decidable (_ = _))

variable {cc} {s : Sketch px} {i : Input}

theorem commanded_blinky (h : NoBlinkCommand cc s i) : (commanded cc s i).blinky = s.blinky := by
  apply commanded_of_execute (P := fun t => t.blinky = s.blinky) (fun _ _ hs => hs) rfl
  intro c hc
  unfold NoBlinkCommand at h
  rw [hc] at h
  cases c with
  | blink => cases h
  | flash => cases h
  | _ => rfl

/-- An iteration with a blink frame. -/
theorem loop_of_blinks (h : blinks cc s i = true) :
    (flash cc (rotate cc (commanded cc s i) i.rotateMs).sketch i.flashMs).frame = true ∧
      (rotate cc (commanded cc s i) i.rotateMs).sketch.ring = (commanded cc s i).ring ∧
      (loop cc s i).1 =
        (flash cc (rotate cc (commanded cc s i) i.rotateMs).sketch i.flashMs).sketch := by
  unfold blinks at h
  dsimp only at h
  rw [Bool.and_eq_true, Bool.not_eq_true'] at h
  exact ⟨h.2, rotate_ring_of_no_frame cc _ h.1, (animate_of_flash h.1 h.2).1⟩

/-- An iteration without a blink frame leaves the blink as it is. -/
theorem loop_of_not_blinks (h : blinks cc s i = false) :
    (loop cc s i).1.blinky = (commanded cc s i).blinky := by
  show (animate cc (commanded cc s i) i).sketch.blinky = _
  cases hr : (rotate cc (commanded cc s i) i.rotateMs).frame with
  | true => rw [animate_of_rotate hr, rotate_blinky]
  | false =>
    have hf : (flash cc (rotate cc (commanded cc s i) i.rotateMs).sketch i.flashMs).frame =
        false := by
      simpa [blinks, hr] using h
    rw [(animate_of_aim hr hf).1, aim_blinky, rotate_blinky]

/-! ## What the others draw -/

variable (cc s i) in
/-- How far the rotation shifts the ring in an iteration, if it is due. -/
def rotateMove : Option Int :=
  let speed := if s.rotation.steps = 0 then 0 else s.rotation.speed
  if s.rotation.speed ≠ 0 ∧ Due (cc.interval speed) i.rotateMs s.rotation.previousUpdateMs then
    some (cc.direction speed).toInt
  else none

variable (cc s i) in
/-- How far the aimless animation shifts the ring in an iteration, if it is
due. -/
def aimMove : Option Int :=
  if Due (cc.interval s.aimless.speed) i.aimMs s.aimless.previousUpdateMs then
    match s.aimless.style with
    | .off => none
    | .roulette => some (cc.direction s.aimless.speed).toInt
    | .jump => some i.random.val
  else none

theorem aimMove_rotate {ms : UInt32} :
    aimMove cc (rotate cc s ms).sketch i = aimMove cc s i := by
  rw [aimMove, aimMove, rotate_aimless]

theorem rotate_draws :
    (rotate cc s i.rotateMs).frame = (rotateMove cc s i).isSome ∧
      (rotate cc s i.rotateMs).sketch.ring = (rotateMove cc s i).elim s.ring (shift s.ring) := by
  unfold rotate rotateMove
  dsimp only
  by_cases hspeed : s.rotation.speed = 0
  · simp [hspeed]
  · simp only [hspeed, if_false, ne_eq, not_false_eq_true, true_and]
    split_ifs <;> simp

theorem aim_draws :
    (aim cc s i.aimMs i.random).frame = (aimMove cc s i).isSome ∧
      (aim cc s i.aimMs i.random).sketch.ring =
        (aimMove cc s i).elim s.ring (shift s.ring) := by
  unfold aim aimMove spinRoulette jumpAround
  dsimp only
  cases s.aimless.style with
  | off => simp
  | roulette => split_ifs <;> exact ⟨rfl, rfl⟩
  | jump => split_ifs <;> exact ⟨rfl, rfl⟩

theorem blinks_iff :
    blinks cc s i = true ↔
      rotateMove cc (commanded cc s i) i = none ∧ FlashDue cc (commanded cc s i) i := by
  unfold blinks
  dsimp only
  rw [Bool.and_eq_true, flash_rotate_frame_iff, rotate_draws.1]
  cases rotateMove cc (commanded cc s i) i <;> simp

/-- One change of the picture. -/
inductive Stroke where
  | one (i : Int) (c : UInt32)
  | all (c : UInt32)
  | move (n : Int)

def Stroke.draw (picture : Ring px) : Stroke → Ring px
  | one i c => setOne picture i c
  | all c => setAll picture c
  | move n => shift picture n

/-- The strokes one after the other. -/
def drawAll (picture : Ring px) (strokes : List Stroke) : Ring px :=
  strokes.foldl Stroke.draw picture

theorem drawAll_append (picture : Ring px) (ds es : List Stroke) :
    drawAll picture (ds ++ es) = drawAll (drawAll picture ds) es :=
  List.foldl_append

def Command.strokes : Command → List Stroke
  | .setOne i R G B => [.one i (Color (.ofInt R) (.ofInt G) (.ofInt B))]
  | .setAll R G B => [.all (Color (.ofInt R) (.ofInt G) (.ofInt B))]
  | _ => []

variable (cc s i) in
/-- What the animations draw in an iteration: the rotation if it is due, and the
aimless animation if neither of the others is. -/
def animationStrokes : List Stroke :=
  match rotateMove cc s i with
  | some n => [.move n]
  | none => if FlashDue cc s i then [] else (aimMove cc s i).elim [] fun n => [.move n]

variable (cc s i) in
/-- What an iteration draws, the blink aside. -/
def strokes : List Stroke :=
  (nextCommand cc s i).1.elim [] Command.strokes ++ animationStrokes cc (commanded cc s i) i

variable (cc s i) in
/-- A command reads nothing of the ring that it draws on. -/
theorem commanded_withRing (picture : Ring px) :
    commanded cc { s with ring := picture } i =
      { commanded cc s i with
        ring := drawAll picture ((nextCommand cc s i).1.elim [] Command.strokes) } := by
  have hnext : nextCommand cc { s with ring := picture } i = nextCommand cc s i := rfl
  unfold commanded
  rw [hnext]
  rcases nextCommand cc s i with ⟨_ | c, rx⟩
  · rfl
  · cases c <;> rfl

/-- An iteration without a blink frame draws what its animations draw. -/
theorem animate_ring (h : rotateMove cc s i = none → ¬ FlashDue cc s i) :
    (animate cc s i).sketch.ring = drawAll s.ring (animationStrokes cc s i) := by
  rcases @rotate_draws px cc s i with ⟨hframe, hring⟩
  unfold animationStrokes
  cases hmove : rotateMove cc s i with
  | some n =>
    rw [hmove] at hframe hring
    rw [animate_of_rotate hframe, hring]
    rfl
  | none =>
    rw [hmove] at hframe hring
    have hflash : (flash cc (rotate cc s i.rotateMs).sketch i.flashMs).frame = false := by
      rw [← Bool.not_eq_true, flash_rotate_frame_iff]
      exact h hmove
    rw [(animate_of_aim hframe hflash).1, aim_draws.2, aimMove_rotate, hring]
    dsimp only
    rw [if_neg (h hmove)]
    cases aimMove cc s i <;> rfl

/-! ## The run without the blink frames -/

variable (cc) in
/-- The picture of the run without the blink frames after an iteration, from the
one before it. -/
def withoutBlink (s : Sketch px) (i : Input) (picture : Ring px) : Ring px :=
  let s' := { s with ring := picture }
  if blinks cc s i then (commanded cc s' i).ring else (loop cc s' i).1.ring

variable (cc) in
/-- The sketch together with the picture of the run without the blink frames. -/
def compared (px : PixelStore) : Machine (Sketch px × Ring px) Input Unit where
  step p i := (((loop cc p.1 i).1, withoutBlink cc p.1 i p.2), ())

variable (cc) in
/-- A blink frame that puts the saved picture back shows the picture of the run
without the blink frames. -/
def Lit (p : Sketch px × Ring px) (i : Input) : Prop :=
  blinks cc p.1 i = true → (commanded cc p.1 i).blinky.count % 2 = 0 →
    (loop cc p.1 i).1.ring = withoutBlink cc p.1 i p.2

/-- Without the blink frames an iteration makes its strokes. -/
theorem withoutBlink_eq_drawAll (picture : Ring px) :
    withoutBlink cc s i picture = drawAll picture (strokes cc s i) := by
  have hring := commanded_withRing cc s i picture
  unfold withoutBlink strokes
  rw [drawAll_append]
  dsimp only
  split_ifs with hblinks
  · rcases blinks_iff.mp hblinks with ⟨hmove, hdue⟩
    have hnone : animationStrokes cc (commanded cc s i) i = [] := by
      unfold animationStrokes
      rw [hmove]
      exact if_pos hdue
    rw [hring, hnone]
    rfl
  · have hdue : rotateMove cc (commanded cc s i) i = none → ¬ FlashDue cc (commanded cc s i) i :=
      fun hmove hflash => hblinks (blinks_iff.mpr ⟨hmove, hflash⟩)
    show (animate cc (commanded cc { s with ring := picture } i) i).sketch.ring = _
    rw [hring]
    exact animate_ring hdue

theorem withoutBlink_self (h : blinks cc s i = false) :
    withoutBlink cc s i s.ring = (loop cc s i).1.ring := by
  unfold withoutBlink
  dsimp only
  rw [if_neg (by rw [h]; decide)]

/-! ## The phases of the blink -/

/-- The picture with which a phase of the blink begins, and what is drawn on it
since. -/
structure Phase where
  picture : Ring exact
  drawn : List Stroke

/-- A run begins with the picture on the ring. -/
def Phase.start (s : Sketch exact) : Phase := ⟨s.ring, []⟩

variable (cc) in
/-- The sketch together with the phase.  A blink frame begins a phase with the
saved picture. -/
def phased : Machine (Sketch exact × Phase) Input Unit where
  step p i :=
    let s := (loop cc p.1 i).1
    ((s, if blinks cc p.1 i then ⟨s.blinky.saved, []⟩
      else { p.2 with drawn := p.2.drawn ++ strokes cc p.1 i }), ())

variable (cc) in
/-- When a lit frame comes, what is drawn in the dark phase before it gives the
saved picture back. -/
def Restored (p : Sketch exact × Phase) (i : Input) : Prop :=
  blinks cc p.1 i = true → (commanded cc p.1 i).blinky.count % 2 = 0 →
    drawAll p.2.picture (p.2.drawn ++ strokes cc p.1 i) = p.1.blinky.saved

instance (p : Sketch exact × Phase) (i : Input) : Decidable (Restored cc p i) :=
  inferInstanceAs (Decidable (_ → _ → _))

/-- The picture is what was drawn in the phase, and before a dark frame it is on
the ring. -/
structure Kept (s : Sketch exact) (picture : Ring exact) (phase : Phase) : Prop where
  drawn : picture = drawAll phase.picture phase.drawn
  lit : s.blinky.count % 2 ≠ 0 → s.ring = picture

section Step

variable {s : Sketch exact} {picture : Ring exact} {phase : Phase}

/-- A dark frame saves the picture. -/
theorem saved_of_blinks (hcommand : NoBlinkCommand cc s i) (h : blinks cc s i = true)
    (hodd : s.blinky.count % 2 ≠ 0) :
    (loop cc s i).1.blinky.count = s.blinky.count - 1 ∧
      (loop cc s i).1.blinky.saved = withoutBlink cc s i s.ring := by
  obtain ⟨hframe, hring, hloop⟩ := loop_of_blinks h
  have hblinky : (rotate cc (commanded cc s i) i.rotateMs).sketch.blinky = s.blinky := by
    rw [rotate_blinky, commanded_blinky hcommand]
  rw [hloop, flash_of_odd hframe (by rw [hblinky]; exact hodd), hblinky, hring, withoutBlink,
    if_pos h]
  exact ⟨rfl, getEach_exact _⟩

/-- A lit frame shows the saved picture, and leaves it saved. -/
theorem ring_of_blinks (hcommand : NoBlinkCommand cc s i) (h : blinks cc s i = true)
    (heven : s.blinky.count % 2 = 0) :
    (loop cc s i).1.ring = s.blinky.saved ∧ (loop cc s i).1.blinky.saved = s.blinky.saved := by
  obtain ⟨hframe, hring, hloop⟩ := loop_of_blinks h
  have hblinky : (rotate cc (commanded cc s i) i.rotateMs).sketch.blinky = s.blinky := by
    rw [rotate_blinky, commanded_blinky hcommand]
  rw [hloop, flash_of_even hframe (by rw [hblinky]; exact heven), hblinky]
  exact ⟨setEach_exact _ _, rfl⟩

/-- A lit frame loses nothing exactly when the saved picture is restored. -/
theorem Kept.lit_iff (h : Kept s picture phase) (hcommand : NoBlinkCommand cc s i) :
    Lit cc (s, picture) i ↔ Restored cc (s, phase) i := by
  unfold Lit Restored
  apply imp_congr_right
  intro hblinks
  apply imp_congr_right
  intro heven
  rw [commanded_blinky hcommand] at heven
  rw [withoutBlink_eq_drawAll, (ring_of_blinks hcommand hblinks heven).1, h.drawn, drawAll_append]
  exact eq_comm

/-- An iteration without a blink frame adds its strokes. -/
theorem Kept.draw (h : Kept s picture phase) (hcommand : NoBlinkCommand cc s i)
    (hblinks : blinks cc s i = false) :
    Kept (loop cc s i).1 (withoutBlink cc s i picture)
      { phase with drawn := phase.drawn ++ strokes cc s i } := by
  constructor
  · rw [withoutBlink_eq_drawAll, drawAll_append, ← h.drawn]
  · intro hodd
    rw [loop_of_not_blinks hblinks, commanded_blinky hcommand] at hodd
    rw [← h.lit hodd, withoutBlink_self hblinks]

/-- A blink frame begins a phase, if a lit one has lost nothing. -/
theorem Kept.blink (h : Kept s picture phase) (hcommand : NoBlinkCommand cc s i)
    (hblinks : blinks cc s i = true) (hrestored : Restored cc (s, phase) i) :
    Kept (loop cc s i).1 (withoutBlink cc s i picture) ⟨(loop cc s i).1.blinky.saved, []⟩ := by
  by_cases heven : s.blinky.count % 2 = 0
  · have hblinky := commanded_blinky hcommand
    have hlit := (h.lit_iff hcommand).mpr hrestored hblinks (by rw [hblinky]; exact heven)
    rcases ring_of_blinks hcommand hblinks heven with ⟨hring, hsaved⟩
    constructor
    · rw [← hlit, hring, hsaved]
      rfl
    · exact fun _ => hlit
  · rcases saved_of_blinks hcommand hblinks heven with ⟨hcount, hsaved⟩
    constructor
    · rw [hsaved, h.lit heven]
      rfl
    · intro hodd
      rw [hcount, ne_eq, sub_one_mod_two] at hodd
      exact absurd heven hodd

theorem Kept.step (h : Kept s picture phase) (hcommand : NoBlinkCommand cc s i)
    (hrestored : Restored cc (s, phase) i) :
    Kept (loop cc s i).1 (withoutBlink cc s i picture) ((phased cc).next (s, phase) i).2 := by
  show Kept _ _ (if blinks cc s i then _ else _)
  split_ifs with hblinks
  · exact h.blink hcommand hblinks hrestored
  · exact h.draw hcommand (Bool.eq_false_iff.mpr hblinks)

end Step

/-- In a run without blink commands the lit frames show the picture of the same
run without the blink frames exactly when what is drawn in each dark phase gives
the saved picture back. -/
theorem lit_iff_restored (s : Sketch exact) (inputs : List Input)
    (h : (sketch exact cc).Always (NoBlinkCommand cc) s inputs) :
    (compared cc exact).Always (Lit cc) (s, s.ring) inputs ↔
      (phased cc).Always (Restored cc) (s, Phase.start s) inputs := by
  have hcommands : (compared cc exact).Always (fun p i => NoBlinkCommand cc p.1 i) (s, s.ring)
      inputs := by
    have hnext (p : Sketch exact × Ring exact) (i : Input) :
        ((compared cc exact).next p i).1 = (sketch exact cc).next p.1 (id i) := rfl
    apply (Machine.always_part Prod.fst id hnext (P := NoBlinkCommand cc)).mpr
    rwa [List.map_id]
  rw [← Machine.always_pair_fst (compared cc exact) (phased cc)
    (p := ((s, s.ring), (s, Phase.start s)))] at hcommands ⊢
  rw [← Machine.always_pair_snd (compared cc exact) (phased cc)
    (p := ((s, s.ring), (s, Phase.start s)))]
  apply Machine.always_iff_of_guarded (fun p => p.1.1 = p.2.1 ∧ Kept p.1.1 p.1.2 p.2.2)
    (G := fun p i => NoBlinkCommand cc p.1.1 i)
  · rintro ⟨⟨s, picture⟩, s', phase⟩ i ⟨heq, hkept⟩ hcommand
    cases show s = s' from heq
    exact hkept.lit_iff hcommand
  · rintro ⟨⟨s, picture⟩, s', phase⟩ i ⟨heq, hkept⟩ hcommand hrestored
    cases show s = s' from heq
    exact ⟨rfl, hkept.step hcommand hrestored⟩
  · exact ⟨rfl, rfl, fun _ => rfl⟩
  · exact hcommands

/-- An iteration at one time, in which bytes arrive. -/
def arrive (ms : UInt32) (received : List UInt8) : Input := ⟨true, received, ms, ms, ms, 7⟩

/-- A Set All before the dark frame at 1000 ms.  Before the lit frame at 2000 ms
two Set Ones of which the second undoes the first, a rotation with two frames and
a jump with one, all of a ring with one colour. -/
def undoneWhileDark : List Input :=
  [arrive 0 ['A'.toUInt8, 1, 2, 3], arrive 500 [],
    arrive 1000 ['O'.toUInt8, 5, 9, 9, 9, 'O'.toUInt8, 5, 1, 2, 3, 'R'.toUInt8, 10, 5,
      'J'.toUInt8, 1, 3, 'R'.toUInt8, 0, 0],
    arrive 1100 [], arrive 1200 [], arrive 1300 [], arrive 1400 [], arrive 1450 [],
    arrive 1460 [], arrive 2000 []]

theorem lit_undoneWhileDark :
    (compared ⟨.indexFirst, id⟩ exact).Always (Lit ⟨.indexFirst, id⟩)
      ((setup exact).1, (setup exact).1.ring) undoneWhileDark :=
  (lit_iff_restored (setup exact).1 undoneWhileDark (by decide +kernel)).mpr (by decide +kernel)

/-- A Set All that arrives with the first dark frame. -/
def setWhileDark : List Input :=
  [⟨true, ['A'.toUInt8, 1, 2, 3], 0, 1000, 0, 0⟩, ⟨true, [], 0, 1500, 0, 0⟩,
    ⟨true, [], 0, 2000, 0, 0⟩]

/-- The lit frame shows the picture of `setup()`, and the Set All is lost. -/
theorem setWhileDark_lost :
    ¬ (compared ⟨.indexFirst, id⟩ exact).Always (Lit ⟨.indexFirst, id⟩)
      ((setup exact).1, (setup exact).1.ring) setWhileDark := by
  rintro ⟨-, -, hlit, -⟩
  have hpixel := congrFun (hlit (by decide) (by decide)) 1
  revert hpixel
  decide

end ArduinoProjects.BleRgb
