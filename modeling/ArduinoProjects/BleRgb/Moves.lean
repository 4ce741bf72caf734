import ArduinoProjects.BleRgb.Alone

/-!
# The number of moves

`R` and `J` ask for a number of moves.  `moves` is what that means: every call
that is due makes one move as long as there are some left, and no other call
does anything.

The sketch does the same until the moves have run out.  Then the rotation
divides by zero once more, and its quotient decides whether that call is due.
A jump stops when its count comes to zero, so a count that is zero already makes
256 moves.
-/

namespace ArduinoProjects.BleRgb

/-- A ring with moves that are left to make. -/
structure Moves (px : PixelStore) where
  ring : Ring px
  previousUpdateMs : UInt32
  left : Nat

/-- Moves at a speed, each by an amount.  The output is what is shown. -/
def moves (px : PixelStore) (speed : Int8) (currentMillis : Input → UInt32)
    (amount : Input → Int) : Machine (Moves px) Input (List (Ring px)) where
  step m i :=
    if 0 < m.left ∧ Due (intervalOf speed) (currentMillis i) m.previousUpdateMs then
      (⟨shift m.ring (amount i), currentMillis i, m.left - 1⟩, [shift m.ring (amount i)])
    else (m, [])

/-- A rotation moves one pixel in the direction of its speed. -/
def rotationMoves (px : PixelStore) (speed : Int8) : Machine (Moves px) Input (List (Ring px)) :=
  moves px speed Input.rotateMs fun _ => speed.toInt.sign

/-- A jump moves by a random number of pixels. -/
def jumpMoves (px : PixelStore) (speed : Int8) : Machine (Moves px) Input (List (Ring px)) :=
  moves px speed Input.aimMs fun i => i.random.val

variable {px : PixelStore} {cc : Compiler}

variable (cc) in
/-- The iteration leaves and shows the ring that the moves leave and show. -/
def Performs (m : Machine (Moves px) Input (List (Ring px))) (p : Sketch px × Moves px)
    (i : Input) : Prop :=
  ((sketch px cc).next p.1 i).ring = (m.next p.2 i).ring ∧
    ((sketch px cc).out p.1 i).frames = m.out p.2 i

section Moves

variable {speed : Int8} {currentMillis : Input → UInt32} {amount : Input → Int} {m : Moves px}
  {i : Input}

theorem moves_of_due (hleft : 0 < m.left)
    (hdue : Due (intervalOf speed) (currentMillis i) m.previousUpdateMs) :
    (moves px speed currentMillis amount).next m i =
        ⟨shift m.ring (amount i), currentMillis i, m.left - 1⟩ ∧
      (moves px speed currentMillis amount).out m i = [shift m.ring (amount i)] := by
  have hstep : (moves px speed currentMillis amount).step m i =
      (⟨shift m.ring (amount i), currentMillis i, m.left - 1⟩, [shift m.ring (amount i)]) :=
    if_pos ⟨hleft, hdue⟩
  exact ⟨congrArg Prod.fst hstep, congrArg Prod.snd hstep⟩

theorem moves_of_not
    (h : ¬ (0 < m.left ∧ Due (intervalOf speed) (currentMillis i) m.previousUpdateMs)) :
    (moves px speed currentMillis amount).next m i = m ∧
      (moves px speed currentMillis amount).out m i = [] := by
  have hstep : (moves px speed currentMillis amount).step m i = (m, []) := if_neg h
  exact ⟨congrArg Prod.fst hstep, congrArg Prod.snd hstep⟩

end Moves

variable (cc) in
/-- The animations of an iteration leave and show the ring that the moves leave
and show. -/
def Animates (m : Machine (Moves px) Input (List (Ring px))) (p : Sketch px × Moves px)
    (i : Input) : Prop :=
  (animate cc p.1 i).sketch.ring = (m.next p.2 i).ring ∧
    (if (animate cc p.1 i).frame then [(animate cc p.1 i).sketch.ring] else []) = m.out p.2 i

/-- An animation that is in step with the moves, as long as its calls meet a
condition, performs them in the runs without a command whose iterations all meet
the condition. -/
theorem always_performs_iff {m : Machine (Moves px) Input (List (Ring px))}
    (Sync : Sketch px × Moves px → Prop) (Ends : Sketch px → Input → Prop)
    (hrx : ∀ s moves rx, Sync (s, moves) → Sync ({ s with rx := rx }, moves))
    (hends : ∀ s i rx, Ends { s with rx := rx } i ↔ Ends s i)
    (hcall : ∀ s moves i, Sync (s, moves) → (Animates cc m (s, moves) i ↔ Ends s i) ∧
      (Ends s i → Sync ((animate cc s i).sketch, m.next moves i)))
    {p : Sketch px × Moves px} {inputs : List Input} (hinit : Sync p)
    (hquiet : (sketch px cc).Always (NoCommand cc) p.1 inputs) :
    ((sketch px cc).pair m).Always (Performs cc m) p inputs ↔
      (sketch px cc).Always Ends p.1 inputs := by
  rw [← Machine.always_pair_fst _ m] at hquiet
  rw [← Machine.always_pair_fst _ m]
  refine Machine.always_iff_of_guarded Sync (fun p i hsync hno => ?_)
    (fun p i hsync hno hend => ?_) hinit hquiet
  all_goals
    obtain ⟨rx, hcommanded⟩ := commanded_of_noCommand hno
    have hcall' := hcall { p.1 with rx := rx } p.2 i (hrx _ _ rx hsync)
    rw [hends, ← hcommanded] at hcall'
  · rw [← hcall'.1, Performs, show ((sketch px cc).out p.1 i).frames = _ from
      frames_of_noCommand hno]
    exact Iff.rfl
  · exact hcall'.2 hend

/-! ## Rotate -/

/-- The rotation has as many steps as there are moves left, or has stopped. -/
structure RotationSync (speed : Int8) (p : Sketch px × Moves px) : Prop where
  ring : p.1.ring = p.2.ring
  count : p.1.blinky.count = 0
  off : p.1.aimless.style = .off
  left : p.1.rotation.speed = 0 ∧ p.2.left = 0 ∨
    p.1.rotation.speed = speed ∧ p.1.rotation.steps.toNat = p.2.left ∧
      p.1.rotation.previousUpdateMs = p.2.previousUpdateMs

variable (cc) in
/-- The call that finds no steps left is not due by the quotient of its division
by zero. -/
def RotationEnds (s : Sketch px) (i : Input) : Prop :=
  s.rotation.speed ≠ 0 → s.rotation.steps = 0 →
    ¬ Due (cc.interval 0) i.rotateMs s.rotation.previousUpdateMs

section Rotation

variable {speed : Int8} {s : Sketch px} {m : Moves px} {i : Input}

/-- A rotation that has stopped keeps in step. -/
theorem RotationSync.animate_of_stopped (h : RotationSync speed (s, m))
    (hstopped : s.rotation.speed = 0) (hnone : m.left = 0) :
    Animates cc (rotationMoves px speed) (s, m) i ∧
      RotationSync speed ((BleRgb.animate cc s i).sketch, (rotationMoves px speed).next m i) := by
  obtain ⟨hring, hcount, hoff, _⟩ := h
  dsimp only at hring hcount hoff
  have hone := animate_of_rotation cc i hcount hoff
  obtain ⟨hnext, hout⟩ : (rotationMoves px speed).next m i = m ∧
      (rotationMoves px speed).out m i = [] := moves_of_not fun hgo => by omega
  rw [Animates, hone.1, hone.2, hnext, hout, rotate_of_stopped cc _ hstopped]
  exact ⟨⟨hring, rfl⟩, hring, hcount, hoff, .inl ⟨hstopped, hnone⟩⟩

/-- A call that finds no steps left keeps in step, unless its division by zero makes
it due. -/
theorem RotationSync.animate_of_no_steps (h : RotationSync speed (s, m))
    (hrun : s.rotation.speed ≠ 0) (hzero : s.rotation.steps = 0) (hnone : m.left = 0) :
    (Animates cc (rotationMoves px speed) (s, m) i ↔ RotationEnds cc s i) ∧
      (RotationEnds cc s i → RotationSync speed ((BleRgb.animate cc s i).sketch,
        (rotationMoves px speed).next m i)) := by
  obtain ⟨hring, hcount, hoff, _⟩ := h
  dsimp only at hring hcount hoff
  have hone := animate_of_rotation cc i hcount hoff
  obtain ⟨hnext, hout⟩ : (rotationMoves px speed).next m i = m ∧
      (rotationMoves px speed).out m i = [] := moves_of_not fun hgo => by omega
  obtain ⟨hframe, hspeed⟩ := rotate_of_no_steps cc i.rotateMs hrun hzero
  rw [Animates, hone.1, hone.2, hnext, hout]
  by_cases hdue : Due (cc.interval 0) i.rotateMs s.rotation.previousUpdateMs
  · rw [decide_eq_true hdue] at hframe
    refine ⟨iff_of_false (fun hsame => ?_) fun hend => hend hrun hzero hdue,
      fun hend => absurd hdue (hend hrun hzero)⟩
    have hshown := hsame.2
    rw [if_pos hframe] at hshown
    cases hshown
  · rw [decide_eq_false hdue] at hframe
    have hsame := rotate_ring_of_no_frame cc s hframe
    refine ⟨iff_of_true ⟨hsame.trans hring, if_neg (by rw [hframe]; decide)⟩ fun _ _ => hdue,
      fun _ => ⟨hsame.trans hring, ?_, ?_, .inl ⟨hspeed, hnone⟩⟩⟩
    · rw [rotate_blinky]
      exact hcount
    · rw [rotate_aimless]
      exact hoff

/-- A call that finds steps left keeps in step. -/
theorem RotationSync.animate_of_steps (h : RotationSync speed (s, m)) (hspeed : speed ≠ 0)
    (hrunning : s.rotation.speed = speed) (hne : s.rotation.steps ≠ 0)
    (hsteps : s.rotation.steps.toNat = m.left)
    (hprevious : s.rotation.previousUpdateMs = m.previousUpdateMs) :
    Animates cc (rotationMoves px speed) (s, m) i ∧
      RotationSync speed ((BleRgb.animate cc s i).sketch, (rotationMoves px speed).next m i) := by
  obtain ⟨hring, hcount, hoff, _⟩ := h
  dsimp only at hring hcount hoff
  have hone := animate_of_rotation cc i hcount hoff
  have hrun : s.rotation.speed ≠ 0 := by rwa [hrunning]
  have hinterval : cc.interval s.rotation.speed = intervalOf speed := by
    rw [cc.interval_eq hrun, hrunning]
  rw [Animates, hone.1, hone.2]
  by_cases hdue : Due (cc.interval s.rotation.speed) i.rotateMs s.rotation.previousUpdateMs
  · -- a move
    have hleft : 0 < m.left := by
      have hpos := toNat_ne_zero hne
      omega
    obtain ⟨hnext, hout⟩ : (rotationMoves px speed).next m i =
          ⟨shift m.ring speed.toInt.sign, i.rotateMs, m.left - 1⟩ ∧
        (rotationMoves px speed).out m i = [shift m.ring speed.toInt.sign] :=
      moves_of_due hleft (by rwa [hinterval, hprevious] at hdue)
    obtain ⟨hsketch, hframe⟩ := rotate_of_due hrun hne hdue
    have hdirection : (cc.direction s.rotation.speed).toInt = speed.toInt.sign := by
      rw [cc.direction_eq hrun, hrunning]
    rw [hdirection, hring] at hsketch
    rw [hnext, hout, hsketch, hframe]
    refine ⟨⟨rfl, rfl⟩, rfl, hcount, hoff, .inr ⟨hrunning, ?_, rfl⟩⟩
    show (s.rotation.steps - 1).toNat = m.left - 1
    rw [toNat_sub_one hne, hsteps]
  · -- a call that is not due
    obtain ⟨hnext, hout⟩ : (rotationMoves px speed).next m i = m ∧
        (rotationMoves px speed).out m i = [] :=
      moves_of_not fun hgo => hdue (by rw [hinterval, hprevious]; exact hgo.2)
    obtain ⟨hsketch, hframe⟩ := rotate_of_not_due hrun hne hdue
    rw [hnext, hout, hsketch, hframe]
    exact ⟨⟨hring, rfl⟩, hring, hcount, hoff, .inr ⟨hrunning, hsteps, hprevious⟩⟩

/-- A call of `rotate()` keeps in step, unless its division by zero makes it
due. -/
theorem RotationSync.animate (h : RotationSync speed (s, m)) (hspeed : speed ≠ 0) :
    (Animates cc (rotationMoves px speed) (s, m) i ↔ RotationEnds cc s i) ∧
      (RotationEnds cc s i → RotationSync speed ((BleRgb.animate cc s i).sketch,
        (rotationMoves px speed).next m i)) := by
  rcases h.left with ⟨hstopped, hnone⟩ | ⟨hrunning, hsteps, hprevious⟩
  · obtain ⟨hanimates, hsync⟩ := h.animate_of_stopped hstopped hnone
    exact ⟨iff_of_true hanimates fun hrun => absurd hstopped hrun, fun _ => hsync⟩
  dsimp only at hrunning hsteps hprevious
  by_cases hzero : s.rotation.steps = 0
  · have hnone : m.left = 0 := by
      rw [← hsteps, hzero]
      rfl
    exact h.animate_of_no_steps (by rwa [hrunning]) hzero hnone
  · obtain ⟨hanimates, hsync⟩ := h.animate_of_steps hspeed hrunning hzero hsteps hprevious
    exact ⟨iff_of_true hanimates fun _ hsteps' => absurd hsteps' hzero, fun _ => hsync⟩

end Rotation

/-! ## Jump -/

/-- The jump has its count as moves left, and that is not zero, or it has
stopped. -/
structure JumpSync (speed : Int8) (p : Sketch px × Moves px) : Prop where
  ring : p.1.ring = p.2.ring
  stopped : p.1.rotation.speed = 0
  count : p.1.blinky.count = 0
  left : p.1.aimless.style = .off ∧ p.2.left = 0 ∨
    p.1.aimless.style = .jump ∧ p.1.aimless.speed = speed ∧ p.1.aimless.count ≠ 0 ∧
      p.1.aimless.count.toNat = p.2.left ∧
      p.1.aimless.previousUpdateMs = p.2.previousUpdateMs

/-- The jump is about to start with a count of zero. -/
structure JumpZero (speed : Int8) (previousUpdateMs : UInt32) (p : Sketch px × Moves px) :
    Prop where
  ring : p.1.ring = p.2.ring
  stopped : p.1.rotation.speed = 0
  count : p.1.blinky.count = 0
  aimless : p.1.aimless = ⟨.jump, previousUpdateMs, speed, 0⟩
  left : p.2.left = 0

section Jump

variable {speed : Int8} {s : Sketch px} {m : Moves px} {i : Input}

theorem aim_of_jump {ms : UInt32} {random : Fin LED_COUNT} (hjump : s.aimless.style = .jump) :
    aim cc s ms random = jumpAround cc s ms random := by
  unfold aim
  rw [hjump]

/-- A jump that has stopped keeps in step. -/
theorem JumpSync.animate_of_off (h : JumpSync speed (s, m)) (hoff : s.aimless.style = .off)
    (hnone : m.left = 0) :
    Animates cc (jumpMoves px speed) (s, m) i ∧
      JumpSync speed ((BleRgb.animate cc s i).sketch, (jumpMoves px speed).next m i) := by
  obtain ⟨hring, hstopped, hcount, _⟩ := h
  dsimp only at hring hstopped hcount
  have hone := animate_of_aimless cc i hstopped hcount
  obtain ⟨hnext, hout⟩ : (jumpMoves px speed).next m i = m ∧
      (jumpMoves px speed).out m i = [] := moves_of_not fun hgo => by omega
  rw [Animates, hone.1, hone.2, hnext, hout, aim_of_off cc _ _ hoff]
  exact ⟨⟨hring, rfl⟩, hring, hstopped, hcount, .inl ⟨hoff, hnone⟩⟩

/-- A call of `jumpAround()` keeps in step. -/
theorem JumpSync.animate (h : JumpSync speed (s, m)) (hspeed : speed ≠ 0) :
    Animates cc (jumpMoves px speed) (s, m) i ∧
      JumpSync speed ((BleRgb.animate cc s i).sketch, (jumpMoves px speed).next m i) := by
  rcases h.left with ⟨hoff, hnone⟩ | ⟨hjump, hjumping, hne, hmoves, hprevious⟩
  · exact h.animate_of_off hoff hnone
  obtain ⟨hring, hstopped, hcount, _⟩ := h
  dsimp only at hring hstopped hcount hjump hjumping hne hmoves hprevious
  have hone := animate_of_aimless cc i hstopped hcount
  have hinterval : cc.interval s.aimless.speed = intervalOf speed := by
    rw [cc.interval_eq (by rwa [hjumping]), hjumping]
  rw [Animates, hone.1, hone.2, aim_of_jump hjump]
  by_cases hdue : Due (cc.interval s.aimless.speed) i.aimMs s.aimless.previousUpdateMs
  · -- a move
    have hleft : 0 < m.left := by
      have hpos := toNat_ne_zero hne
      omega
    have hsub : (s.aimless.count - 1).toNat = m.left - 1 := by
      rw [toNat_sub_one hne, hmoves]
    obtain ⟨hnext, hout⟩ : (jumpMoves px speed).next m i =
          ⟨shift m.ring i.random.val, i.aimMs, m.left - 1⟩ ∧
        (jumpMoves px speed).out m i = [shift m.ring i.random.val] :=
      moves_of_due hleft (by rwa [hinterval, hprevious] at hdue)
    obtain ⟨hsketch, hframe⟩ := jumpAround_of_due i.random hdue
    rw [hring] at hsketch
    rw [hnext, hout, hsketch, hframe]
    refine ⟨⟨rfl, rfl⟩, rfl, hstopped, hcount, ?_⟩
    by_cases hlast : s.aimless.count - 1 = 0
    · have hnone : m.left - 1 = 0 := by
        rw [← hsub, hlast]
        rfl
      exact .inl ⟨if_pos hlast, hnone⟩
    · exact .inr ⟨(if_neg hlast).trans hjump, hjumping, hlast, hsub, rfl⟩
  · -- a call that is not due
    obtain ⟨hnext, hout⟩ : (jumpMoves px speed).next m i = m ∧
        (jumpMoves px speed).out m i = [] :=
      moves_of_not fun hgo => hdue (by rw [hinterval, hprevious]; exact hgo.2)
    obtain ⟨hsketch, hframe⟩ := jumpAround_of_not_due i.random hdue
    rw [hnext, hout, hsketch, hframe]
    exact ⟨⟨hring, rfl⟩, hring, hstopped, hcount, .inr ⟨hjump, hjumping, hne, hmoves, hprevious⟩⟩

/-- A count of zero makes a move as soon as it is due. -/
theorem JumpZero.animate {previousUpdateMs : UInt32} (h : JumpZero speed previousUpdateMs (s, m))
    (hspeed : speed ≠ 0) :
    (Animates cc (jumpMoves px speed) (s, m) i ↔
        ¬ Due (intervalOf speed) i.aimMs previousUpdateMs) ∧
      (¬ Due (intervalOf speed) i.aimMs previousUpdateMs →
        JumpZero speed previousUpdateMs ((BleRgb.animate cc s i).sketch,
          (jumpMoves px speed).next m i)) := by
  obtain ⟨hring, hstopped, hcount, haimless, hleft⟩ := h
  dsimp only at hring hstopped hcount haimless hleft
  have hone := animate_of_aimless cc i hstopped hcount
  have hinterval : cc.interval s.aimless.speed = intervalOf speed := by
    rw [haimless, cc.interval_eq hspeed]
  obtain ⟨hnext, hout⟩ : (jumpMoves px speed).next m i = m ∧
      (jumpMoves px speed).out m i = [] := moves_of_not fun hgo => by omega
  rw [Animates, hone.1, hone.2, aim_of_jump (by rw [haimless]), hnext, hout]
  have hdue' : Due (intervalOf speed) i.aimMs previousUpdateMs =
      Due (cc.interval s.aimless.speed) i.aimMs s.aimless.previousUpdateMs := by
    rw [hinterval, haimless]
  by_cases hdue : Due (intervalOf speed) i.aimMs previousUpdateMs
  · obtain ⟨-, hframe⟩ := jumpAround_of_due i.random (hdue' ▸ hdue)
    refine ⟨iff_of_false (fun hsame => ?_) fun hnot => hnot hdue, fun hnot => absurd hdue hnot⟩
    have hshown := hsame.2
    rw [if_pos hframe] at hshown
    cases hshown
  · obtain ⟨hsketch, hframe⟩ := jumpAround_of_not_due i.random (hdue' ▸ hdue)
    rw [hsketch, hframe]
    exact ⟨iff_of_true ⟨hring, rfl⟩ hdue, fun _ => ⟨hring, hstopped, hcount, haimless, hleft⟩⟩

end Jump

/-! ## Commands -/

/-- The sketch after `R`, and the moves that it asks for. -/
def rotateFrom (s : Sketch px) (speed count : UInt8) : Sketch px × Moves px :=
  ((Command.rotate speed.toNat count.toNat).execute s,
    ⟨s.ring, s.rotation.previousUpdateMs, count.toNat⟩)

/-- The sketch after `J`, and the moves that it asks for. -/
def jumpFrom (s : Sketch px) (speed count : UInt8) : Sketch px × Moves px :=
  ((Command.jump speed.toNat count.toNat).execute s,
    ⟨s.ring, s.aimless.previousUpdateMs, count.toNat⟩)

variable {s : Sketch px} {speed count : UInt8} {inputs : List Input}

theorem rotate_performs_iff (hspeed : speed ≠ 0) (hcount : s.blinky.count = 0)
    (hoff : s.aimless.style = .off)
    (hquiet : (sketch px cc).Always (NoCommand cc) (rotateFrom s speed count).1 inputs) :
    ((sketch px cc).pair (rotationMoves px (.ofInt speed.toNat))).Always
        (Performs cc (rotationMoves px (.ofInt speed.toNat))) (rotateFrom s speed count) inputs ↔
      (sketch px cc).Always (RotationEnds cc) (rotateFrom s speed count).1 inputs := by
  have hsteps : (UInt8.ofInt (count.toNat : Int)).toNat = count.toNat := by rw [ofInt_byte]
  exact always_performs_iff (RotationSync (.ofInt speed.toNat)) (RotationEnds cc)
    (fun _ _ _ h => ⟨h.ring, h.count, h.off, h.left⟩) (fun _ _ _ => Iff.rfl)
    (fun _ _ _ h => h.animate (speed_ne_zero hspeed))
    ⟨rfl, hcount, hoff, .inr ⟨rfl, hsteps, rfl⟩⟩ hquiet

theorem jump_performs_iff (hspeed : speed ≠ 0) (hstopped : s.rotation.speed = 0)
    (hcount : s.blinky.count = 0)
    (hquiet : (sketch px cc).Always (NoCommand cc) (jumpFrom s speed count).1 inputs) :
    ((sketch px cc).pair (jumpMoves px (.ofInt speed.toNat))).Always
        (Performs cc (jumpMoves px (.ofInt speed.toNat))) (jumpFrom s speed count) inputs ↔
      (count ≠ 0 ∨ ∀ i ∈ inputs,
        ¬ Due (intervalOf (.ofInt speed.toNat)) i.aimMs s.aimless.previousUpdateMs) := by
  have hmoves : (jumpFrom s speed count).1.aimless.count = count := ofInt_byte count
  by_cases hzero : count = 0
  · subst hzero
    rw [always_performs_iff (JumpZero (.ofInt speed.toNat) s.aimless.previousUpdateMs)
      (fun _ i => ¬ Due (intervalOf (.ofInt speed.toNat)) i.aimMs s.aimless.previousUpdateMs)
      (fun _ _ _ h => ⟨h.ring, h.stopped, h.count, h.aimless, h.left⟩) (fun _ _ _ => Iff.rfl)
      (fun _ _ _ h => h.animate (speed_ne_zero hspeed))
      ⟨rfl, hstopped, hcount, rfl, rfl⟩ hquiet, Machine.always_iff_forall_mem]
    simp
  · refine iff_of_true ?_ (.inl hzero)
    rw [always_performs_iff (JumpSync (.ofInt speed.toNat)) (fun _ _ => True)
      (fun _ _ _ h => ⟨h.ring, h.stopped, h.count, h.left⟩) (fun _ _ _ => Iff.rfl)
      (fun _ _ _ h => ⟨iff_of_true (h.animate (speed_ne_zero hspeed)).1 trivial,
        fun _ => (h.animate (speed_ne_zero hspeed)).2⟩)
      ⟨rfl, hstopped, hcount, .inr ⟨rfl, rfl, by rwa [hmoves], by rw [hmoves]; rfl, rfl⟩⟩ hquiet]
    exact Machine.always_of_forall fun _ _ => trivial

/-- `R` and `J` perform the moves that they ask for, in every run without
another command or animation: `R` exactly when the division by zero after the
last step does not make that call due, and `J` exactly when its count is not
zero or it is never due. -/
theorem performs_iff (cc : Compiler) (s : Sketch px) (speed count : UInt8)
    (inputs : List Input) (hspeed : speed ≠ 0) (hcount : s.blinky.count = 0) :
    (s.aimless.style = .off →
      (sketch px cc).Always (NoCommand cc) (rotateFrom s speed count).1 inputs →
      (((sketch px cc).pair (rotationMoves px (.ofInt speed.toNat))).Always
          (Performs cc (rotationMoves px (.ofInt speed.toNat))) (rotateFrom s speed count) inputs ↔
        (sketch px cc).Always (RotationEnds cc) (rotateFrom s speed count).1 inputs)) ∧
    (s.rotation.speed = 0 →
      (sketch px cc).Always (NoCommand cc) (jumpFrom s speed count).1 inputs →
      (((sketch px cc).pair (jumpMoves px (.ofInt speed.toNat))).Always
          (Performs cc (jumpMoves px (.ofInt speed.toNat))) (jumpFrom s speed count) inputs ↔
        (count ≠ 0 ∨ ∀ i ∈ inputs,
          ¬ Due (intervalOf (.ofInt speed.toNat)) i.aimMs s.aimless.previousUpdateMs))) :=
  ⟨fun hoff hquiet => rotate_performs_iff hspeed hcount hoff hquiet,
    fun hstopped hquiet => jump_performs_iff hspeed hstopped hcount hquiet⟩

/-- The sketch after `B` with a count of zero, right after `setup()`. -/
def unblinking : Sketch ledStore :=
  (sketch ledStore ⟨.indexFirst, id⟩).run (setup ledStore).1
    [⟨true, ['B'.toUInt8, 1, 0], 0, 0, 0, 0⟩, ⟨true, [], 0, 0, 0, 0⟩]

/-- An iteration in which the rotation and the jump are due. -/
def dueOnce : List Input := [⟨true, [], 1000, 0, 1000, 3⟩]

theorem unblinking_performs :
    (((sketch ledStore ⟨.indexFirst, id⟩).pair (rotationMoves ledStore (.ofInt 1))).Always
        (Performs ⟨.indexFirst, id⟩ (rotationMoves ledStore (.ofInt 1)))
        (rotateFrom unblinking 1 2) dueOnce ↔
      (sketch ledStore ⟨.indexFirst, id⟩).Always (RotationEnds ⟨.indexFirst, id⟩)
        (rotateFrom unblinking 1 2).1 dueOnce) ∧
    (((sketch ledStore ⟨.indexFirst, id⟩).pair (jumpMoves ledStore (.ofInt 1))).Always
        (Performs ⟨.indexFirst, id⟩ (jumpMoves ledStore (.ofInt 1))) (jumpFrom unblinking 1 2) dueOnce ↔
      ((2 : UInt8) ≠ 0 ∨ ∀ i ∈ dueOnce,
        ¬ Due (intervalOf (.ofInt 1)) i.aimMs unblinking.aimless.previousUpdateMs)) := by
  have hboth := performs_iff ⟨.indexFirst, id⟩ unblinking 1 2 dueOnce (by decide) (by decide)
  exact ⟨hboth.1 (by decide) ⟨rfl, trivial⟩, hboth.2 (by decide) ⟨rfl, trivial⟩⟩

/-- A jump with a count of zero moves. -/
theorem jump_zero_moves :
    ¬ ((sketch ledStore ⟨.indexFirst, id⟩).pair (jumpMoves ledStore (.ofInt 1))).Always
      (Performs ⟨.indexFirst, id⟩ (jumpMoves ledStore (.ofInt 1))) (jumpFrom unblinking 1 0)
      dueOnce := by
  intro h
  have hshown := congrArg List.length h.1.2
  revert hshown
  decide

end ArduinoProjects.BleRgb
