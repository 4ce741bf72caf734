import ArduinoProjects.BleRgb.Basic

/-!
# What the animations change

Each animation has its own part of the state and shares the ring with the
others.  The lemmas say what a call leaves alone, when it makes a frame and
what it divides by, so that later proofs do not unfold the animations.
-/

namespace ArduinoProjects.BleRgb

variable {px : PixelStore} (cc : Compiler) (s : Sketch px)

/-! ## The parts that are left alone -/

@[simp] theorem rotate_rx (ms : UInt32) : (rotate cc s ms).sketch.rx = s.rx := by
  unfold rotate
  dsimp only
  split_ifs <;> rfl

@[simp] theorem rotate_blinky (ms : UInt32) : (rotate cc s ms).sketch.blinky = s.blinky := by
  unfold rotate
  dsimp only
  split_ifs <;> rfl

@[simp] theorem rotate_aimless (ms : UInt32) : (rotate cc s ms).sketch.aimless = s.aimless := by
  unfold rotate
  dsimp only
  split_ifs <;> rfl

@[simp] theorem flash_rx (ms : UInt32) : (flash cc s ms).sketch.rx = s.rx := by
  unfold flash
  dsimp only
  split_ifs <;> rfl

@[simp] theorem flash_aimless (ms : UInt32) : (flash cc s ms).sketch.aimless = s.aimless := by
  unfold flash
  dsimp only
  split_ifs <;> rfl

@[simp] theorem flash_rotation (ms : UInt32) :
    (flash cc s ms).sketch.rotation = s.rotation := by
  unfold flash
  dsimp only
  split_ifs <;> rfl

@[simp] theorem aim_rx (ms : UInt32) (random : Fin LED_COUNT) :
    (aim cc s ms random).sketch.rx = s.rx := by
  unfold aim spinRoulette jumpAround
  dsimp only
  split <;> (try split_ifs) <;> rfl

@[simp] theorem aim_blinky (ms : UInt32) (random : Fin LED_COUNT) :
    (aim cc s ms random).sketch.blinky = s.blinky := by
  unfold aim spinRoulette jumpAround
  dsimp only
  split <;> (try split_ifs) <;> rfl

@[simp] theorem aim_rotation (ms : UInt32) (random : Fin LED_COUNT) :
    (aim cc s ms random).sketch.rotation = s.rotation := by
  unfold aim spinRoulette jumpAround
  dsimp only
  split <;> (try split_ifs) <;> rfl

/-! ## Divisors -/

theorem rotate_divisors (ms : UInt32) :
    (rotate cc s ms).divisors =
      if s.rotation.speed = 0 then []
      else if s.rotation.steps = 0 then [0, 0]
      else [|s.rotation.speed.toInt|, |s.rotation.speed.toInt|] := by
  unfold rotate
  dsimp only
  split_ifs <;> rfl

theorem flash_divisors (ms : UInt32) :
    (flash cc s ms).divisors =
      if s.blinky.count = 0 then [] else [s.blinky.speed.toInt] := by
  unfold flash
  dsimp only
  split_ifs <;> rfl

theorem spinRoulette_divisors (ms : UInt32) :
    (spinRoulette cc s ms).divisors =
      [|s.aimless.speed.toInt|, |s.aimless.speed.toInt|] := by
  unfold spinRoulette
  dsimp only
  split_ifs <;> rfl

theorem jumpAround_divisors (ms : UInt32) (random : Fin LED_COUNT) :
    (jumpAround cc s ms random).divisors = [|s.aimless.speed.toInt|] := by
  unfold jumpAround
  dsimp only
  split_ifs <;> rfl

theorem aim_divisors (ms : UInt32) (random : Fin LED_COUNT) :
    (aim cc s ms random).divisors =
      match s.aimless.style with
      | .off => []
      | .roulette => [|s.aimless.speed.toInt|, |s.aimless.speed.toInt|]
      | .jump => [|s.aimless.speed.toInt|] := by
  cases hstyle : s.aimless.style with
  | off => simp [aim, hstyle]
  | roulette => simp [aim, hstyle, spinRoulette_divisors]
  | jump => simp [aim, hstyle, jumpAround_divisors]

/-! ## Calls without a frame -/

theorem rotate_ring_of_no_frame {ms : UInt32} (h : (rotate cc s ms).frame = false) :
    (rotate cc s ms).sketch.ring = s.ring := by
  revert h
  unfold rotate
  dsimp only
  split_ifs <;> simp

theorem flash_of_no_frame {ms : UInt32} (h : (flash cc s ms).frame = false) :
    (flash cc s ms).sketch = s := by
  revert h
  unfold flash
  dsimp only
  split_ifs <;> simp

/-! ## Blink frames -/

variable {cc s} in
theorem count_ne_zero_of_flash {ms : UInt32} (h : (flash cc s ms).frame = true) :
    s.blinky.count ≠ 0 := by
  intro hcount
  unfold flash at h
  rw [if_pos hcount] at h
  cases h

variable {s} in
/-- The blink makes a frame as soon as its interval has passed. -/
theorem flash_frame_of_interval (h : s.blinky.count ≠ 0) :
    (flash cc s (s.blinky.previousUpdateMs + cc.blinkInterval s.blinky.speed)).frame = true := by
  have hdue : Due (cc.blinkInterval s.blinky.speed)
      (s.blinky.previousUpdateMs + cc.blinkInterval s.blinky.speed)
      s.blinky.previousUpdateMs := by
    rw [Due, UInt32.add_comm, UInt32.add_sub_cancel]
    exact UInt32.le_refl _
  unfold flash
  dsimp only
  rw [if_neg h, if_pos hdue]
  split_ifs <;> rfl

variable {cc s} in
/-- A blink frame with an odd count. -/
theorem flash_of_odd {ms : UInt32} (h : (flash cc s ms).frame = true)
    (hodd : s.blinky.count % 2 ≠ 0) :
    (flash cc s ms).sketch =
      { s with
        ring := setAll s.ring (Color 0 0 0)
        blinky := ⟨ms, s.blinky.speed, s.blinky.count - 1, getEach s.ring⟩ } := by
  revert h
  unfold flash
  dsimp only
  rw [if_neg hodd]
  split_ifs <;> simp

variable {cc s} in
/-- A blink frame with an even count. -/
theorem flash_of_even {ms : UInt32} (h : (flash cc s ms).frame = true)
    (heven : s.blinky.count % 2 = 0) :
    (flash cc s ms).sketch =
      { s with
        ring := setEach s.ring s.blinky.saved
        blinky := ⟨ms, s.blinky.speed, s.blinky.count - 1, s.blinky.saved⟩ } := by
  revert h
  unfold flash
  dsimp only
  rw [if_pos heven]
  split_ifs <;> simp

variable {cc s} in
/-- A blink frame sets the clock and counts down. -/
theorem flash_blinky_of_frame {ms : UInt32} (h : (flash cc s ms).frame = true) :
    (flash cc s ms).sketch.blinky.previousUpdateMs = ms ∧
      (flash cc s ms).sketch.blinky.speed = s.blinky.speed ∧
      (flash cc s ms).sketch.blinky.count = s.blinky.count - 1 := by
  by_cases heven : s.blinky.count % 2 = 0
  · rw [flash_of_even h heven]
    exact ⟨rfl, rfl, rfl⟩
  · rw [flash_of_odd h heven]
    exact ⟨rfl, rfl, rfl⟩

theorem mod_two_eq_zero_iff (count : UInt8) : count % 2 = 0 ↔ count.toNat % 2 = 0 := by
  have hmod : (count % 2).toNat = count.toNat % 2 := UInt8.toNat_mod count 2
  rw [← UInt8.toNat_inj, hmod, UInt8.toNat_zero]

/-- An odd count is followed by an even one, and an even one by an odd one. -/
theorem sub_one_mod_two (count : UInt8) : (count - 1) % 2 = 0 ↔ count % 2 ≠ 0 := by
  have hsub : (count - 1).toNat = (255 + count.toNat) % 256 := UInt8.toNat_sub count 1
  rw [ne_eq, mod_two_eq_zero_iff, mod_two_eq_zero_iff, hsub]
  omega

/-- The picture that the blink saves, put back over the dark ring. -/
def blinked (ring : Ring px) : Ring px :=
  setEach (setAll ring (Color 0 0 0)) (getEach ring)

variable {cc s} in
/-- Two blink frames one after the other, the first with an odd count. -/
theorem flash_flash_ring {ms ms' : UInt32} (h : (flash cc s ms).frame = true)
    (hodd : s.blinky.count % 2 ≠ 0)
    (h' : (flash cc (flash cc s ms).sketch ms').frame = true) :
    (flash cc (flash cc s ms).sketch ms').sketch.ring = blinked s.ring := by
  rw [flash_of_odd h hodd] at h' ⊢
  rw [flash_of_even h' ((sub_one_mod_two _).mpr hodd)]
  rfl

variable {cc s} {i : Input}

/-! ## The command of an iteration -/

/-- What the receive queue has no part in and the command keeps holds after the
command. -/
theorem commanded_of_execute {P : Sketch px → Prop} (hqueue : ∀ s rx, P s → P { s with rx := rx })
    (h : P s) (hexecute : ∀ c, (nextCommand cc s i).1 = some c → P (c.execute s)) :
    P (commanded cc s i) := by
  unfold commanded
  dsimp only
  cases hc : (nextCommand cc s i).1 with
  | none => exact hqueue _ _ h
  | some c => exact hqueue _ _ (hexecute c hc)

/-! ## The three chances of an iteration -/

theorem animate_of_rotate (h : (rotate cc s i.rotateMs).frame = true) :
    animate cc s i = rotate cc s i.rotateMs := by
  unfold animate
  dsimp only
  rw [if_pos h]

theorem animate_of_flash (h : (rotate cc s i.rotateMs).frame = false)
    (h' : (flash cc (rotate cc s i.rotateMs).sketch i.flashMs).frame = true) :
    (animate cc s i).sketch = (flash cc (rotate cc s i.rotateMs).sketch i.flashMs).sketch ∧
      (animate cc s i).frame = true := by
  unfold animate
  dsimp only
  rw [if_neg (by rw [h]; decide), if_pos h']
  exact ⟨rfl, h'⟩

theorem animate_of_aim (h : (rotate cc s i.rotateMs).frame = false)
    (h' : (flash cc (rotate cc s i.rotateMs).sketch i.flashMs).frame = false) :
    (animate cc s i).sketch =
        (aim cc (rotate cc s i.rotateMs).sketch i.aimMs i.random).sketch ∧
      (animate cc s i).frame =
        (aim cc (rotate cc s i.rotateMs).sketch i.aimMs i.random).frame := by
  have hflash := flash_of_no_frame cc _ h'
  unfold animate
  dsimp only
  rw [if_neg (by rw [h]; decide), if_neg (by rw [h']; decide), hflash]
  exact ⟨rfl, rfl⟩

/-- The divisors of the animations that are called. -/
theorem animate_divisors (cc : Compiler) (s : Sketch px) (i : Input) :
    (animate cc s i).divisors =
      let r := rotate cc s i.rotateMs
      let f := flash cc r.sketch i.flashMs
      r.divisors ++ if r.frame then [] else f.divisors ++
        if f.frame then [] else (aim cc r.sketch i.aimMs i.random).divisors := by
  unfold animate
  dsimp only
  split_ifs with hr hf
  · exact (List.append_nil _).symm
  · rw [List.append_nil]
  · rw [flash_of_no_frame cc _ (by simpa using hf), List.append_assoc]

@[simp] theorem animate_rx (cc : Compiler) (s : Sketch px) (i : Input) :
    (animate cc s i).sketch.rx = s.rx := by
  unfold animate
  dsimp only
  split_ifs <;> simp

end ArduinoProjects.BleRgb
