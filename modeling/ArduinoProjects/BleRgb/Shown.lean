import ArduinoProjects.BleRgb.Animations

/-!
# The ring shows the pixel buffer

Drawing changes the pixel buffer, and `ring.show()` sends it to the pixels.
`loop` shows the buffer after the two commands that draw, and after the first
animation that answers `true`.

`framesShown` are the frames since `setup()`, and `framesShown_last` says that the last
of them is the pixel buffer after every iteration.
-/

namespace ArduinoProjects.BleRgb

variable {px : PixelStore} {cc : Compiler} {s : Sketch px} {i : Input}

/-! ## Changes without a frame -/

theorem aim_ring_of_no_frame {ms : UInt32} {random : Fin LED_COUNT}
    (h : (aim cc s ms random).frame = false) : (aim cc s ms random).sketch.ring = s.ring := by
  revert h
  unfold aim spinRoulette jumpAround
  dsimp only
  cases s.aimless.style with
  | off => simp
  | roulette => split_ifs <;> simp
  | jump => split_ifs <;> simp

/-- The animations draw nothing without a frame. -/
theorem animate_ring_of_no_frame (h : (animate cc s i).frame = false) :
    (animate cc s i).sketch.ring = s.ring := by
  cases hr : (rotate cc s i.rotateMs).frame with
  | true =>
    rw [animate_of_rotate hr, hr] at h
    cases h
  | false =>
    have hring := rotate_ring_of_no_frame cc s hr
    cases hf : (flash cc (rotate cc s i.rotateMs).sketch i.flashMs).frame with
    | true =>
      rw [(animate_of_flash hr hf).2] at h
      cases h
    | false =>
      obtain ⟨hsketch, hframe⟩ := animate_of_aim hr hf
      rw [hframe] at h
      rw [hsketch, aim_ring_of_no_frame h, hring]

/-- A command that is not shown draws nothing. -/
theorem commanded_ring_of_not_shows
    (h : (nextCommand cc s i).1.any Command.shows = false) :
    (commanded cc s i).ring = s.ring := by
  apply commanded_of_execute (P := fun t => t.ring = s.ring) (fun _ _ hs => hs) rfl
  intro c hc
  rw [hc] at h
  cases c with
  | setOne i R G B => cases h
  | setAll R G B => cases h
  | _ => rfl

/-! ## Runs -/

/-- What an iteration shows last is the buffer that it leaves. -/
theorem loop_shows (cc : Compiler) (s : Sketch px) (i : Input) :
    (loop cc s i).2.frames.getLast?.getD s.ring = (loop cc s i).1.ring := by
  have hframes : (loop cc s i).2.frames =
      (if (nextCommand cc s i).1.any Command.shows then [(commanded cc s i).ring] else []) ++
        (if (animate cc (commanded cc s i) i).frame then
          [(animate cc (commanded cc s i) i).sketch.ring] else []) := rfl
  have hring : (loop cc s i).1.ring = (animate cc (commanded cc s i) i).sketch.ring := rfl
  rw [hframes, hring]
  cases ha : (animate cc (commanded cc s i) i).frame with
  | true => simp
  | false =>
    rw [animate_ring_of_no_frame ha]
    cases hc : (nextCommand cc s i).1.any Command.shows with
    | true => rfl
    | false => exact (commanded_ring_of_not_shows hc).symm

/-- The frames since power-up, oldest first. -/
def framesShown (px : PixelStore) (cc : Compiler) (inputs : List Input) : List (Ring px) :=
  (setup px).2 ++ ((sketch px cc).trace (setup px).1 inputs).flatMap Output.frames

/-- The frame that was shown last is the pixel buffer. -/
theorem framesShown_last (px : PixelStore) (cc : Compiler) (inputs : List Input) :
    (framesShown px cc inputs).getLast? = some ((sketch px cc).run (setup px).1 inputs).ring := by
  have hlast := Machine.getLast?_emitted (m := sketch px cc) Sketch.ring Output.frames
    (loop_shows cc) (setup px).1 inputs
  rw [← hlast, framesShown, List.getLast?_append]
  cases (((sketch px cc).trace (setup px).1 inputs).flatMap Output.frames).getLast? <;> rfl

end ArduinoProjects.BleRgb
