import ArduinoProjects.BleRgb.Alone
import ArduinoProjects.BleRgb.Shown
import ArduinoProjects.Lib.Schedule

/-!
# The phases of a blink

A blink is to turn the ring off and on again, so the frames of a blink with
count `n` are `n` pictures that alternate between the dark ring and the picture
from before, the dark ring first.

The sketch counts down, and reads from the parity of the count whether the next
frame is a dark one.  With an odd count the first frame is dark and the picture
is saved.  With an even count the first frame shows what an earlier blink has
saved.

`pending` are the frames that a state has still to show.  An iteration takes the
first of them when it makes a frame.
-/

namespace ArduinoProjects.BleRgb

/-- `n` pictures, alternately the first and the second one. -/
def alternate {α : Type} : Nat → α → α → List α
  | 0, _, _ => []
  | n + 1, a, b => a :: alternate n b a

theorem getLast?_alternate {α : Type} (n : Nat) (a b : α) :
    (alternate n a b).getLast?.getD b = if n % 2 = 0 then b else a := by
  induction n generalizing a b with
  | zero => rfl
  | succ n ih =>
    have hrest := ih b a
    rw [alternate, List.getLast?_cons, Option.getD_some, hrest]
    split_ifs <;> first | rfl | omega

theorem alternate_eq_iff {α : Type} {n : Nat} (h : 2 ≤ n) {a b c d : α} :
    alternate n a b = alternate n c d ↔ a = c ∧ b = d := by
  constructor
  · intro heq
    obtain ⟨m, rfl⟩ : ∃ m, n = m + 2 := ⟨n - 2, by omega⟩
    rw [alternate, alternate, alternate, alternate, List.cons.injEq, List.cons.injEq] at heq
    exact ⟨heq.1, heq.2.1⟩
  · rintro ⟨rfl, rfl⟩
    rfl

/-- The ring with all pixels off. -/
def dark : Ring exact := fun _ => 0

theorem setAll_off (ring : Ring exact) : setAll ring (Color 0 0 0) = dark :=
  funext fun p => setAll_apply ring _ p

/-- The frames that the blink has still to show. -/
def pending (s : Sketch exact) : List (Ring exact) :=
  if s.blinky.count % 2 = 0 then alternate s.blinky.count.toNat s.blinky.saved dark
  else alternate s.blinky.count.toNat dark s.ring

/-! ## One iteration -/

/-- Only the blink may be running. -/
structure OnlyBlinks {px : PixelStore} (s : Sketch px) : Prop where
  stopped : s.rotation.speed = 0
  off : s.aimless.style = .off

section Step

variable {cc : Compiler} {s : Sketch exact} {i : Input}

/-- A blink frame is the next of the pending ones. -/
theorem flash_pending {ms : UInt32} (h : (flash cc s ms).frame = true) :
    (flash cc s ms).sketch.ring :: pending (flash cc s ms).sketch = pending s := by
  have hne := count_ne_zero_of_flash h
  have hsucc : s.blinky.count.toNat = (s.blinky.count - 1).toNat + 1 := by
    have hpos := toNat_ne_zero hne
    have hsub := toNat_sub_one hne
    omega
  by_cases heven : s.blinky.count % 2 = 0
  · have hodd : ¬ (s.blinky.count - 1) % 2 = 0 := by
      rw [sub_one_mod_two]
      exact fun hne => hne heven
    rw [flash_of_even h heven, pending, pending, if_pos heven, if_neg hodd, setEach_exact, hsucc]
    rfl
  · rw [flash_of_odd h heven, pending, pending, if_neg heven,
      if_pos ((sub_one_mod_two _).mpr heven), setAll_off, getEach_exact, hsucc]
    rfl

theorem flash_onlyBlinks (hblinks : OnlyBlinks s) (ms : UInt32) :
    OnlyBlinks (flash cc s ms).sketch := by
  constructor
  · rw [flash_rotation]
    exact hblinks.stopped
  · rw [flash_aimless]
    exact hblinks.off

/-- A blink frame counts down. -/
theorem flash_count {ms : UInt32} (h : (flash cc s ms).frame = true) :
    (flash cc s ms).sketch.blinky.count.toNat + 1 = s.blinky.count.toNat := by
  have hne := count_ne_zero_of_flash h
  have hpos := toNat_ne_zero hne
  have hsub := toNat_sub_one hne
  rw [(flash_blinky_of_frame h).2.2]
  omega

/-- What an iteration does whose only animation is the blink. -/
structure BlinkStep (cc : Compiler) (s : Sketch exact) (i : Input) : Prop where
  onlyBlinks : OnlyBlinks (loop cc s i).1
  pending : (loop cc s i).2.frames ++ pending (loop cc s i).1 = pending s
  count : (loop cc s i).1.blinky.count.toNat ≤ s.blinky.count.toNat
  due : FlashDue cc s i → (loop cc s i).1.blinky.count.toNat < s.blinky.count.toNat

theorem blinkStep (hno : NoCommand cc s i) (hblinks : OnlyBlinks s) : BlinkStep cc s i := by
  obtain ⟨rx, hcommanded⟩ := commanded_of_noCommand hno
  have hblinky : (commanded cc s i).blinky = s.blinky := by rw [hcommanded]
  have hpending : pending (commanded cc s i) = pending s := by
    rw [hcommanded]
    rfl
  have hblinks' : OnlyBlinks (commanded cc s i) := by
    rw [hcommanded]
    exact ⟨hblinks.stopped, hblinks.off⟩
  have hdue : (flash cc (commanded cc s i) i.flashMs).frame = true ↔ FlashDue cc s i := by
    rw [flash_frame_iff, FlashDue, FlashDue, hblinky]
  obtain ⟨hloop, hframes⟩ := loop_of_animate hno (animate_of_blink cc i hblinks'.stopped
    hblinks'.off)
  refine ⟨?_, ?_, ?_, fun hflash => ?_⟩
  · rw [hloop]
    exact flash_onlyBlinks hblinks' _
  · rw [hframes, hloop, ← hpending]
    split_ifs with h
    · exact flash_pending h
    · rw [flash_of_no_frame cc _ (by simpa using h)]
      rfl
  · rw [hloop, ← hblinky]
    cases h : (flash cc (commanded cc s i) i.flashMs).frame with
    | true => exact Nat.le_of_succ_le (flash_count h).le
    | false => rw [flash_of_no_frame cc _ h]
  · rw [hloop, ← hblinky]
    exact (flash_count (hdue.mpr hflash)).le

end Step

/-! ## Schedules -/

variable {cc : Compiler} {s : Sketch exact} {schedule : Nat → Input}

/-- The blink keeps becoming due until its count is zero. -/
def KeepsDue (cc : Compiler) (s : Sketch exact) (schedule : Nat → Input) : Prop :=
  ∀ k, ((sketch exact cc).after s schedule k).blinky.count ≠ 0 →
    ∃ j, k ≤ j ∧ FlashDue cc ((sketch exact cc).after s schedule j) (schedule j)

/-- No iteration of the schedule executes a command. -/
def Quiet (cc : Compiler) {px : PixelStore} (s : Sketch px) (schedule : Nat → Input) : Prop :=
  ∀ k, NoCommand cc ((sketch px cc).after s schedule k) (schedule k)

theorem after_onlyBlinks (hblinks : OnlyBlinks s) (hquiet : Quiet cc s schedule) (k : Nat) :
    OnlyBlinks ((sketch exact cc).after s schedule k) := by
  induction k with
  | zero => exact hblinks
  | succ k ih =>
    rw [Machine.after_succ]
    exact (blinkStep (hquiet k) ih).onlyBlinks

/-- What was shown and what is pending is what was pending at the start. -/
theorem emitted_pending (hblinks : OnlyBlinks s) (hquiet : Quiet cc s schedule) (k : Nat) :
    (sketch exact cc).emitted s schedule Output.frames k ++
      pending ((sketch exact cc).after s schedule k) = pending s := by
  induction k with
  | zero => rfl
  | succ k ih =>
    have hstep := (blinkStep (hquiet k) (after_onlyBlinks hblinks hquiet k)).pending
    rw [Machine.emitted_succ, Machine.after_succ, List.append_assoc]
    exact (congrArg _ hstep).trans ih

/-- At last everything that was pending has been shown. -/
theorem eventually_emitted (hblinks : OnlyBlinks s) (hquiet : Quiet cc s schedule)
    (hdue : KeepsDue cc s schedule) :
    ∃ N, ∀ k, N ≤ k → (sketch exact cc).emitted s schedule Output.frames k = pending s := by
  have hstep (k : Nat) := blinkStep (hquiet k) (after_onlyBlinks hblinks hquiet k)
  obtain ⟨N, hN⟩ := eventually_zero
    (f := fun k => ((sketch exact cc).after s schedule k).blinky.count.toNat)
    (fun k => by
      rw [Machine.after_succ]
      exact (hstep k).count)
    (fun k hne => by
      obtain ⟨j, hkj, hj⟩ := hdue k fun hz => hne (by rw [hz]; rfl)
      refine ⟨j, hkj, ?_⟩
      rw [Machine.after_succ]
      exact (hstep j).due hj)
  refine ⟨N, fun k hk => ?_⟩
  have hcount : ((sketch exact cc).after s schedule k).blinky.count = 0 :=
    UInt8.toNat_inj.mp (hN k hk)
  have hnone : pending ((sketch exact cc).after s schedule k) = [] := by
    rw [pending, hcount]
    rfl
  rw [← emitted_pending hblinks hquiet k, hnone, List.append_nil]

/-- The ring shows what was shown last. -/
theorem after_ring (k : Nat) :
    ((sketch exact cc).after s schedule k).ring =
      ((sketch exact cc).emitted s schedule Output.frames k).getLast?.getD s.ring :=
  (Machine.getLast?_emitted Sketch.ring Output.frames (loop_shows cc) s _).symm

/-! ## Commands -/

/-- The two commands that start a blink. -/
inductive StartsBlink (speed count : UInt8) : Command → Prop where
  | blink : StartsBlink speed count (.blink speed.toNat count.toNat)
  | flash : StartsBlink speed count (.flash speed.toNat count.toNat)

/-- At last the frames of the schedule are the documented phases, and the ring
shows the picture after an even count and is dark after an odd one. -/
def ShowsPhases (cc : Compiler) (s : Sketch exact) (schedule : Nat → Input) (count : UInt8)
    (picture : Ring exact) : Prop :=
  ∃ N, ∀ k, N ≤ k →
    (sketch exact cc).emitted s schedule Output.frames k = alternate count.toNat dark picture ∧
      ((sketch exact cc).after s schedule k).ring = if count % 2 = 0 then picture else dark

/-- The frames that are pending after the command. -/
theorem pending_execute (s : Sketch exact) {speed count : UInt8} {c : Command}
    (hc : StartsBlink speed count c) :
    pending (c.execute s) =
      if count % 2 = 0 then alternate count.toNat s.blinky.saved dark
      else alternate count.toNat dark s.ring := by
  have hpending : pending (c.execute s) =
      if UInt8.ofInt (count.toNat : Int) % 2 = 0 then
        alternate (UInt8.ofInt (count.toNat : Int)).toNat s.blinky.saved dark
      else alternate (UInt8.ofInt (count.toNat : Int)).toNat dark s.ring := by
    cases hc <;> rfl
  rw [hpending, ofInt_byte]

theorem execute_onlyBlinks {speed count : UInt8} {c : Command} (hc : StartsBlink speed count c)
    (hblinks : OnlyBlinks s) : OnlyBlinks (c.execute s) := by
  cases hc <;> exact ⟨hblinks.stopped, hblinks.off⟩

/-- The documented phases are pending exactly when the count is odd or zero, or
both pictures are dark. -/
theorem pending_eq_iff (s : Sketch exact) {speed count : UInt8} {c : Command}
    (hc : StartsBlink speed count c) :
    pending (c.execute s) = alternate count.toNat dark s.ring ↔
      count = 0 ∨ count % 2 ≠ 0 ∨ (s.blinky.saved = dark ∧ s.ring = dark) := by
  rw [pending_execute s hc]
  by_cases heven : count % 2 = 0
  · rw [if_pos heven]
    by_cases hzero : count = 0
    · subst hzero
      exact iff_of_true rfl (.inl rfl)
    · have htwo : 2 ≤ count.toNat := by
        have hpos := toNat_ne_zero hzero
        have hmod := (mod_two_eq_zero_iff count).mp heven
        omega
      rw [alternate_eq_iff htwo]
      exact ⟨fun h => .inr (.inr ⟨h.1, h.2.symm⟩),
        fun h => (h.resolve_left hzero).elim (fun hodd => absurd heven hodd)
          fun hdark => ⟨hdark.1, hdark.2.symm⟩⟩
  · rw [if_neg heven]
    exact iff_of_true rfl (.inr (.inl heven))

theorem showsPhases_iff_pending (hblinks : OnlyBlinks s) (hquiet : Quiet cc s schedule)
    (hdue : KeepsDue cc s schedule) (count : UInt8) :
    ShowsPhases cc s schedule count s.ring ↔ pending s = alternate count.toNat dark s.ring := by
  obtain ⟨N, hN⟩ := eventually_emitted hblinks hquiet hdue
  constructor
  · rintro ⟨M, hM⟩
    rw [← hN (max M N) (le_max_right M N)]
    exact (hM (max M N) (le_max_left M N)).1
  · intro hphases
    refine ⟨N, fun k hk => ?_⟩
    have hshown := (hN k hk).trans hphases
    refine ⟨hshown, ?_⟩
    rw [after_ring, hshown, getLast?_alternate]
    simp only [mod_two_eq_zero_iff]

/-- A blink shows the documented phases, on every schedule without another
command or animation on which it keeps becoming due, exactly when its count is
odd or zero, or the picture and the one that was saved last are both dark. -/
theorem showsPhases_iff (cc : Compiler) (s : Sketch exact) (speed count : UInt8) (c : Command)
    (schedule : Nat → Input) (hc : StartsBlink speed count c) (hblinks : OnlyBlinks s)
    (hquiet : Quiet cc (c.execute s) schedule) (hdue : KeepsDue cc (c.execute s) schedule) :
    ShowsPhases cc (c.execute s) schedule count s.ring ↔
      count = 0 ∨ count % 2 ≠ 0 ∨ (s.blinky.saved = dark ∧ s.ring = dark) := by
  have hring : (c.execute s).ring = s.ring := by cases hc <;> rfl
  have hpending := showsPhases_iff_pending (execute_onlyBlinks hc hblinks) hquiet hdue count
  rw [hring] at hpending
  exact hpending.trans (pending_eq_iff s hc)

/-! ## A blink with an even count -/

/-- A blink that is due until its count is zero. -/
theorem keepsDue_of_spent (hblinks : OnlyBlinks s) (hquiet : Quiet cc s schedule) {n : Nat}
    (hdue : ∀ k, k < n → FlashDue cc ((sketch exact cc).after s schedule k) (schedule k))
    (hspent : ((sketch exact cc).after s schedule n).blinky.count = 0) :
    KeepsDue cc s schedule := by
  have hanti : Antitone fun k => ((sketch exact cc).after s schedule k).blinky.count.toNat := by
    refine antitone_nat_of_succ_le fun k => ?_
    rw [Machine.after_succ]
    exact (blinkStep (hquiet k) (after_onlyBlinks hblinks hquiet k)).count
  intro k hne
  by_cases hk : k < n
  · exact ⟨k, le_rfl, hdue k hk⟩
  · have hle := hanti (Nat.le_of_not_lt hk)
    dsimp only at hle
    rw [hspent] at hle
    exact absurd (UInt8.toNat_inj.mp (Nat.le_zero.mp hle)) hne

/-- An iteration every second. -/
def everySecond (k : Nat) : Input := ⟨false, [], 0, .ofNat (1000 * (k + 1)), 0, 0⟩

/-- The sketch after `B` with speed 1 and count 2, right after `setup()`. -/
def blinkTwice : Sketch exact := (Command.blink 1 2).execute (setup exact).1

theorem blinkTwice_keepsDue : KeepsDue ⟨.indexFirst, id⟩ blinkTwice everySecond := by
  refine keepsDue_of_spent (n := 2) ⟨rfl, rfl⟩ (fun _ => rfl) (fun k hk => ?_) (by decide)
  unfold FlashDue
  rcases (by omega : k = 0 ∨ k = 1) with rfl | rfl
  · decide
  · decide

theorem blinkTwice_showsPhases :
    ShowsPhases ⟨.indexFirst, id⟩ blinkTwice everySecond 2 (setup exact).1.ring ↔
      ((2 : UInt8) = 0 ∨ (2 : UInt8) % 2 ≠ 0 ∨
        ((setup exact).1.blinky.saved = dark ∧ (setup exact).1.ring = dark)) :=
  showsPhases_iff ⟨.indexFirst, id⟩ (setup exact).1 1 2 (.blink 1 2) everySecond .blink ⟨rfl, rfl⟩
    (fun _ => rfl) blinkTwice_keepsDue

/-- The first frame shows what was saved, and not the dark ring and the picture
one after the other. -/
theorem blinkTwice_not_showsPhases :
    ¬ ShowsPhases ⟨.indexFirst, id⟩ blinkTwice everySecond 2 (setup exact).1.ring := by
  intro h
  have hblink : StartsBlink 1 2 (.blink 1 2) := .blink
  have hquiet : Quiet ⟨.indexFirst, id⟩ blinkTwice everySecond := fun _ => rfl
  have hpending : pending blinkTwice =
      alternate (2 : UInt8).toNat dark (setup exact).1.ring :=
    (showsPhases_iff_pending ⟨rfl, rfl⟩ hquiet blinkTwice_keepsDue 2).mp h
  rcases (pending_eq_iff (setup exact).1 hblink).mp hpending with
    hzero | hodd | hdark
  · exact absurd hzero (by decide)
  · exact absurd rfl hodd
  · exact absurd (congrFun hdark.2 0) (by decide)

end ArduinoProjects.BleRgb
