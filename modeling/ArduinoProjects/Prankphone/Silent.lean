import ArduinoProjects.Prankphone.Basic

/-!
# Silent on the hook

The sketch samples the player once at the top of an iteration and trusts the
sample after it has rung.  `OnHook` is the invariant that makes this right: no
clip plays while the handset is on the hook.  So a pick-up always finds the
player silent, and `always_answers` puts the promises of an iteration together.
-/

namespace ArduinoProjects.Prankphone

/-- No clip plays while the handset is on the hook. -/
def OnHook (s : Prankphone) : Prop := s.hook.read = true → s.wav = none

/-- What an iteration promises. -/
structure Answers (s : Prankphone) (i : Input) : Prop where
  silent : OnHook (sketch.next s i)
  /-- A pick-up starts a clip, which plays unless it ends by itself. -/
  clip : (s.hook.update i.hook).2 = true → (sketch.next s i).hook.read = false →
    (sketch.out s i).isPlaying = false ∧
      .play i.filename none ∈ (sketch.out s i).sounds ∧
      (sketch.next s i).wav = elapse i.endsAtLast (some i.filename)
  /-- The phone rings on the hook, and nothing is cut off. -/
  rings : ∀ playing, .play "ring.wav" playing ∈ (sketch.out s i).sounds →
    (sketch.next s i).hook.read = true ∧ playing = none

/-! ## One iteration -/

@[simp] theorem elapse_none (ends : Bool) : elapse ends none = none := by
  cases ends <;> rfl

theorem filename_ne_ring (i : Input) : i.filename ≠ "ring.wav" := by
  have hclips : ∀ random : Fin (CLIP_COUNT - 1), clipName (random.val + 1) ≠ "ring.wav" := by
    decide
  exact hclips i.random

theorem playKey_tones {key : Char} {sound : Sound} (h : sound ∈ playKey key) :
    ∃ low high, sound = .tones low high 100 := by
  unfold playKey at h
  split at h
  · split_ifs at h
    · exact ⟨_, _, List.mem_singleton.mp h⟩
    · cases h
  · cases h

/-- Dialing plays no clip. -/
theorem mem_pickUp {i : Input} {wav playing : Option String} {filename : String} :
    .play filename playing ∈ (pickUp i wav).2 ↔
      filename = i.filename ∧ playing = elapse i.endsWhileDialing wav := by
  have hdial : Sound.play filename playing ∉ dial MOES := by
    intro h
    obtain ⟨key, _, hkey⟩ := List.mem_flatMap.mp h
    obtain ⟨low, high, htones⟩ := playKey_tones hkey
    cases htones
  show _ ∈ dialtone 1000 ++ dial MOES ++ [_] ↔ _
  simp [hdial, dialtone]

theorem mem_ring {i : Input} {wav playing : Option String} {filename : String} :
    .play filename playing ∈ (ring i wav).2 ↔ filename = "ring.wav" ∧ playing = wav := by
  show _ ∈ [_, _, _, _] ↔ _
  simp

/-! ## What each block does -/

section Blocks

variable {i : Input} {changed ringState hookState isPlaying : Bool} {wav : Option String}

/-- The ringer starts at most `ring.wav`, on the hook and in silence, and leaves
no clip playing if it does. -/
theorem answerRinger_cases :
    answerRinger i changed ringState hookState isPlaying wav = (wav, []) ∨
      hookState = true ∧ isPlaying = false ∧
        answerRinger i changed ringState hookState isPlaying wav = ring i wav := by
  unfold answerRinger
  split_ifs with h
  · simp only [Bool.and_eq_true, Bool.not_eq_true'] at h
    exact .inr ⟨h.1.2, h.2, rfl⟩
  · exact .inl rfl

@[simp] theorem answerHook_unchanged :
    answerHook i false hookState isPlaying wav = (wav, []) := rfl

/-- Hanging up. -/
@[simp] theorem answerHook_high : answerHook i true true isPlaying wav = stop wav := rfl

/-- Picking up in silence. -/
@[simp] theorem answerHook_low : answerHook i true false false wav = pickUp i wav := rfl

end Blocks

/-! ## One iteration -/

/-- `isPlaying` in an iteration. -/
def sampled (s : Prankphone) (i : Input) : Bool := (elapse i.endsBeforeSample s.wav).isSome

/-- The clip and the sounds after the ringer in an iteration. -/
def afterRinger (s : Prankphone) (i : Input) : Option String × List Sound :=
  answerRinger i (s.ringer.update i.ringer).2 (s.ringer.update i.ringer).1.read
    (s.hook.update i.hook).1.read (sampled s i)
    (elapse i.endsAfterSample (elapse i.endsBeforeSample s.wav))

/-- An iteration whose hook has the edge `changed` and then reads `state`. -/
theorem loop_wav_sounds {s : Prankphone} {i : Input} {changed state : Bool}
    (hchanged : (s.hook.update i.hook).2 = changed)
    (hstate : (s.hook.update i.hook).1.read = state) :
    (sketch.next s i).wav = elapse i.endsAtLast
        (answerHook i changed state (sampled s i) (afterRinger s i).1).1 ∧
      (sketch.out s i).sounds = (afterRinger s i).2 ++
        (answerHook i changed state (sampled s i) (afterRinger s i).1).2 := by
  subst hchanged hstate
  exact ⟨rfl, rfl⟩

variable {s : Prankphone} {i : Input}

/-- On the hook nothing plays after the ringer either. -/
theorem afterRinger_of_none (h : s.wav = none) : (afterRinger s i).1 = none := by
  unfold afterRinger
  rw [h, elapse_none, elapse_none]
  obtain hno | ⟨_, _, hring⟩ := @answerRinger_cases i (s.ringer.update i.ringer).2
    (s.ringer.update i.ringer).1.read (s.hook.update i.hook).1.read (sampled s i) none
  · rw [hno]
  · rw [hring]
    rfl

/-- The ringer plays `ring.wav` on the hook only, and cuts nothing off. -/
theorem mem_afterRinger {filename : String} {playing : Option String}
    (h : .play filename playing ∈ (afterRinger s i).2) :
    (s.hook.update i.hook).1.read = true ∧ playing = none := by
  unfold afterRinger at h
  obtain hno | ⟨hread, hsilent, hring⟩ := @answerRinger_cases i (s.ringer.update i.ringer).2
    (s.ringer.update i.ringer).1.read (s.hook.update i.hook).1.read (sampled s i)
    (elapse i.endsAfterSample (elapse i.endsBeforeSample s.wav))
  · rw [hno] at h
    cases h
  · rw [hring, mem_ring] at h
    have hnone : elapse i.endsBeforeSample s.wav = none := by simpa [sampled] using hsilent
    rw [hnone, elapse_none] at h
    exact ⟨hread, h.2⟩

/-- An iteration without an edge of the hook. -/
theorem answers_of_unchanged (h : OnHook s) (hchanged : (s.hook.update i.hook).2 = false) :
    Answers s i := by
  have hhook : (sketch.next s i).hook = (s.hook.update i.hook).1 := rfl
  have hread := Bounce.update_read_of_not_changed hchanged
  obtain ⟨hwav, hsounds⟩ := loop_wav_sounds hchanged hread
  rw [answerHook_unchanged] at hwav hsounds
  refine ⟨fun hon => ?_, fun hedge => ?_, fun playing hplay => ?_⟩
  · rw [hhook, hread] at hon
    rw [hwav, afterRinger_of_none (h hon), elapse_none]
  · rw [hchanged] at hedge
    cases hedge
  · rw [hsounds, List.append_nil] at hplay
    exact mem_afterRinger hplay

/-- An iteration in which the handset is put down. -/
theorem answers_of_putDown (hchanged : (s.hook.update i.hook).2 = true)
    (hread : (s.hook.update i.hook).1.read = true) : Answers s i := by
  have hhook : (sketch.next s i).hook = (s.hook.update i.hook).1 := rfl
  obtain ⟨hwav, hsounds⟩ := loop_wav_sounds hchanged hread
  rw [answerHook_high] at hwav hsounds
  refine ⟨fun _ => ?_, fun _ hlow => ?_, fun playing hplay => ?_⟩
  · rw [hwav]
    exact elapse_none _
  · rw [hhook, hread] at hlow
    cases hlow
  · rw [hsounds, List.mem_append] at hplay
    rcases hplay with hring | hstop
    · exact mem_afterRinger hring
    · cases List.mem_singleton.mp hstop

/-- An iteration in which the handset is picked up, so that nothing was playing. -/
theorem answers_of_pickedUp (h : OnHook s) (hchanged : (s.hook.update i.hook).2 = true)
    (hread : (s.hook.update i.hook).1.read = false) : Answers s i := by
  have hhook : (sketch.next s i).hook = (s.hook.update i.hook).1 := rfl
  have hsample : (sketch.out s i).isPlaying = sampled s i := rfl
  have hon : s.hook.read = true := by
    have hne := (Bounce.update_changed s.hook i.hook).mp hchanged
    rw [hread] at hne
    simpa using hne.symm
  have hsilent : sampled s i = false := by
    rw [sampled, h hon, elapse_none]
    rfl
  obtain ⟨hwav, hsounds⟩ := loop_wav_sounds hchanged hread
  rw [hsilent, answerHook_low, afterRinger_of_none (h hon)] at hwav hsounds
  have hpick {filename : String} {playing : Option String} :
      .play filename playing ∈ (pickUp i none).2 ↔ filename = i.filename ∧ playing = none := by
    rw [mem_pickUp, elapse_none]
  refine ⟨fun hhigh => ?_, fun _ _ => ⟨hsample.trans hsilent, ?_, hwav⟩, fun playing hplay => ?_⟩
  · rw [hhook, hread] at hhigh
    cases hhigh
  · rw [hsounds]
    exact List.mem_append_right _ (hpick.mpr ⟨rfl, rfl⟩)
  · rw [hsounds, List.mem_append] at hplay
    rcases hplay with hring | hclip
    · exact mem_afterRinger hring
    · exact absurd (hpick.mp hclip).1.symm (filename_ne_ring i)

/-- An iteration that starts silent on the hook keeps all promises. -/
theorem answers_of_onHook (h : OnHook s) : Answers s i := by
  cases hchanged : (s.hook.update i.hook).2 with
  | false => exact answers_of_unchanged h hchanged
  | true =>
    cases hread : (s.hook.update i.hook).1.read with
    | true => exact answers_of_putDown hchanged hread
    | false => exact answers_of_pickedUp h hchanged hread

/-! ## Runs -/

theorem setup_wav (p : PowerUp) : (setup p).1.wav = none := by
  unfold setup
  dsimp only
  split_ifs <;> rfl

/-- After `setup()` the phone is silent, and every iteration of every run keeps
its promises. -/
theorem always_answers (p : PowerUp) (inputs : List Input) :
    OnHook (setup p).1 ∧ sketch.Always Answers (setup p).1 inputs := by
  have hsetup : OnHook (setup p).1 := fun _ => setup_wav p
  exact ⟨hsetup, Machine.always_of_invariant OnHook (fun _ _ h => (answers_of_onHook h).silent)
    (fun _ _ h => answers_of_onHook h) hsetup inputs⟩

end ArduinoProjects.Prankphone
