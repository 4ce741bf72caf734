import ArduinoProjects.Combolock.Basic

/-!
# What an attempt reveals

The three bytes of the EEPROM go into the comparison of `checkValues` and nowhere
else, and the comparison runs on a press with RED selected.  So an iteration
depends on the bytes only through the question whether it opens the lock.

`loop_congr` is that fact for one iteration.  `attempts_reveal_nothing` compares
two locks with different bytes over a run.
-/

namespace ArduinoProjects.Combolock

/-- The iteration opens the lock. -/
def Opens (eeprom : LedCounter → UInt8) (c : Combolock) (i : Input) : Prop :=
  secretWord ∈ (sketch eeprom).out c i

instance (eeprom : LedCounter → UInt8) (c : Combolock) (i : Input) :
    Decidable (Opens eeprom c i) :=
  inferInstanceAs (Decidable (_ ∈ _))

/-- The iteration opens exactly one of two locks. -/
def OpensOne (e₁ e₂ : LedCounter → UInt8) (c : Combolock) (i : Input) : Prop :=
  ¬ (Opens e₁ c i ↔ Opens e₂ c i)

/-- No iteration of the run opens the lock. -/
def StaysLocked (eeprom : LedCounter → UInt8) (c : Combolock) (inputs : List Input) : Prop :=
  ∀ out ∈ (sketch eeprom).trace c inputs, secretWord ∉ out

variable {e₁ e₂ : LedCounter → UInt8}

/-! ## One iteration -/

theorem checkValues_congr {c : Combolock} (h : c.Matches e₁ ↔ c.Matches e₂) :
    c.checkValues e₁ = c.checkValues e₂ := by
  unfold checkValues
  by_cases h₁ : c.Matches e₁
  · rw [if_pos h₁, if_pos (h.mp h₁)]
  · rw [if_neg h₁, if_neg (mt h.mpr h₁)]

theorem press_congr {c : Combolock} {pressed : Bool}
    (h : pressed = true → c.ledCount = .red → (c.Matches e₁ ↔ c.Matches e₂)) :
    c.press e₁ pressed = c.press e₂ pressed := by
  unfold press
  split_ifs with hp hred
  · rw [checkValues_congr (h hp hred)]
  · rfl
  · rfl

/-- An iteration that opens both locks or neither does the same to both. -/
theorem loop_congr {c : Combolock} {i : Input} (h : Opens e₁ c i ↔ Opens e₂ c i) :
    c.loop e₁ i = c.loop e₂ i := by
  have h₁ : Opens e₁ c i ↔ _ := secretWord_mem_loop e₁ c i
  have h₂ : Opens e₂ c i ↔ _ := secretWord_mem_loop e₂ c i
  have hpress : (c.readInputs i).press e₁ (c.pressed i) =
      (c.readInputs i).press e₂ (c.pressed i) := by
    apply press_congr
    intro hp hred
    have hc : c.ledCount = .red := hred
    have hmatch : c.Matches e₁ ↔ c.Matches e₂ := by
      rw [h₁, h₂] at h
      simpa only [hp, hc, true_and] using h
    exact hmatch
  simp only [loop, hpress]

/-! ## Two runs -/

/-- A run that stays locked opens at none of its iterations. -/
theorem StaysLocked.not_opens {eeprom : LedCounter → UInt8} {c : Combolock} {pre post : List Input}
    {i : Input} (h : StaysLocked eeprom c (pre ++ i :: post)) :
    ¬ Opens eeprom ((sketch eeprom).run c pre) i :=
  (Machine.always_append.mp (Machine.forall_mem_trace_iff.mp h)).2.1

/-- Two locks run alike from the same state up to the first iteration that opens one
of them. -/
theorem run_eq_or_opensOne (e₁ e₂ : LedCounter → UInt8) (c : Combolock) (inputs : List Input) :
    ((sketch e₁).trace c inputs = (sketch e₂).trace c inputs ∧
        (sketch e₁).run c inputs = (sketch e₂).run c inputs) ∨
      ∃ pre i post, inputs = pre ++ i :: post ∧
        (sketch e₁).trace c pre = (sketch e₂).trace c pre ∧
        (sketch e₁).run c pre = (sketch e₂).run c pre ∧
        OpensOne e₁ e₂ ((sketch e₁).run c pre) i := by
  have hstep : ∀ s i, ¬ OpensOne e₁ e₂ s i → (sketch e₁).step s i = (sketch e₂).step s i :=
    fun _ _ h => loop_congr (not_not.mp h)
  exact Machine.run_eq_or_first hstep c inputs

/-- Two locks that see the same inputs from the same state send the same as long as
neither opens, and the first output that differs is of an iteration that opens
exactly one of them. -/
theorem attempts_reveal_nothing (e₁ e₂ : LedCounter → UInt8) (c : Combolock)
    (inputs : List Input) :
    (StaysLocked e₁ c inputs → StaysLocked e₂ c inputs →
      (sketch e₁).trace c inputs = (sketch e₂).trace c inputs) ∧
    ((sketch e₁).trace c inputs ≠ (sketch e₂).trace c inputs →
      ∃ pre i post, inputs = pre ++ i :: post ∧
        (sketch e₁).trace c pre = (sketch e₂).trace c pre ∧
        (sketch e₁).run c pre = (sketch e₂).run c pre ∧
        (sketch e₁).out ((sketch e₁).run c pre) i ≠ (sketch e₂).out ((sketch e₂).run c pre) i ∧
        OpensOne e₁ e₂ ((sketch e₁).run c pre) i) := by
  have hcases := run_eq_or_opensOne e₁ e₂ c inputs
  constructor
  · intro hlocked₁ hlocked₂
    rcases hcases with ⟨htrace, _⟩ | ⟨pre, i, post, rfl, _, hrun, hone⟩
    · exact htrace
    · refine absurd (iff_of_false hlocked₁.not_opens ?_) hone
      rw [hrun]
      exact hlocked₂.not_opens
  · intro hne
    rcases hcases with ⟨htrace, _⟩ | ⟨pre, i, post, hinputs, htrace, hrun, hone⟩
    · exact absurd htrace hne
    · refine ⟨pre, i, post, hinputs, htrace, hrun, ?_, hone⟩
      intro hout
      apply hone
      rw [Opens, hout, ← hrun]
      rfl

/-- An attempt with `17` for RED and `255` for the others, on two locks that store
something else. -/
theorem attempts_reveal_nothing_once :
    (sketch fun _ => 0).trace (setup ⟨0, 0⟩ false (List.replicate 16 0)).1
        [⟨4, false⟩, ⟨0, true⟩] =
      (sketch fun _ => 34).trace (setup ⟨0, 0⟩ false (List.replicate 16 0)).1
        [⟨4, false⟩, ⟨0, true⟩] := by
  apply (attempts_reveal_nothing (fun _ => 0) (fun _ => 34) _ _).1
  · unfold StaysLocked
    decide
  · unfold StaysLocked
    decide

end ArduinoProjects.Combolock
