import Mathlib.Data.List.Basic

/-!
# Machines that read an input and write an output at every step

A sketch is a function that its board calls again and again.  One call reads
the pins, the clock and the queues, changes the state of the sketch and writes
to the hardware.  `Machine` is that shape without the board: a deterministic
step from a state and an input to a state and an output.

There are eight groups.

* Runs.  `run` is the state after a list of inputs, `trace` is the list of
  the outputs and `count` is the number of steps that pass a test.
* Properties of every step.  `Always P` says that each step of a run starts in
  a state that satisfies `P` together with its input.
* Invariants.  `invariant` is the induction over a run, `guarded_invariant`
  is the same induction for the runs whose steps all meet a condition, and
  `always_iff` compares two properties of the steps of one run.
* Parts.  A part of the state that steps like a smaller machine runs like it.
* Pairs.  `pair` runs two machines on the same inputs.
* Two machines on one state.  `run_eq_or_first` finds the first step at which two
  machines part.
* Emissions.  A part of the state that is emitted whenever it changes is what
  was emitted last.
* Simulation.  `map_trace_eq_of_simulation` gives equal outputs for two related
  states.
-/

/-- A deterministic machine.  A step reads one input. -/
structure Machine (σ ι ο : Type*) where
  step : σ → ι → σ × ο

namespace Machine

variable {σ ι ο : Type*} (m : Machine σ ι ο)

/-- The state after one step. -/
def next (s : σ) (i : ι) : σ := (m.step s i).1

/-- The output of one step. -/
def out (s : σ) (i : ι) : ο := (m.step s i).2

/-! ## Runs -/

/-- The state after a list of inputs. -/
def run (s : σ) : List ι → σ
  | [] => s
  | i :: is => run (m.next s i) is

/-- The outputs of a list of inputs, oldest first. -/
def trace (s : σ) : List ι → List ο
  | [] => []
  | i :: is => m.out s i :: trace (m.next s i) is

@[simp] theorem run_nil (s : σ) : m.run s [] = s := rfl

@[simp] theorem run_cons (s : σ) (i : ι) (is : List ι) :
    m.run s (i :: is) = m.run (m.next s i) is := rfl

@[simp] theorem trace_nil (s : σ) : m.trace s [] = [] := rfl

@[simp] theorem trace_cons (s : σ) (i : ι) (is : List ι) :
    m.trace s (i :: is) = m.out s i :: m.trace (m.next s i) is := rfl

theorem run_append (s : σ) (is js : List ι) :
    m.run s (is ++ js) = m.run (m.run s is) js := by
  induction is generalizing s with
  | nil => rfl
  | cons i is ih => exact ih (m.next s i)

/-- The last step of a run. -/
theorem run_concat (s : σ) (is : List ι) (i : ι) :
    m.run s (is ++ [i]) = m.next (m.run s is) i := by
  rw [run_append]
  rfl

/-- The output of the last step of a run. -/
theorem trace_concat (s : σ) (is : List ι) (i : ι) :
    m.trace s (is ++ [i]) = m.trace s is ++ [m.out (m.run s is) i] := by
  induction is generalizing s with
  | nil => rfl
  | cons j is ih => exact congrArg _ (ih (m.next s j))

/-- The number of steps of a run that start in a state that passes `p`
together with the input. -/
def count (p : σ → ι → Bool) : σ → List ι → Nat
  | _, [] => 0
  | s, i :: is => (p s i).toNat + count p (m.next s i) is

theorem count_append (p : σ → ι → Bool) (s : σ) (is js : List ι) :
    m.count p s (is ++ js) = m.count p s is + m.count p (m.run s is) js := by
  induction is generalizing s with
  | nil => simp [count]
  | cons i is ih => simp [count, ih, Nat.add_assoc]

/-- The last step adds at most one to the count. -/
theorem count_concat (p : σ → ι → Bool) (s : σ) (is : List ι) (i : ι) :
    m.count p s (is ++ [i]) = m.count p s is + (p (m.run s is) i).toNat := by
  rw [count_append]
  rfl

/-! ## Properties of every step -/

/-- Each step of the run starts in a state that satisfies `P` together with
the input that the step reads. -/
def Always (P : σ → ι → Prop) : σ → List ι → Prop
  | _, [] => True
  | s, i :: is => P s i ∧ Always P (m.next s i) is

instance decidableAlways (P : σ → ι → Prop) [∀ s i, Decidable (P s i)] (s : σ) (is : List ι) :
    Decidable (m.Always P s is) :=
  match is with
  | [] => .isTrue trivial
  | i :: is =>
    have := decidableAlways P (m.next s i) is
    inferInstanceAs (Decidable (P s i ∧ m.Always P (m.next s i) is))

variable {m} {P Q : σ → ι → Prop}

theorem always_of_forall (h : ∀ s i, P s i) {s : σ} {is : List ι} : m.Always P s is := by
  induction is generalizing s with
  | nil => trivial
  | cons i is ih => exact ⟨h s i, ih⟩

/-- A property of the inputs as one of the steps. -/
theorem always_iff_forall_mem {K : ι → Prop} {s : σ} {is : List ι} :
    m.Always (fun _ i => K i) s is ↔ ∀ i ∈ is, K i := by
  induction is generalizing s with
  | nil => simp [Always]
  | cons i is ih => simp [Always, ih]

theorem always_append {s : σ} {is js : List ι} :
    m.Always P s (is ++ js) ↔ m.Always P s is ∧ m.Always P (m.run s is) js := by
  induction is generalizing s with
  | nil => simp [Always]
  | cons i is ih => simp [Always, ih, and_assoc]

theorem always_mono (hPQ : ∀ s i, P s i → Q s i) {s : σ} {is : List ι}
    (h : m.Always P s is) : m.Always Q s is := by
  induction is generalizing s with
  | nil => trivial
  | cons i is ih => exact ⟨hPQ s i h.1, ih h.2⟩

theorem always_and {s : σ} {is : List ι} :
    m.Always (fun s i => P s i ∧ Q s i) s is ↔ m.Always P s is ∧ m.Always Q s is := by
  induction is generalizing s with
  | nil => simp [Always]
  | cons i is ih => rw [Always, Always, Always, ih, and_and_and_comm]

theorem always_congr (hPQ : ∀ s i, P s i ↔ Q s i) {s : σ} {is : List ι} :
    m.Always P s is ↔ m.Always Q s is :=
  ⟨always_mono fun s i => (hPQ s i).mp, always_mono fun s i => (hPQ s i).mpr⟩

/-- A property of all outputs of a run is a property of every step. -/
theorem forall_mem_trace_iff {R : ο → Prop} {s : σ} {is : List ι} :
    (∀ o ∈ m.trace s is, R o) ↔ m.Always (fun s i => R (m.out s i)) s is := by
  induction is generalizing s with
  | nil => simp [Always]
  | cons i is ih => simp [Always, ih]

/-! ## Invariants -/

variable (Inv : σ → Prop)

/-- The induction over a run whose steps all meet a condition. -/
theorem guarded_invariant (hstep : ∀ s i, Inv s → P s i → Inv (m.next s i))
    {s : σ} {is : List ι} (hinit : Inv s) (h : m.Always P s is) :
    Inv (m.run s is) := by
  induction is generalizing s with
  | nil => exact hinit
  | cons i is ih => exact ih (hstep s i hinit h.1) h.2

/-- The induction over a run. -/
theorem invariant (hstep : ∀ s i, Inv s → Inv (m.next s i)) {s : σ}
    (hinit : Inv s) (is : List ι) : Inv (m.run s is) := by
  induction is generalizing s with
  | nil => exact hinit
  | cons i is ih => exact ih (hstep s i hinit)

/-- A property of the steps of a run that follows from an invariant, which the
steps keep as long as they meet a condition. -/
theorem always_of_guarded (hstep : ∀ s i, Inv s → P s i → Inv (m.next s i))
    (hprop : ∀ s i, Inv s → P s i → Q s i) {s : σ} {is : List ι} (hinit : Inv s)
    (h : m.Always P s is) : m.Always Q s is := by
  induction is generalizing s with
  | nil => trivial
  | cons i is ih => exact ⟨hprop s i hinit h.1, ih (hstep s i hinit h.1) h.2⟩

/-- A property of the steps of a run that follows from an invariant. -/
theorem always_of_invariant (hstep : ∀ s i, Inv s → Inv (m.next s i))
    (hprop : ∀ s i, Inv s → Q s i) {s : σ} (hinit : Inv s) (is : List ι) : m.Always Q s is := by
  induction is generalizing s with
  | nil => trivial
  | cons i is ih => exact ⟨hprop s i hinit, ih (hstep s i hinit)⟩

/-- Under an invariant that the steps with property `Q` keep, two properties
that agree on the states of the invariant agree on the runs whose steps all meet
a condition. -/
theorem always_iff_of_guarded {G : σ → ι → Prop}
    (hagree : ∀ s i, Inv s → G s i → (P s i ↔ Q s i))
    (hstep : ∀ s i, Inv s → G s i → Q s i → Inv (m.next s i)) {s : σ} {is : List ι}
    (hinit : Inv s) (h : m.Always G s is) : m.Always P s is ↔ m.Always Q s is := by
  induction is generalizing s with
  | nil => exact Iff.rfl
  | cons i is ih =>
    have hagree' : P s i ↔ Q s i := hagree s i hinit h.1
    constructor
    · intro hP
      have hq : Q s i := hagree'.mp hP.1
      exact ⟨hq, (ih (hstep s i hinit h.1 hq) h.2).mp hP.2⟩
    · intro hQ
      exact ⟨hagree'.mpr hQ.1, (ih (hstep s i hinit h.1 hQ.1) h.2).mpr hQ.2⟩

/-- Under an invariant that the steps with property `Q` keep, two properties
that agree on the states of the invariant agree on runs. -/
theorem always_iff (hagree : ∀ s i, Inv s → (P s i ↔ Q s i))
    (hstep : ∀ s i, Inv s → Q s i → Inv (m.next s i)) {s : σ} {is : List ι}
    (hinit : Inv s) : m.Always P s is ↔ m.Always Q s is :=
  always_iff_of_guarded Inv (fun s i hs (_ : True) => hagree s i hs)
    (fun s i hs _ => hstep s i hs) hinit (always_of_forall fun _ _ => trivial)

/-! ## Parts of a machine -/

section Part

variable {σ' ι' ο' : Type*} {m' : Machine σ' ι' ο'} (f : σ → σ') (g : ι → ι')

/-- A part of the state that steps like another machine runs like it. -/
theorem run_part (h : ∀ s i, f (m.next s i) = m'.next (f s) (g i)) (s : σ) (is : List ι) :
    f (m.run s is) = m'.run (f s) (is.map g) := by
  induction is generalizing s with
  | nil => rfl
  | cons i is ih => rw [run_cons, ih, h, List.map_cons, run_cons]

theorem always_part (h : ∀ s i, f (m.next s i) = m'.next (f s) (g i))
    {P : σ' → ι' → Prop} {s : σ} {is : List ι} :
    m.Always (fun s i => P (f s) (g i)) s is ↔ m'.Always P (f s) (is.map g) := by
  induction is generalizing s with
  | nil => exact Iff.rfl
  | cons i is ih =>
    have hrest := ih (s := m.next s i)
    rw [h] at hrest
    exact and_congr Iff.rfl hrest

end Part

/-! ## Pairs -/

section Pair

variable {σ' ο' : Type*} (m) (m' : Machine σ' ι ο')

/-- Two machines that read the same inputs. -/
def pair : Machine (σ × σ') ι (ο × ο') where
  step p i := ((m.next p.1 i, m'.next p.2 i), m.out p.1 i, m'.out p.2 i)

theorem always_pair_fst {p : σ × σ'} {is : List ι} :
    (m.pair m').Always (fun p i => P p.1 i) p is ↔ m.Always P p.1 is := by
  induction is generalizing p with
  | nil => exact Iff.rfl
  | cons i is ih => exact and_congr Iff.rfl (ih (p := (m.pair m').next p i))

theorem always_pair_snd {P : σ' → ι → Prop} {p : σ × σ'} {is : List ι} :
    (m.pair m').Always (fun p i => P p.2 i) p is ↔ m'.Always P p.2 is := by
  induction is generalizing p with
  | nil => exact Iff.rfl
  | cons i is ih => exact and_congr Iff.rfl (ih (p := (m.pair m').next p i))

end Pair

/-! ## Two machines on one state -/

section First

variable {m' : Machine σ ι ο} {D : σ → ι → Prop}

/-- Two machines whose steps agree outside `D` have the same run, or they have it up
to a first step in `D`. -/
theorem run_eq_or_first (h : ∀ s i, ¬ D s i → m.step s i = m'.step s i) (s : σ)
    (is : List ι) :
    (m.trace s is = m'.trace s is ∧ m.run s is = m'.run s is) ∨
      ∃ pre i post, is = pre ++ i :: post ∧ m.trace s pre = m'.trace s pre ∧
        m.run s pre = m'.run s pre ∧ D (m.run s pre) i := by
  induction is generalizing s with
  | nil => exact Or.inl ⟨rfl, rfl⟩
  | cons i is ih =>
    by_cases hd : D s i
    · exact Or.inr ⟨[], i, is, rfl, rfl, rfl, hd⟩
    · have hnext : m.next s i = m'.next s i := congrArg Prod.fst (h s i hd)
      have hout : m.out s i = m'.out s i := congrArg Prod.snd (h s i hd)
      rcases ih (m.next s i) with ⟨htrace, hrun⟩ | ⟨pre, j, post, rfl, htrace, hrun, hj⟩
      · left
        rw [trace_cons, trace_cons, run_cons, run_cons, hout, ← hnext]
        exact ⟨congrArg _ htrace, hrun⟩
      · refine Or.inr ⟨i :: pre, j, post, rfl, ?_, ?_, hj⟩
        · rw [trace_cons, trace_cons, hout, ← hnext, htrace]
        · rw [run_cons, run_cons, ← hnext, hrun]

end First

/-! ## Emissions -/

/-- A part of the state that only changes when it is emitted is always what was
emitted last. -/
theorem getLast?_emitted {ω : Type*} (view : σ → ω) (emit : ο → List ω)
    (h : ∀ s i, (emit (m.out s i)).getLast?.getD (view s) = view (m.next s i))
    (s : σ) (is : List ι) :
    ((m.trace s is).flatMap emit).getLast?.getD (view s) = view (m.run s is) := by
  induction is generalizing s with
  | nil => rfl
  | cons i is ih =>
    have hstep := h s i
    have hrest := ih (m.next s i)
    rw [trace_cons, run_cons, List.flatMap_cons, List.getLast?_append, ← hrest, ← hstep]
    cases ((m.trace (m.next s i) is).flatMap emit).getLast? <;> rfl

/-! ## Simulation -/

/-- Related states that stay related show the same, as long as the inputs are
of some kind.  What is looked at is a part `w` of the outputs. -/
theorem map_trace_eq_of_simulation {ω : Type*} (w : ο → ω) {R : σ → σ → Prop}
    {K : ι → Prop}
    (hstep : ∀ s t i, K i → R s t →
      w (m.out s i) = w (m.out t i) ∧ R (m.next s i) (m.next t i))
    {s t : σ} (hinit : R s t) {is : List ι} (hkind : ∀ i ∈ is, K i) :
    (m.trace s is).map w = (m.trace t is).map w := by
  induction is generalizing s t with
  | nil => rfl
  | cons i is ih =>
    obtain ⟨hout, hnext⟩ := hstep s t i (hkind i List.mem_cons_self) hinit
    rw [trace_cons, trace_cons, List.map_cons, List.map_cons, hout,
      ih hnext fun j hj => hkind j (List.mem_cons_of_mem i hj)]

end Machine
