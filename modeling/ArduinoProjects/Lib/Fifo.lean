import ArduinoProjects.Lib.Machine
import Mathlib.Data.Nat.ModEq
import Mathlib.Logic.Function.Basic

/-!
# Bounded queues, and what goes in and out of a machine

There are four groups.

* Flow.  `gather` collects what the steps of a run take in or give out.
  `gather_flow` is the law of a machine that neither loses nor invents
  anything: what was there and what came in is what went out and what is left.
* Comparison.  `trace_eq_iff_always` compares the outputs of a machine with the
  outputs of its specification.  They agree exactly on the runs whose steps all
  meet a condition.
* The queue.  `queue capacity` answers pushes, pops and peeks on a list.
* Windows.  `window slots start k` is the content of `k` slots of a circular
  array, from slot `start` on.  The lemmas say what a push and a pop do to it.
-/

namespace Machine

variable {σ ι ο β : Type*} {m : Machine σ ι ο}

/-! ## Flow -/

/-- What the steps of a run yield, in order. -/
def gather (m : Machine σ ι ο) (f : σ → ι → List β) : σ → List ι → List β
  | _, [] => []
  | s, i :: is => f s i ++ gather m f (m.next s i) is

/-- Nothing is lost and nothing is invented along a run. -/
theorem gather_flow {P : σ → ι → Prop} (Inv : σ → Prop) (held : σ → List β)
    (enters leaves : σ → ι → List β) (hinv : ∀ s i, Inv s → P s i → Inv (m.next s i))
    (hstep : ∀ s i, Inv s → P s i →
      held s ++ enters s i = leaves s i ++ held (m.next s i))
    {s : σ} {is : List ι} (hinit : Inv s) (h : m.Always P s is) :
    held s ++ m.gather enters s is = m.gather leaves s is ++ held (m.run s is) := by
  induction is generalizing s with
  | nil =>
    show held s ++ [] = [] ++ held s
    rw [List.append_nil, List.nil_append]
  | cons i is ih =>
    have hrest := ih (hinv s i hinit h.1) h.2
    calc held s ++ (enters s i ++ m.gather enters (m.next s i) is)
        = leaves s i ++ (held (m.next s i) ++ m.gather enters (m.next s i) is) := by
          rw [← List.append_assoc, hstep s i hinit h.1, List.append_assoc]
      _ = leaves s i ++ (m.gather leaves (m.next s i) is ++ held (m.run (m.next s i) is)) := by
          rw [hrest]
      _ = m.gather leaves s (i :: is) ++ held (m.run s (i :: is)) :=
          (List.append_assoc _ _ _).symm

/-! ## Comparison with a specification -/

section Comparison

variable {σ' ι' ο' ω : Type*} {m' : Machine σ' ι' ο'}

/-- Two machines that stay related as long as the steps meet `G`, and whose
outputs differ where a step does not, agree exactly on the runs that meet `G`. -/
theorem trace_eq_iff_always (f : ι → ι') (view : ο → ω) (view' : ο' → ω)
    {R : σ → σ' → Prop} {G : σ → ι → Prop}
    (hgood : ∀ s t i, R s t → G s i →
      view (m.out s i) = view' (m'.out t (f i)) ∧ R (m.next s i) (m'.next t (f i)))
    (hbad : ∀ s t i, R s t → ¬ G s i → view (m.out s i) ≠ view' (m'.out t (f i)))
    {s : σ} {t : σ'} (hinit : R s t) (is : List ι) :
    (m.trace s is).map view = (m'.trace t (is.map f)).map view' ↔ m.Always G s is := by
  induction is generalizing s t with
  | nil => exact iff_of_true rfl trivial
  | cons i is ih =>
    rw [List.map_cons, trace_cons, trace_cons, List.map_cons, List.map_cons, List.cons.injEq]
    by_cases hG : G s i
    · obtain ⟨hout, hnext⟩ := hgood s t i hinit hG
      rw [ih hnext]
      exact ⟨fun h => ⟨hG, h.2⟩, fun h => ⟨hout, h.2⟩⟩
    · exact iff_of_false (fun h => hbad s t i hinit hG h.1) (fun h => hG h.1)

end Comparison

end Machine

namespace Fifo

variable {α : Type*}

/-! ## The queue -/

inductive Request (α : Type*) where
  | push (a : α)
  | pop
  | peek
  deriving DecidableEq, Repr

inductive Reply (α : Type*) where
  | pushed (accepted : Bool)
  | front (a : Option α)
  deriving DecidableEq, Repr

/-- A queue that holds at most `capacity` elements and refuses the others. -/
def queue (α : Type*) (capacity : Nat) : Machine (List α) (Request α) (Reply α) where
  step q
    | .push a => if q.length < capacity then (q ++ [a], .pushed true) else (q, .pushed false)
    | .pop => (q.tail, .front q.head?)
    | .peek => (q, .front q.head?)

namespace Request

variable {β : Type*}

def map (f : α → β) : Request α → Request β
  | push a => push (f a)
  | pop => pop
  | peek => peek

end Request

namespace Reply

variable {β : Type*}

def map (f : α → β) : Reply α → Reply β
  | pushed accepted => pushed accepted
  | front a => front (a.map f)

end Reply

/-! ## Windows of a circular array -/

section Window

variable {n : Nat} [NeZero n]

/-- The slot that a count without wrap-around is in. -/
def slot (n : Nat) [NeZero n] (i : Nat) : Fin n := Fin.ofNat n i

/-- The content of `k` slots, from slot `start` on. -/
def window (slots : Fin n → α) (start k : Nat) : List α :=
  (List.range k).map fun i => slots (slot n (start + i))

theorem slot_eq_iff {i j : Nat} : slot n i = slot n j ↔ i % n = j % n := by
  simp [slot, Fin.ext_iff]

theorem slot_ne {start i j : Nat} (hij : i < j) (hj : j < i + n) :
    slot n (start + i) ≠ slot n (start + j) := by
  intro h
  have hmod : (start + i) % n = (start + j) % n := slot_eq_iff.mp h
  have hdvd : n ∣ (start + j) - (start + i) := (Nat.modEq_iff_dvd' (by omega)).mp hmod
  have hle : n ≤ (start + j) - (start + i) := Nat.le_of_dvd (by omega) hdvd
  omega

@[simp] theorem length_window (slots : Fin n → α) (start k : Nat) :
    (window slots start k).length = k := by
  simp [window]

@[simp] theorem window_zero (slots : Fin n → α) (start : Nat) : window slots start 0 = [] := rfl

theorem window_cons (slots : Fin n → α) (start k : Nat) :
    window slots start (k + 1) = slots (slot n start) :: window slots (start + 1) k := by
  simp only [window, List.range_succ_eq_map, List.map_cons, List.map_map, Nat.add_zero]
  refine congrArg _ (List.map_congr_left fun i _ => ?_)
  show slots (slot n (start + (i + 1))) = slots (slot n (start + 1 + i))
  rw [Nat.add_assoc, Nat.add_comm 1 i]

theorem window_concat (slots : Fin n → α) (start k : Nat) :
    window slots start (k + 1) = window slots start k ++ [slots (slot n (start + k))] := by
  simp [window, List.range_succ]

/-- Only the start modulo the number of slots matters. -/
theorem window_congr {slots : Fin n → α} {start start' : Nat} (h : start % n = start' % n)
    (k : Nat) : window slots start k = window slots start' k := by
  refine List.map_congr_left fun i _ => ?_
  rw [slot_eq_iff.mpr (Nat.ModEq.add_right i h)]

/-- A push fills the slot behind the window. -/
theorem window_push {slots : Fin n → α} {start k : Nat} (hk : k < n) (a : α) :
    window (Function.update slots (slot n (start + k)) a) start (k + 1) =
      window slots start k ++ [a] := by
  have hrest : window (Function.update slots (slot n (start + k)) a) start k =
      window slots start k := by
    refine List.map_congr_left fun i hi => ?_
    have hik : i < k := List.mem_range.mp hi
    exact Function.update_of_ne (slot_ne hik (by omega)) a slots
  rw [window_concat, hrest, Function.update_self]

theorem head?_window {slots : Fin n → α} {start k : Nat} (hk : 0 < k) :
    (window slots start k).head? = some (slots (slot n start)) := by
  obtain ⟨k, rfl⟩ : ∃ j, k = j + 1 := ⟨k - 1, by omega⟩
  rw [window_cons]
  rfl

/-- A pop moves the start. -/
theorem tail_window (slots : Fin n → α) (start k : Nat) :
    (window slots start k).tail = window slots (start + 1) (k - 1) := by
  cases k with
  | zero => rfl
  | succ k => rw [window_cons]; rfl

end Window

end Fifo
