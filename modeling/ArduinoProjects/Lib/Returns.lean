import Mathlib.Control.Monad.Basic

/-!
# Correctness of a stateful computation that may not end

A driver that polls a device is a function in `StateT σ Option`: it changes the
state of the device, and the value `none` stands for a poll loop that has used
up its fuel.  `Returns x s post` says that `x` ends when it starts in `s`, and
that the value and the final state satisfy `post`.

`IfReturns x s post` is the same without the end: it says what holds if `x` ends.
The two meet in `IfReturns.of_returns` and `IfReturns.returns`.

The rules follow the structure of a `do` block: `Returns.bind` for one step and
`Returns.mapM` for a loop over a list, and `IfReturns.bind` for the steps around a
loop that may not end.
-/

section

variable {σ β : Type}

theorem get_bind_apply (g : σ → StateT σ Option β) (s : σ) : (get >>= g) s = g s s := rfl

theorem modify_bind_apply (f : σ → σ) (g : PUnit → StateT σ Option β) (s : σ) :
    ((modify f : StateT σ Option PUnit) >>= g) s = g ⟨⟩ (f s) := rfl

end

/-- The computation ends, with a value and a state that satisfy `post`. -/
def Returns {σ α : Type} (x : StateT σ Option α) (s : σ) (post : α → σ → Prop) : Prop :=
  ∃ a t, x s = some (a, t) ∧ post a t

namespace Returns

variable {σ α β : Type} {x : StateT σ Option α} {f : α → StateT σ Option β} {s : σ}

theorem pure {post : α → σ → Prop} {a : α} (h : post a s) :
    Returns (Pure.pure a : StateT σ Option α) s post :=
  ⟨a, s, rfl, h⟩

/-- The rule of one step of a `do` block. -/
theorem bind {mid : α → σ → Prop} {post : β → σ → Prop} (hx : Returns x s mid)
    (hf : ∀ a t, mid a t → Returns (f a) t post) : Returns (x >>= f) s post := by
  obtain ⟨a, t, hxs, hmid⟩ := hx
  obtain ⟨b, u, hft, hpost⟩ := hf a t hmid
  refine ⟨b, u, ?_, hpost⟩
  show (x s).bind (fun p => f p.1 p.2) = some (b, u)
  rw [hxs]
  exact hft

/-- The rule of a step whose result is known. -/
theorem bind_of_eq {post : β → σ → Prop} {a : α} {t : σ} (hx : x s = some (a, t))
    (hf : Returns (f a) t post) : Returns (x >>= f) s post := by
  obtain ⟨b, u, hft, hpost⟩ := hf
  refine ⟨b, u, ?_, hpost⟩
  show (x s).bind (fun p => f p.1 p.2) = some (b, u)
  rw [hx]
  exact hft

/-- The rule of a step that reads the state. -/
theorem get_bind {g : σ → StateT σ Option β} {post : β → σ → Prop} (h : Returns (g s) s post) :
    Returns (get >>= g) s post :=
  h

theorem mono {post post' : α → σ → Prop} (h : Returns x s post)
    (himp : ∀ a t, post a t → post' a t) : Returns x s post' := by
  obtain ⟨a, t, hxs, hpost⟩ := h
  exact ⟨a, t, hxs, himp a t hpost⟩

/-- A computation has one result. -/
theorem of_eq {post : α → σ → Prop} (h : Returns x s post) {a : α} {t : σ}
    (hxs : x s = some (a, t)) : post a t := by
  obtain ⟨a', t', hxs', hpost⟩ := h
  rw [hxs] at hxs'
  cases hxs'
  exact hpost

/-- What is known about the value as well. -/
theorem with_value {γ : Type} {post : α → σ → Prop} (h : Returns x s post) (view : α → γ) {c : γ}
    (hvalue : (x s).map (fun r => view r.1) = some c) :
    Returns x s fun b t => view b = c ∧ post b t := by
  obtain ⟨b, t, hxs, hpost⟩ := h
  rw [hxs] at hvalue
  exact ⟨b, t, hxs, Option.some.inj hvalue, hpost⟩

/-- The rule of a loop over a list.  The invariant relates the elements that
are done, their results and the state. -/
theorem mapM {g : α → StateT σ Option β} (inv : List α → List β → σ → Prop)
    (hstep : ∀ done results t a, inv done results t →
      Returns (g a) t (fun b u => inv (done ++ [a]) (results ++ [b]) u))
    (as : List α) (hinit : inv [] [] s) :
    Returns (as.mapM g) s (fun results t => inv as results t) := by
  have hloop : ∀ (as done : List α) (results : List β) (t : σ), inv done results t →
      Returns (as.mapM g) t (fun rest u => inv (done ++ as) (results ++ rest) u) := by
    intro as
    induction as with
    | nil =>
      intro done results t h
      rw [List.mapM_nil]
      exact pure (by simpa using h)
    | cons a as ih =>
      intro done results t h
      rw [List.mapM_cons]
      refine bind (hstep done results t a h) fun b u hu => ?_
      refine bind (ih _ _ u hu) fun rest v hv => ?_
      exact pure (by simpa using hv)
  simpa using hloop as [] [] s hinit

end Returns

/-- If the computation ends, its value and its state satisfy `post`. -/
def IfReturns {σ α : Type} (x : StateT σ Option α) (s : σ) (post : α → σ → Prop) : Prop :=
  ∀ a t, x s = some (a, t) → post a t

namespace IfReturns

variable {σ α β : Type} {x : StateT σ Option α} {f : α → StateT σ Option β} {s : σ}

theorem of_returns {post : α → σ → Prop} (h : Returns x s post) : IfReturns x s post :=
  fun _ _ hxs => h.of_eq hxs

/-- A computation that ends has what it would have if it ended. -/
theorem returns {post : α → σ → Prop} (h : IfReturns x s post) (hends : (x s).isSome) :
    Returns x s post := by
  obtain ⟨⟨a, t⟩, hxs⟩ := Option.isSome_iff_exists.mp hends
  exact ⟨a, t, hxs, h a t hxs⟩

theorem failure {post : α → σ → Prop} :
    IfReturns (Alternative.failure : StateT σ Option α) s post := by
  intro a t h
  cases h

/-- The rule of one step of a `do` block. -/
theorem bind {mid : α → σ → Prop} {post : β → σ → Prop} (hx : IfReturns x s mid)
    (hf : ∀ a t, mid a t → IfReturns (f a) t post) : IfReturns (x >>= f) s post := by
  intro b u h
  change (x s).bind (fun p => f p.1 p.2) = some (b, u) at h
  obtain ⟨⟨a, t⟩, hxs, hft⟩ := Option.bind_eq_some_iff.mp h
  exact hf a t (hx a t hxs) b u hft

/-- The rule of one step that is known to end. -/
theorem bind_returns {mid : α → σ → Prop} {post : β → σ → Prop} (hx : Returns x s mid)
    (hf : ∀ a t, mid a t → IfReturns (f a) t post) : IfReturns (x >>= f) s post :=
  bind (of_returns hx) hf

theorem mono {post post' : α → σ → Prop} (h : IfReturns x s post)
    (himp : ∀ a t, post a t → post' a t) : IfReturns x s post' :=
  fun a t hxs => himp a t (h a t hxs)

end IfReturns
