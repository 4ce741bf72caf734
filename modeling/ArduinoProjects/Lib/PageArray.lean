import ArduinoProjects.Lib.Machine
import Mathlib.Data.List.OfFn

/-!
# Arrays of independent pages

The abstract model of a paged memory: a page for each number, and accesses
that update a part of one page or read a part of one page.

* `overlaid P accesses page` is a page overlaid with the updates of the
  accesses whose page number satisfies `P`.
* `run_apply` gives each page after a run in these terms.
* `Access.rename` sends every access to another page number, which is what a
  driver does that encodes the page number in its own way.
-/

namespace PageArray

variable {ι κ β : Type} {n : Nat}

/-- The contents of a page of `n` cells. -/
abbrev Page (n : Nat) (β : Type) := Fin n → β

/-- New contents for some consecutive cells of a page. -/
structure Update (n : Nat) (β : Type) where
  off : Nat
  data : List β
  fits : off + data.length ≤ n

/-- Some consecutive cells of a page. -/
structure Range (n : Nat) where
  off : Nat
  len : Nat
  fits : off + len ≤ n

/-- The page with the cells of the update replaced. -/
def Update.overlay (u : Update n β) (page : Page n β) : Page n β := fun i =>
  if h : u.off ≤ i.val ∧ i.val < u.off + u.data.length then
    u.data.get ⟨i.val - u.off, by omega⟩
  else page i

/-- The cells of the range, in order. -/
def Range.read (r : Range n) (page : Page n β) : List β :=
  List.ofFn fun k : Fin r.len => page ⟨r.off + k.val, by
    have hfits := r.fits
    have hk := k.isLt
    omega⟩

theorem Update.overlay_nil {u : Update n β} (h : u.data = []) (page : Page n β) :
    u.overlay page = page := by
  funext i
  have hnot : ¬ (u.off ≤ i.val ∧ i.val < u.off + u.data.length) := by
    rw [h, List.length_nil]
    omega
  exact dif_neg hnot

/-- An update that writes what the page holds already. -/
theorem Update.overlay_eq_self {u : Update n β} {page : Page n β} {b : β}
    (hdata : ∀ x ∈ u.data, x = b) (hpage : ∀ i, page i = b) : u.overlay page = page := by
  funext i
  unfold Update.overlay
  split_ifs with h
  · rw [hpage i]
    exact hdata _ (List.getElem_mem _)
  · rfl

/-- An update with a cell in it shows on a page with other contents. -/
theorem Update.overlay_ne_self {u : Update n β} {page : Page n β} {b b' : β}
    (hne : u.data ≠ []) (hdata : ∀ x ∈ u.data, x = b) (hpage : ∀ i, page i = b') (hb : b ≠ b') :
    u.overlay page ≠ page := by
  intro heq
  have hlen : 0 < u.data.length := List.length_pos_iff.mpr hne
  have hfirst := congrFun heq ⟨u.off, by have := u.fits; omega⟩
  rw [hpage, Update.overlay, dif_pos (by dsimp only; omega)] at hfirst
  exact hb ((hdata _ (List.getElem_mem _)).symm.trans hfirst)

theorem Range.read_nil {r : Range n} (h : r.len = 0) (page page' : Page n β) :
    r.read page = r.read page' := by
  refine List.ext_getElem (by simp [Range.read]) fun i hi _ => ?_
  simp [Range.read, h] at hi

/-- A range with a cell in it tells two constant pages apart. -/
theorem Range.read_ne {r : Range n} (h : r.len ≠ 0) {b b' : β} (hb : b ≠ b') :
    r.read (fun _ => b) ≠ r.read (fun _ => b') := by
  intro heq
  have hlen : 0 < r.len := by omega
  have hhead := congrArg (fun l : List β => l[0]?) heq
  simp [Range.read, hlen] at hhead
  exact hb hhead

/-! ## Accesses -/

/-- An update of a page or a read of a page. -/
inductive Access (ι : Type) (n : Nat) (β : Type) where
  | update (page : ι) (u : Update n β)
  | read (page : ι) (r : Range n)

namespace Access

/-- The page that the access is to. -/
def page : Access ι n β → ι
  | update p _ => p
  | read p _ => p

/-- The number of cells that the access updates or reads. -/
def length : Access ι n β → Nat
  | update _ u => u.data.length
  | read _ r => r.len

/-- The access with another page number. -/
def rename (φ : ι → κ) : Access ι n β → Access κ n β
  | update p u => update (φ p) u
  | read p r => read (φ p) r

end Access

/-- A page overlaid with the updates of the accesses whose page number
satisfies `P`, oldest first. -/
def overlaid (P : ι → Prop) [DecidablePred P] : List (Access ι n β) → Page n β → Page n β
  | [], page => page
  | .update p u :: rest, page => overlaid P rest (if P p then u.overlay page else page)
  | .read _ _ :: rest, page => overlaid P rest page

section overlaid

variable {P Q : ι → Prop} [DecidablePred P] [DecidablePred Q]

/-- The page numbers of the accesses to no cell do not matter. -/
theorem overlaid_congr {accesses : List (Access ι n β)}
    (h : ∀ a ∈ accesses, a.length ≠ 0 → (P a.page ↔ Q a.page)) (page : Page n β) :
    overlaid P accesses page = overlaid Q accesses page := by
  induction accesses generalizing page with
  | nil => rfl
  | cons a rest ih =>
    have hrest := ih fun b hb => h b (List.mem_cons_of_mem a hb)
    cases a with
    | read p r => exact hrest page
    | update p u =>
      by_cases hu : u.data = []
      · simp only [overlaid, Update.overlay_nil hu, ite_self]
        exact hrest page
      · have hiff : P p ↔ Q p := h _ List.mem_cons_self (by simpa [Access.length] using hu)
        simp only [overlaid, hiff]
        exact hrest _

/-- Updates that write what a page holds already leave it as it is. -/
theorem overlaid_eq_self {accesses : List (Access ι n β)} {page : Page n β} {b : β}
    (hpage : ∀ i, page i = b)
    (h : ∀ p u, Access.update p u ∈ accesses → P p → ∀ x ∈ u.data, x = b) :
    overlaid P accesses page = page := by
  induction accesses with
  | nil => rfl
  | cons a rest ih =>
    have hrest := ih fun p u hu => h p u (List.mem_cons_of_mem a hu)
    cases a with
    | read p r => exact hrest
    | update p u =>
      have hself : (if P p then u.overlay page else page) = page := by
        split_ifs with hp
        · exact Update.overlay_eq_self (h p u List.mem_cons_self hp) hpage
        · rfl
      simp only [overlaid, hself]
      exact hrest

theorem overlaid_rename {φ : κ → ι} (accesses : List (Access κ n β)) (page : Page n β) :
    overlaid P (accesses.map (Access.rename φ)) page =
      overlaid (fun p => P (φ p)) accesses page := by
  induction accesses generalizing page with
  | nil => rfl
  | cons a rest ih =>
    cases a with
    | read p r => exact ih page
    | update p u => exact ih _

end overlaid

/-! ## The array -/

variable [DecidableEq ι]

/-- The array of pages.  A read answers with the cells it reads. -/
def array (ι : Type) [DecidableEq ι] (n : Nat) (β : Type) :
    Machine (ι → Page n β) (Access ι n β) (List β) where
  step pages
    | .update p u => (Function.update pages p (u.overlay (pages p)), [])
    | .read p r => (pages, r.read (pages p))

@[simp] theorem array_next_update (pages : ι → Page n β) (p : ι) (u : Update n β) :
    (array ι n β).next pages (.update p u) =
      Function.update pages p (u.overlay (pages p)) := rfl

/-- Each page after a run is its initial contents, overlaid with exactly the
updates made to it. -/
theorem run_apply (pages : ι → Page n β) (accesses : List (Access ι n β)) (p : ι) :
    (array ι n β).run pages accesses p = overlaid (· = p) accesses (pages p) := by
  induction accesses generalizing pages with
  | nil => rfl
  | cons a rest ih =>
    cases a with
    | read q r => exact ih pages
    | update q u =>
      refine (ih _).trans ?_
      rw [array_next_update]
      by_cases hq : q = p
      · subst hq
        simp [overlaid]
      · simp [overlaid, hq, Function.update_of_ne (Ne.symm hq)]

end PageArray
