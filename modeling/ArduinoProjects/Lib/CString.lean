import Mathlib.Data.List.Basic

/-!
# Strings that end with a terminator

C keeps a string in a longer array and marks its end with a terminator.  `text` is
what a reader of the array finds: the elements up to the first terminator, or
nothing at all when there is none and the reader runs past the array.

`overwrite` stores some elements at the front of the array and no terminator behind
them.  `text_overwrite_eq_iff` says when they can be read back.  `Padded` is the shape
that an array of terminators keeps under such stores: some elements without a
terminator in front, and only terminators behind.
-/

namespace CString

variable {α : Type*} (nul : α)

/-- What a reader of the array finds. -/
def text [DecidableEq α] : List α → Option (List α)
  | [] => none
  | a :: rest => if a = nul then some [] else (text rest).map (a :: ·)

/-- The array after some elements have been stored at its front. -/
def overwrite (array data : List α) : List α := data ++ array.drop data.length

/-- The first `used` elements of an array of `n` are no terminators, and the others
all are. -/
def Padded (n used : Nat) (array : List α) : Prop :=
  ∃ content : List α, content.length = used ∧ used ≤ n ∧ nul ∉ content ∧
    array = content ++ List.replicate (n - used) nul

variable {nul}

/-! ## What is stored -/

theorem length_overwrite {array data : List α} (h : data.length ≤ array.length) :
    (overwrite array data).length = array.length := by
  rw [overwrite, List.length_append, List.length_drop]
  omega

theorem padded_replicate (n : Nat) : Padded nul n 0 (List.replicate n nul) :=
  ⟨[], rfl, Nat.zero_le n, List.not_mem_nil, rfl⟩

/-- The terminators of a padded array. -/
theorem Padded.getElem?_eq_nul_iff {n used : Nat} {array : List α} (h : Padded nul n used array)
    (i : Nat) : array[i]? = some nul ↔ used ≤ i ∧ i < n := by
  obtain ⟨content, rfl, hle, hcontent, rfl⟩ := h
  rw [List.getElem?_append]
  split_ifs with hi
  · refine iff_of_false ?_ (by omega)
    intro hget
    exact hcontent (List.mem_of_getElem? hget)
  · rw [List.getElem?_replicate]
    split_ifs with hlt
    · exact iff_of_true rfl (by omega)
    · exact iff_of_false (by simp) (by omega)

theorem Padded.nul_mem_iff {n used : Nat} {array : List α} (h : Padded nul n used array) :
    nul ∈ array ↔ used < n := by
  rw [List.mem_iff_getElem?]
  constructor
  · rintro ⟨i, hi⟩
    obtain ⟨hle, hlt⟩ := (h.getElem?_eq_nul_iff i).mp hi
    omega
  · intro hlt
    exact ⟨used, (h.getElem?_eq_nul_iff used).mpr ⟨Nat.le_refl used, hlt⟩⟩

/-- A store of elements that are no terminators keeps the shape. -/
theorem Padded.overwrite {n used : Nat} {array data : List α} (h : Padded nul n used array)
    (hdata : nul ∉ data) (hlen : data.length ≤ n) :
    Padded nul n (max used data.length) (overwrite array data) := by
  obtain ⟨content, rfl, hle, hcontent, rfl⟩ := h
  refine ⟨data ++ content.drop data.length, ?_, by omega, ?_, ?_⟩
  · rw [List.length_append, List.length_drop]
    omega
  · rw [List.mem_append, not_or]
    exact ⟨hdata, fun hmem => hcontent (List.mem_of_mem_drop hmem)⟩
  · rw [CString.overwrite, List.drop_append, List.drop_replicate, List.append_assoc]
    congr 3
    omega

/-! ## What is found -/

section Text

variable [DecidableEq α]

theorem text_append {s : List α} (h : nul ∉ s) (rest : List α) :
    text nul (s ++ rest) = (text nul rest).map (s ++ ·) := by
  induction s with
  | nil => simp
  | cons a s ih =>
    rw [List.mem_cons, not_or] at h
    rw [List.cons_append, text, if_neg (Ne.symm h.1), ih h.2, Option.map_map]
    rfl

/-- The reader finds the empty string exactly when the array starts with a
terminator. -/
theorem text_eq_nil_iff (array : List α) : text nul array = some [] ↔ array.head? = some nul := by
  cases array with
  | nil => simp [text]
  | cons a rest =>
    rw [text, List.head?_cons, Option.some_inj]
    split_ifs with ha
    · exact iff_of_true rfl ha
    · exact iff_of_false (by simp) ha

/-- The reader runs past the array exactly when it holds no terminator. -/
theorem text_eq_none_iff (array : List α) : text nul array = none ↔ nul ∉ array := by
  induction array with
  | nil => simp [text]
  | cons a rest ih =>
    rw [text, List.mem_cons, not_or]
    split_ifs with ha
    · exact iff_of_false (by simp) fun h => h.1 ha.symm
    · rw [Option.map_eq_none_iff, ih]
      exact ⟨fun h => ⟨Ne.symm ha, h⟩, And.right⟩

/-- What was stored is found again exactly when the element behind it is a
terminator. -/
theorem text_overwrite_eq_iff (array : List α) {data : List α} (h : nul ∉ data) :
    text nul (overwrite array data) = some data ↔ array[data.length]? = some nul := by
  rw [overwrite, text_append h, Option.map_eq_some_iff, ← List.head?_drop, ← text_eq_nil_iff]
  constructor
  · rintro ⟨tail, htail, heq⟩
    rw [htail, List.append_right_eq_self.mp heq]
  · intro hnil
    exact ⟨[], hnil, List.append_nil data⟩

end Text

end CString
