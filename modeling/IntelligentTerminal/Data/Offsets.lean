import Mathlib

/-!
# Positions in a list whose elements have a width

A text whose characters take several bytes each, or a line whose cells take several columns, is a
list with a width for each element. A position counts units of width from the start, and it lies
between two elements or inside one. Where every width is positive, the positions between elements
and the ways to take the list apart are the same.
-/

namespace IntelligentTerminal.Data

variable {α β : Type*} (w : α → ℕ) {a b : List α}

/-- The width of a list. -/
def width (s : List α) : ℕ := (s.map w).sum

/-- The longest beginning of a list that is not wider than `n`. -/
def takeWidth : ℕ → List α → List α
  | _, [] => []
  | n, x :: s => if w x ≤ n then x :: takeWidth (n - w x) s else []

/-- What is behind the longest beginning that is not wider than `n`. -/
def dropWidth (n : ℕ) (s : List α) : List α := s.drop (takeWidth w n s).length

/-- A position between two elements, or at an end. -/
def IsBoundary (s : List α) (i : ℕ) : Prop := width w (takeWidth w i s) = i

instance (s : List α) (i : ℕ) : Decidable (IsBoundary w s i) :=
  inferInstanceAs (Decidable (_ = _))

@[simp] theorem width_nil : width w [] = 0 := rfl

@[simp] theorem width_cons (x : α) (s : List α) : width w (x :: s) = w x + width w s :=
  List.sum_cons

@[simp] theorem width_append (s t : List α) : width w (s ++ t) = width w s + width w t := by
  simp [width]

theorem width_flatMap (f : β → List α) (s : List β) :
    width w (s.flatMap f) = width (fun x => width w (f x)) s := by
  induction s with
  | nil => rfl
  | cons x s ih => rw [List.flatMap_cons, width_append, width_cons, ih]

theorem takeWidth_isPrefix (n : ℕ) (s : List α) : takeWidth w n s <+: s := by
  induction s generalizing n with
  | nil => exact List.prefix_rfl
  | cons x s ih =>
    rw [takeWidth]
    split_ifs
    · exact (List.prefix_cons_inj x).mpr (ih _)
    · exact List.nil_prefix

@[simp] theorem takeWidth_append_dropWidth (n : ℕ) (s : List α) :
    takeWidth w n s ++ dropWidth w n s = s :=
  List.prefix_iff_eq_append.mp (takeWidth_isPrefix w n s)

theorem takeWidth_of_between {x : α} {i : ℕ} (hle : width w a ≤ i)
    (hlt : i < width w a + w x) : takeWidth w i (a ++ x :: b) = a := by
  induction a generalizing i with
  | nil => exact if_neg (by rw [width_nil] at hlt; omega)
  | cons y a ih =>
    rw [width_cons] at hle hlt
    rw [List.cons_append, takeWidth, if_pos (by omega), ih (by omega) (by omega)]

theorem IsBoundary.eq_of_between {x : α} {i : ℕ}
    (h : IsBoundary w (a ++ x :: b) i) (hle : width w a ≤ i) (hlt : i < width w a + w x) :
    i = width w a := by
  rw [IsBoundary, takeWidth_of_between w hle hlt] at h
  exact h.symm

section Positive

variable {w} (hw : ∀ x, 0 < w x) {s a b a' b' : List α} {i j : ℕ}
include hw

theorem width_eq_zero : width w s = 0 ↔ s = [] := by
  cases s with
  | nil => simp
  | cons x s =>
    have := hw x
    simp only [width_cons, reduceCtorEq, iff_false]
    omega

theorem takeWidth_width_append (a b : List α) : takeWidth w (width w a) (a ++ b) = a := by
  induction a with
  | nil =>
    cases b with
    | nil => rfl
    | cons x b => exact if_neg (not_le.mpr (hw x))
  | cons x a ih =>
    rw [List.cons_append, takeWidth, width_cons, if_pos (Nat.le_add_right _ _),
      Nat.add_sub_cancel_left, ih]

theorem dropWidth_width_append (a b : List α) : dropWidth w (width w a) (a ++ b) = b := by
  rw [dropWidth, takeWidth_width_append hw, List.drop_left]

theorem isBoundary_append (a b : List α) : IsBoundary w (a ++ b) (width w a) := by
  rw [IsBoundary, takeWidth_width_append hw]

theorem isBoundary_iff : IsBoundary w s i ↔ ∃ a b, s = a ++ b ∧ width w a = i := by
  constructor
  · intro h
    exact ⟨takeWidth w i s, dropWidth w i s, (takeWidth_append_dropWidth w i s).symm, h⟩
  · rintro ⟨a, b, rfl, rfl⟩
    exact isBoundary_append hw a b

theorem isBoundary_zero (s : List α) : IsBoundary w s 0 := isBoundary_append hw [] s

theorem isBoundary_width (s : List α) : IsBoundary w s (width w s) := by
  simpa using isBoundary_append hw s []

omit hw in
theorem IsBoundary.le (h : IsBoundary w s i) : i ≤ width w s := by
  rw [← takeWidth_append_dropWidth w i s, width_append, h]
  exact Nat.le_add_right _ _

theorem append_inj_of_width (h : a ++ b = a' ++ b') (hwidth : width w a = width w a') :
    a = a' ∧ b = b' := by
  have htake := takeWidth_width_append hw a b
  rw [h, hwidth, takeWidth_width_append hw] at htake
  subst htake
  exact ⟨rfl, List.append_cancel_left h⟩

theorem exists_append_of_isBoundary (hi : IsBoundary w s i) (hj : IsBoundary w s j) (hij : i ≤ j) :
    ∃ a m b, s = a ++ m ++ b ∧ width w a = i ∧ width w (a ++ m) = j := by
  obtain ⟨a, rest, rfl, rfl⟩ := (isBoundary_iff hw).mp hi
  obtain ⟨c, d, hcd, hc⟩ := (isBoundary_iff hw).mp hj
  have hprefix : c <+: a ++ rest := hcd ▸ List.prefix_append c d
  obtain ⟨m, rfl⟩ : a <+: c := by
    refine List.prefix_of_prefix_length_le (List.prefix_append a rest) hprefix ?_
    by_contra hlt
    obtain ⟨m, rfl⟩ := List.prefix_of_prefix_length_le hprefix (List.prefix_append a rest)
      (le_of_not_ge hlt)
    rw [width_append] at hij
    have hm : m = [] := (width_eq_zero hw).mp (by omega)
    subst hm
    exact hlt (by simp)
  exact ⟨a, m, d, hcd, rfl, hc⟩

end Positive

end IntelligentTerminal.Data
