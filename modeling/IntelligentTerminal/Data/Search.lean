import Mathlib

/-!
# Searching a list for another one

A delimiter is searched in a list, from the front or from the back, and what is in front of it and
behind it is returned. The last occurrence is where it is expected when the delimiter does not occur
behind it and does not overlap itself.
-/

namespace IntelligentTerminal.Data

variable {α : Type*} [DecidableEq α]

/-- Around the first occurrence. -/
def splitOnce (d : List α) : List α → Option (List α × List α)
  | [] => if d = [] then some ([], []) else none
  | x :: s =>
    if d <+: x :: s then some ([], (x :: s).drop d.length)
    else (splitOnce d s).map fun (a, b) => (x :: a, b)

/-- Around the last occurrence. -/
def rsplitOnce (d : List α) : List α → Option (List α × List α)
  | [] => if d = [] then some ([], []) else none
  | x :: s =>
    match rsplitOnce d s with
    | some (a, b) => some (x :: a, b)
    | none => if d <+: x :: s then some ([], (x :: s).drop d.length) else none

/-- Each occurrence of `d` that does not overlap the one before it is replaced by `t`. At most
`fuel` elements are passed. -/
def replaceLoop (d t : List α) : ℕ → List α → List α
  | 0, s => s
  | _, [] => []
  | fuel + 1, x :: s =>
    if d <+: x :: s then t ++ replaceLoop d t fuel ((x :: s).drop d.length)
    else x :: replaceLoop d t fuel s

/-- Each occurrence of `d` is replaced by `t`. -/
def replaceAll (d t s : List α) : List α := replaceLoop d t s.length s

/-- No end of a list is a beginning of it, except for the whole list and the empty one. -/
def Borderless (d : List α) : Prop := ∀ k < d.length, 0 < k → ¬ d.drop k <+: d

instance (d : List α) : Decidable (Borderless d) :=
  inferInstanceAs (Decidable (∀ k < d.length, 0 < k → ¬ d.drop k <+: d))

variable {d s u a b : List α}

theorem rsplitOnce_eq_none (h : ¬ d <:+: s) : rsplitOnce d s = none := by
  induction s with
  | nil =>
    refine if_neg ?_
    rintro rfl
    exact h (List.infix_refl [])
  | cons x s ih =>
    have htail : ¬ d <:+: s := fun hs => h (List.infix_cons hs)
    rw [rsplitOnce, ih htail]
    exact if_neg fun hprefix => h hprefix.isInfix

theorem exists_rsplitOnce (h : d <:+: s) :
    ∃ a b, rsplitOnce d s = some (a, b) ∧ s = a ++ d ++ b := by
  induction s with
  | nil =>
    obtain rfl := List.eq_nil_of_infix_nil h
    exact ⟨[], [], rfl, rfl⟩
  | cons x s ih =>
    rw [rsplitOnce]
    by_cases htail : d <:+: s
    · obtain ⟨a, b, hs, rfl⟩ := ih htail
      rw [hs]
      exact ⟨x :: a, b, rfl, rfl⟩
    · have hprefix : d <+: x :: s := (List.infix_cons_iff.mp h).resolve_right htail
      obtain ⟨b, hb⟩ := hprefix
      rw [rsplitOnce_eq_none htail]
      refine ⟨[], b, ?_, hb.symm⟩
      dsimp only
      rw [if_pos ⟨b, hb⟩, ← hb, List.drop_left]

theorem rsplitOnce_append_of_eq_some (front : List α) (h : rsplitOnce d s = some (a, b)) :
    rsplitOnce d (front ++ s) = some (front ++ a, b) := by
  induction front with
  | nil => exact h
  | cons x front ih => rw [List.cons_append, rsplitOnce, ih, List.cons_append]

omit [DecidableEq α] in
theorem not_infix_tail_append (hd : Borderless d) (hu : ¬ d <:+: u) (hne : d ≠ []) :
    ¬ d <:+: d.tail ++ u := by
  rintro ⟨a, b, hab⟩
  have hpos := List.length_pos_iff.mpr hne
  have hdrop := congrArg (·.drop a.length) hab
  rw [List.append_assoc, List.drop_left] at hdrop
  by_cases hlength : a.length < d.tail.length
  · rw [List.length_tail] at hlength
    rw [List.drop_append_of_le_length (by rw [List.length_tail]; omega), List.drop_tail] at hdrop
    refine hd (a.length + 1) (by omega) (Nat.succ_pos _) ?_
    exact List.prefix_of_prefix_length_le ⟨u, hdrop.symm⟩ (List.prefix_append d b)
      (by rw [List.length_drop]; omega)
  · refine hu ?_
    rw [List.drop_append, List.drop_eq_nil_of_le (not_lt.mp hlength), List.nil_append] at hdrop
    exact (List.prefix_append d b).isInfix.trans (hdrop ▸ (List.drop_suffix _ u).isInfix)

theorem rsplitOnce_append (front : List α) (hd : Borderless d) (hne : d ≠ []) (hu : ¬ d <:+: u) :
    rsplitOnce d (front ++ d ++ u) = some (front, u) := by
  rw [List.append_assoc]
  have hlast : rsplitOnce d (d ++ u) = some ([], u) := by
    obtain ⟨x, t, rfl⟩ := List.exists_cons_of_ne_nil hne
    have hnone := rsplitOnce_eq_none (not_infix_tail_append hd hu hne)
    rw [List.tail_cons] at hnone
    rw [List.cons_append, rsplitOnce, hnone]
    dsimp only
    rw [← List.cons_append, if_pos (List.prefix_append _ u), List.drop_left]
  rw [rsplitOnce_append_of_eq_some front hlast, List.append_nil]

theorem exists_rsplitOnce_append (front : List α) (hu : d <:+: u) :
    ∃ a b, rsplitOnce d (front ++ u) = some (front ++ a, b) ∧ u = a ++ d ++ b := by
  obtain ⟨a, b, hs, heq⟩ := exists_rsplitOnce hu
  exact ⟨a, b, rsplitOnce_append_of_eq_some front hs, heq⟩

end IntelligentTerminal.Data
