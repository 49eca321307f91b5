import Mathlib.Algebra.GroupWithZero.Nat
import Mathlib.Algebra.Order.BigOperators.Group.List
import Mathlib.Data.List.Basic

/-!
# Sequences of glyphs on a line of cells

A glyph is a non-empty piece of text that covers one or two cells. A line of cells is a list of
glyphs: `cols` counts the cells it covers and `units` the pieces of text it holds. A column of
the line is either the boundary between two glyphs or lies inside a glyph of two cells
(`exists_split`).

Replacing the cells from `b` to `e` by other glyphs keeps the glyphs wholly outside and turns
each remaining cell of a glyph that was cut into a blank of one cell (`splice`).
-/

namespace IntelligentTerminal

/-- A piece of text that covers one or two cells. -/
@[ext] structure Glyph (α : Type*) where
  text : List α
  width : ℕ
  text_ne_nil : text ≠ []
  width_pos : 0 < width
  width_le : width ≤ 2
deriving DecidableEq

namespace Glyph

variable {α : Type*}

theorem length_text_pos (g : Glyph α) : 0 < g.text.length :=
  List.length_pos_of_ne_nil g.text_ne_nil

theorem width_eq (g : Glyph α) : g.width = 1 ∨ g.width = 2 := by
  have h₁ := g.width_pos
  have h₂ := g.width_le
  omega

/-- One unit of text on one cell. -/
@[simps] def single (c : α) : Glyph α where
  text := [c]
  width := 1
  text_ne_nil := List.cons_ne_nil _ _
  width_pos := Nat.one_pos
  width_le := by decide

/-- The blank of one cell, `sp` being the unit that stands for a space. -/
abbrev blank (sp : α) : Glyph α := single sp

/-- `k` blanks of one cell. -/
def blanks (sp : α) (k : ℕ) : List (Glyph α) := List.replicate k (blank sp)

@[simp] theorem blanks_zero (sp : α) : blanks sp 0 = [] := rfl

theorem blanks_succ (sp : α) (k : ℕ) : blanks sp (k + 1) = blank sp :: blanks sp k := rfl

theorem blanks_add (sp : α) (j k : ℕ) : blanks sp (j + k) = blanks sp j ++ blanks sp k :=
  List.replicate_add j k _

end Glyph

open Glyph

variable {α : Type*} {gs : List (Glyph α)}

/-! ### The size and the text of a line -/

/-- The number of cells of a line. -/
def cols (gs : List (Glyph α)) : ℕ := (gs.map Glyph.width).sum

/-- The text of a line. -/
def textOf (gs : List (Glyph α)) : List α := gs.flatMap Glyph.text

/-- The length of the text of a line. -/
def units (gs : List (Glyph α)) : ℕ := (textOf gs).length

@[simp] theorem cols_nil : cols ([] : List (Glyph α)) = 0 := rfl

@[simp] theorem cols_cons (g : Glyph α) (gs : List (Glyph α)) :
    cols (g :: gs) = g.width + cols gs := by
  simp [cols]

@[simp] theorem cols_append (gs hs : List (Glyph α)) : cols (gs ++ hs) = cols gs + cols hs := by
  simp [cols]

@[simp] theorem textOf_nil : textOf ([] : List (Glyph α)) = [] := rfl

@[simp] theorem textOf_cons (g : Glyph α) (gs : List (Glyph α)) :
    textOf (g :: gs) = g.text ++ textOf gs := rfl

@[simp] theorem textOf_append (gs hs : List (Glyph α)) :
    textOf (gs ++ hs) = textOf gs ++ textOf hs :=
  List.flatMap_append

@[simp] theorem units_nil : units ([] : List (Glyph α)) = 0 := rfl

@[simp] theorem units_cons (g : Glyph α) (gs : List (Glyph α)) :
    units (g :: gs) = g.text.length + units gs := by
  simp [units]

@[simp] theorem units_append (gs hs : List (Glyph α)) :
    units (gs ++ hs) = units gs + units hs := by
  simp [units]

@[simp] theorem length_textOf (gs : List (Glyph α)) : (textOf gs).length = units gs := rfl

@[simp] theorem cols_blanks (sp : α) (k : ℕ) : cols (blanks sp k) = k := by
  simp [cols, blanks]

@[simp] theorem textOf_blanks (sp : α) (k : ℕ) : textOf (blanks sp k) = List.replicate k sp := by
  induction k with
  | zero => rfl
  | succ k ih => rw [blanks_succ, textOf_cons, ih]; rfl

@[simp] theorem units_blanks (sp : α) (k : ℕ) : units (blanks sp k) = k := by
  rw [units, textOf_blanks, List.length_replicate]

@[simp] theorem cols_map_single (t : List α) : cols (t.map single) = t.length := by
  induction t with
  | nil => rfl
  | cons c t ih => rw [List.map_cons, cols_cons, ih, single_width, List.length_cons, Nat.add_comm]

@[simp] theorem textOf_map_single (t : List α) : textOf (t.map single) = t := by
  induction t with
  | nil => rfl
  | cons c t ih => rw [List.map_cons, textOf_cons, ih]; rfl

@[simp] theorem units_map_single (t : List α) : units (t.map single) = t.length := by
  rw [units, textOf_map_single]

theorem textOf_ne_nil (h : gs ≠ []) : textOf gs ≠ [] := by
  obtain ⟨g, gs, rfl⟩ := List.exists_cons_of_ne_nil h
  rw [textOf_cons]
  exact List.append_ne_nil_of_left_ne_nil g.text_ne_nil _

/-! ### Boundaries and cuts -/

theorem exists_split (gs : List (Glyph α)) {b : ℕ} (hb : b ≤ cols gs) :
    (∃ A B, gs = A ++ B ∧ cols A = b) ∨
      ∃ A g B, gs = A ++ g :: B ∧ cols A + 1 = b ∧ g.width = 2 := by
  induction gs generalizing b with
  | nil =>
    rw [cols_nil, Nat.le_zero] at hb
    exact Or.inl ⟨[], [], rfl, hb.symm⟩
  | cons g gs ih =>
    rw [cols_cons] at hb
    by_cases hlt : b < g.width
    · have hw := g.width_le
      rcases Nat.eq_zero_or_pos b with rfl | hpos
      · exact Or.inl ⟨[], g :: gs, rfl, rfl⟩
      · exact Or.inr ⟨[], g, gs, rfl, by simp only [cols_nil]; omega, by omega⟩
    · rcases ih (b := b - g.width) (by omega) with ⟨A, B, rfl, hA⟩ | ⟨A, g', B, rfl, hA, hw⟩
      · exact Or.inl ⟨g :: A, B, rfl, by rw [cols_cons]; omega⟩
      · exact Or.inr ⟨g :: A, g', B, rfl, by rw [cols_cons]; omega, hw⟩

/-- The glyphs wholly left of column `b`, then a blank for each cell left of `b` of a glyph
that `b` cuts. -/
def leftOf (sp : α) : List (Glyph α) → ℕ → List (Glyph α)
  | [], _ => []
  | g :: gs, b => if g.width ≤ b then g :: leftOf sp gs (b - g.width) else blanks sp b

/-- A blank for each cell right of `e` of a glyph that `e` cuts, then the glyphs wholly right
of column `e`. -/
def rightOf (sp : α) : List (Glyph α) → ℕ → List (Glyph α)
  | [], _ => []
  | g :: gs, e =>
    if e = 0 then g :: gs
    else if g.width ≤ e then rightOf sp gs (e - g.width) else blanks sp (g.width - e) ++ gs

/-- The line with the cells from `b` to `e` replaced by the glyphs `new`. -/
def splice (sp : α) (gs : List (Glyph α)) (b : ℕ) (new : List (Glyph α)) (e : ℕ) :
    List (Glyph α) :=
  leftOf sp gs b ++ new ++ rightOf sp gs e

variable (sp : α) {gs hs : List (Glyph α)} {g : Glyph α} {k : ℕ}

@[simp] theorem leftOf_zero (gs : List (Glyph α)) : leftOf sp gs 0 = [] := by
  cases gs with
  | nil => rfl
  | cons g gs =>
    have := g.width_pos
    rw [leftOf, if_neg (by omega), blanks_zero]

@[simp] theorem rightOf_zero (gs : List (Glyph α)) : rightOf sp gs 0 = gs := by
  cases gs with
  | nil => rfl
  | cons g gs => rw [rightOf, if_pos rfl]

theorem leftOf_append_add (A B : List (Glyph α)) (b : ℕ) :
    leftOf sp (A ++ B) (cols A + b) = A ++ leftOf sp B b := by
  induction A with
  | nil => rw [cols_nil, Nat.zero_add]; rfl
  | cons g A ih =>
    rw [List.cons_append, leftOf, cols_cons, if_pos (by omega),
      show g.width + cols A + b - g.width = cols A + b by omega, ih, List.cons_append]

theorem rightOf_append_add (A B : List (Glyph α)) (e : ℕ) :
    rightOf sp (A ++ B) (cols A + e) = rightOf sp B e := by
  induction A with
  | nil => rw [cols_nil, Nat.zero_add]; rfl
  | cons g A ih =>
    have := g.width_pos
    rw [List.cons_append, rightOf, cols_cons, if_neg (by omega), if_pos (by omega),
      show g.width + cols A + e - g.width = cols A + e by omega, ih]

theorem leftOf_append (A B : List (Glyph α)) : leftOf sp (A ++ B) (cols A) = A := by
  simpa using leftOf_append_add sp A B 0

theorem rightOf_append (A B : List (Glyph α)) : rightOf sp (A ++ B) (cols A) = B := by
  simpa using rightOf_append_add sp A B 0

theorem leftOf_cut (A B : List (Glyph α)) (hg : g.width = 2) :
    leftOf sp (A ++ g :: B) (cols A + 1) = A ++ [blank sp] := by
  rw [leftOf_append_add, leftOf, if_neg (by omega)]
  rfl

theorem rightOf_cut (A B : List (Glyph α)) (hg : g.width = 2) :
    rightOf sp (A ++ g :: B) (cols A + 1) = blank sp :: B := by
  rw [rightOf_append_add, rightOf, if_neg Nat.one_ne_zero, if_neg (by omega), hg]
  rfl

theorem cols_eq_zero_iff : cols gs = 0 ↔ gs = [] := by
  cases gs with
  | nil => simp
  | cons g gs =>
    have := g.width_pos
    simp only [cols_cons, reduceCtorEq, iff_false]
    omega

theorem exists_append_of_cols_le {A B D C : List (Glyph α)} (h : A ++ B = D ++ C)
    (hle : cols A ≤ cols D) : ∃ M, D = A ++ M ∧ B = M ++ C := by
  rcases List.append_eq_append_iff.mp h with ⟨M, hD, hB⟩ | ⟨M, hA, hC⟩
  · exact ⟨M, hD, hB⟩
  · have hM : M = [] := by
      rw [← cols_eq_zero_iff]
      rw [hA, cols_append] at hle
      omega
    subst hM
    exact ⟨[], by simpa using hA.symm, by simpa using hC.symm⟩

theorem exists_floor (gs : List (Glyph α)) {b : ℕ} (hb : b ≤ cols gs) :
    ∃ A B, gs = A ++ B ∧ cols A ≤ b ∧ leftOf sp gs b = A ++ blanks sp (b - cols A) ∧
      (b = cols A ∨ ∃ g B', B = g :: B' ∧ g.width = 2 ∧ b = cols A + 1) := by
  rcases exists_split gs hb with ⟨A, B, rfl, rfl⟩ | ⟨A, g, B, rfl, rfl, hg⟩
  · exact ⟨A, B, rfl, le_rfl, by rw [leftOf_append, Nat.sub_self]; simp, Or.inl rfl⟩
  · refine ⟨A, g :: B, rfl, Nat.le_succ _, ?_, Or.inr ⟨g, B, rfl, hg, rfl⟩⟩
    rw [leftOf_cut sp A B hg, Nat.add_sub_cancel_left]
    rfl

theorem exists_ceil (gs : List (Glyph α)) {e : ℕ} (he : e ≤ cols gs) :
    ∃ D C, gs = D ++ C ∧ e ≤ cols D ∧ rightOf sp gs e = blanks sp (cols D - e) ++ C ∧
      (e = cols D ∨ ∃ D' g, D = D' ++ [g] ∧ g.width = 2 ∧ e = cols D' + 1) := by
  rcases exists_split gs he with ⟨A, B, rfl, rfl⟩ | ⟨A, g, B, rfl, rfl, hg⟩
  · exact ⟨A, B, rfl, le_rfl, by rw [rightOf_append, Nat.sub_self]; rfl, Or.inl rfl⟩
  · have hcols : cols (A ++ [g]) = cols A + 2 := by
      rw [cols_append, cols_cons, cols_nil, hg]
    refine ⟨A ++ [g], B, by simp, by omega, ?_, Or.inr ⟨A, g, rfl, hg, rfl⟩⟩
    rw [rightOf_cut sp A B hg, hcols, show cols A + 2 - (cols A + 1) = 1 by omega]
    rfl

/-! ### Filling a range -/

/-- The longest start of a sequence of glyphs that fits into `k` cells. -/
def fitting : ℕ → List (Glyph α) → List (Glyph α)
  | _, [] => []
  | k, g :: gs => if g.width ≤ k then g :: fitting (k - g.width) gs else []

theorem fitting_isPrefix (k : ℕ) (gs : List (Glyph α)) : (fitting k gs).IsPrefix gs := by
  induction gs generalizing k with
  | nil => exact List.prefix_rfl
  | cons g gs ih =>
    rw [fitting]
    split_ifs
    · exact (List.cons_prefix_cons).mpr ⟨rfl, ih _⟩
    · exact List.nil_prefix

theorem fitting_isPrefix_fitting {j k : ℕ} (h : j ≤ k) (gs : List (Glyph α)) :
    (fitting j gs).IsPrefix (fitting k gs) := by
  induction gs generalizing j k with
  | nil => exact List.prefix_rfl
  | cons g gs ih =>
    rw [fitting, fitting]
    by_cases hj : g.width ≤ j
    · rw [if_pos hj, if_pos (hj.trans h)]
      exact (List.cons_prefix_cons).mpr ⟨rfl, ih (by omega)⟩
    · rw [if_neg hj]
      exact List.nil_prefix

theorem textOf_isPrefix (h : gs.IsPrefix hs) :
    (textOf gs).IsPrefix (textOf hs) := by
  obtain ⟨rest, rfl⟩ := h
  rw [textOf_append]
  exact List.prefix_append _ _

@[simp] theorem fitting_zero (gs : List (Glyph α)) : fitting 0 gs = [] := by
  cases gs with
  | nil => rfl
  | cons g gs =>
    have := g.width_pos
    rw [fitting, if_neg (by omega)]

theorem cols_fitting_le (k : ℕ) (gs : List (Glyph α)) : cols (fitting k gs) ≤ k := by
  induction gs generalizing k with
  | nil => exact Nat.zero_le k
  | cons g gs ih =>
    rw [fitting]
    split_ifs with h
    · have := ih (k - g.width)
      rw [cols_cons]
      omega
    · exact Nat.zero_le k

theorem fitting_append (h : cols gs ≤ k) :
    fitting k (gs ++ hs) = gs ++ fitting (k - cols gs) hs := by
  induction gs generalizing k with
  | nil => rfl
  | cons g gs ih =>
    rw [cols_cons] at h
    rw [List.cons_append, fitting, if_pos (by omega), ih (by omega), cols_cons, List.cons_append,
      Nat.sub_sub]

theorem fitting_append_self (A B : List (Glyph α)) : fitting (cols A) (A ++ B) = A := by
  rw [fitting_append le_rfl, Nat.sub_self, fitting_zero, List.append_nil]

theorem exists_fitting_append (hk : k ≤ cols gs) :
    ∃ B, gs = fitting k gs ++ B ∧ (k = cols (fitting k gs) ∨
      ∃ g B', B = g :: B' ∧ g.width = 2 ∧ k = cols (fitting k gs) + 1) := by
  rcases exists_split gs hk with ⟨A, B, rfl, rfl⟩ | ⟨A, g, B, rfl, rfl, hg⟩
  · rw [fitting_append_self]
    exact ⟨B, rfl, Or.inl rfl⟩
  · have hfit : fitting (cols A + 1) (A ++ g :: B) = A := by
      rw [fitting_append (by omega), Nat.add_sub_cancel_left, fitting, if_neg (by omega),
        List.append_nil]
    rw [hfit]
    exact ⟨g :: B, rfl, Or.inr ⟨g, B, rfl, hg, rfl⟩⟩

theorem fitting_eq_self_iff : fitting k gs = gs ↔ cols gs ≤ k := by
  constructor
  · intro h
    rw [← h]
    exact cols_fitting_le k gs
  · intro h
    induction gs generalizing k with
    | nil => rfl
    | cons g gs ih =>
      rw [cols_cons] at h
      rw [fitting, if_pos (by omega), ih (by omega)]

theorem fitting_min_append (k : ℕ) (gs hs : List (Glyph α)) :
    fitting (min k (cols gs)) (gs ++ hs) = fitting k gs := by
  induction gs generalizing k with
  | nil => rw [cols_nil, Nat.min_zero, fitting_zero, fitting]
  | cons g gs ih =>
    rw [List.cons_append, fitting, fitting, cols_cons]
    by_cases h : g.width ≤ k
    · rw [if_pos (by omega), if_pos h, ← ih (k - g.width)]
      congr 2
      omega
    · rw [if_neg (by omega), if_neg h]

theorem eq_of_isPrefix_of_units (h : gs <+: hs)
    (hu : units gs = units hs) : gs = hs := by
  obtain ⟨rest, rfl⟩ := h
  cases rest with
  | nil => rw [List.append_nil]
  | cons g rest =>
    have := g.length_text_pos
    rw [units_append, units_cons] at hu
    omega

theorem lt_of_fitting_append
    (h : gs = fitting k gs ++ g :: hs) : k < cols (fitting k gs) + g.width := by
  by_contra hle
  have hfit := congrArg (fitting k) h
  rw [fitting_append (cols_fitting_le k gs), fitting, if_pos (by omega)] at hfit
  have := congrArg List.length hfit
  simp at this

end IntelligentTerminal
