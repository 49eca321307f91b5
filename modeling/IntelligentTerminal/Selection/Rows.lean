import IntelligentTerminal.Selection.TextSelection

/-!
# The symbols of a row

A row of a frame is tiled by its symbols: each begins where the one before it ends. Where no symbol
takes more than two cells, `normalize_wide_cell_x` finds the first cell of a symbol from any of its
cells, and the loops step from symbol to symbol.
-/

namespace IntelligentTerminal.TextSelection

variable (env : Env) (b : Buffer)

/-! ### Layout -/

/-- The cells of the symbol that begins in a cell. -/
def extent (x y : ℕ) : ℕ := max (env.width (b.symbol x y)) 1

/-- The first cells of the symbols from `x` on, at most `n` of them. -/
def leadingLoop (y : ℕ) : ℕ → ℕ → List ℕ
  | 0, _ => []
  | n + 1, x =>
    if x < b.area.x + b.area.width then x :: leadingLoop y n (x + extent env b x y) else []

/-- The first cells of the symbols of a row. -/
def leading (y : ℕ) : List ℕ := leadingLoop env b y b.area.width b.area.x

/-- A frame: its area does not reach past `u16::MAX`, and each symbol is followed by its
continuation within the row. A cell of a continuation displays nothing wide by itself. -/
structure WellFormed : Prop where
  right : b.area.x + b.area.width ≤ 65535
  bottom : b.area.y + b.area.height ≤ 65535
  within : ∀ y, b.area.y ≤ y → y < b.area.y + b.area.height → ∀ x ∈ leading env b y,
    x + extent env b x y ≤ b.area.x + b.area.width
  continuation : ∀ y, b.area.y ≤ y → y < b.area.y + b.area.height → ∀ x ∈ leading env b y, ∀ i,
    x < i → i < x + extent env b x y → env.width (b.symbol i y) ≤ 1

/-- No symbol takes more than two cells. -/
def Narrow : Prop := ∀ y, b.area.y ≤ y → y < b.area.y + b.area.height →
  ∀ x ∈ leading env b y, env.width (b.symbol x y) ≤ 2

/-- From the first cell on to the end of the row, symbols begin in the cells of the list. -/
inductive Tiled (y : ℕ) : ℕ → List ℕ → Prop
  | nil : Tiled y (b.area.x + b.area.width) []
  | cons {x : ℕ} {xs : List ℕ} (hwithin : x + extent env b x y ≤ b.area.x + b.area.width)
      (hcontinuation : ∀ i, x < i → i < x + extent env b x y → env.width (b.symbol i y) ≤ 1)
      (htail : Tiled y (x + extent env b x y) xs) : Tiled y x (x :: xs)

/-- The cell `i` belongs to the symbol that begins in the cell `x`. -/
def Covers (y x i : ℕ) : Prop := x ≤ i ∧ i < x + extent env b x y

section Rows

variable {env b} {x y i : ℕ} {xs before after : List ℕ}

theorem extent_pos : 0 < extent env b x y := lt_of_lt_of_le one_pos (le_max_right _ _)

theorem leadingLoop_tiled {n : ℕ} (hx : x ≤ b.area.x + b.area.width)
    (hn : b.area.x + b.area.width ≤ x + n)
    (hwithin : ∀ x' ∈ leadingLoop env b y n x,
      x' + extent env b x' y ≤ b.area.x + b.area.width)
    (hcontinuation : ∀ x' ∈ leadingLoop env b y n x, ∀ i, x' < i → i < x' + extent env b x' y →
      env.width (b.symbol i y) ≤ 1) :
    Tiled env b y x (leadingLoop env b y n x) := by
  induction n generalizing x with
  | zero =>
    obtain rfl : x = b.area.x + b.area.width := by omega
    exact .nil
  | succ n ih =>
    rw [leadingLoop] at hwithin hcontinuation ⊢
    split_ifs at hwithin hcontinuation ⊢ with hlt
    · have hpos : 0 < extent env b x y := extent_pos
      have hend := hwithin x List.mem_cons_self
      exact .cons hend (hcontinuation x List.mem_cons_self) (ih hend (by omega)
        (fun x' hx' => hwithin x' (List.mem_cons_of_mem _ hx'))
        (fun x' hx' => hcontinuation x' (List.mem_cons_of_mem _ hx')))
    · obtain rfl : x = b.area.x + b.area.width := by omega
      exact .nil

theorem WellFormed.tiled (h : WellFormed env b) (htop : b.area.y ≤ y)
    (hbottom : y < b.area.y + b.area.height) : Tiled env b y b.area.x (leading env b y) :=
  leadingLoop_tiled (Nat.le_add_right _ _) le_rfl (h.within y htop hbottom)
    (h.continuation y htop hbottom)

namespace Tiled

theorem bounds (h : Tiled env b y x xs) :
    x ≤ b.area.x + b.area.width ∧
      ∀ x' ∈ xs, x ≤ x' ∧ x' + extent env b x' y ≤ b.area.x + b.area.width := by
  induction h with
  | nil => exact ⟨le_rfl, fun _ hx' => absurd hx' List.not_mem_nil⟩
  | @cons x xs hwithin _ _ ih =>
    refine ⟨by omega, fun x' hx' => ?_⟩
    obtain rfl | hx' := List.mem_cons.mp hx'
    · exact ⟨le_rfl, hwithin⟩
    · exact ⟨(Nat.le_add_right _ _).trans (ih.2 x' hx').1, (ih.2 x' hx').2⟩

theorem split (h : Tiled env b y x (before ++ after)) :
    ∃ z, Tiled env b y z after ∧ x + before.length ≤ z ∧
      ∀ x' ∈ before, x ≤ x' ∧ x' + extent env b x' y ≤ z := by
  induction before generalizing x with
  | nil => exact ⟨x, h, le_rfl, fun _ hx' => absurd hx' List.not_mem_nil⟩
  | cons x' before ih =>
    cases h with
    | cons _ _ htail =>
      obtain ⟨z, hz, hle, hbefore⟩ := ih htail
      have hpos : 0 < extent env b x' y := extent_pos
      rw [List.length_cons]
      refine ⟨z, hz, by omega, fun x'' hx'' => ?_⟩
      obtain rfl | hx'' := List.mem_cons.mp hx''
      · exact ⟨le_rfl, by omega⟩
      · exact ⟨(Nat.le_add_right _ _).trans (hbefore x'' hx'').1, (hbefore x'' hx'').2⟩

theorem eq_head (h : Tiled env b y x (i :: xs)) : x = i := by
  cases h
  rfl

theorem eq_right (h : Tiled env b y x []) : x = b.area.x + b.area.width := by
  cases h
  rfl

theorem end_le (h : Tiled env b y x xs) {x' x'' : ℕ} (hx' : x' ∈ xs) (hx'' : x'' ∈ xs)
    (hlt : x' < x'') : x' + extent env b x' y ≤ x'' := by
  obtain ⟨before, after, rfl⟩ := List.append_of_mem hx''
  obtain ⟨z, hz, -, hbefore⟩ := h.split
  obtain rfl := hz.eq_head
  obtain hx' | hx' := List.mem_append.mp hx'
  · exact (hbefore x' hx').2
  · have := (hz.bounds.2 x' hx').1
    omega

theorem exists_covers (h : Tiled env b y x xs) (hle : x ≤ i) (hlt : i < b.area.x + b.area.width) :
    ∃ x' ∈ xs, Covers env b y x' i := by
  induction h with
  | nil => omega
  | @cons x xs _ _ _ ih =>
    by_cases hi : i < x + extent env b x y
    · exact ⟨x, List.mem_cons_self, hle, hi⟩
    · obtain ⟨x', hx', hcovers⟩ := ih (not_lt.mp hi)
      exact ⟨x', List.mem_cons_of_mem _ hx', hcovers⟩

theorem width_continuation (h : Tiled env b y x xs) {x' : ℕ} (hx' : x' ∈ xs) (hlt : x' < i)
    (hi : i < x' + extent env b x' y) : env.width (b.symbol i y) ≤ 1 := by
  obtain ⟨before, after, rfl⟩ := List.append_of_mem hx'
  obtain ⟨z, hz, -, -⟩ := h.split
  cases hz with
  | cons _ hcontinuation _ => exact hcontinuation i hlt hi

theorem length_le (h : Tiled env b y x xs) : x + xs.length ≤ b.area.x + b.area.width := by
  rw [← List.append_nil xs] at h
  obtain ⟨z, hz, hle, -⟩ := h.split
  exact hle.trans_eq hz.eq_right

end Tiled

/-- A row of the frame, with the first cells of its symbols. -/
structure IsRow (env : Env) (b : Buffer) (y : ℕ) (xs : List ℕ) : Prop where
  right : b.area.x + b.area.width ≤ 65535
  bottom : b.area.y + b.area.height ≤ 65535
  top_le : b.area.y ≤ y
  lt_bottom : y < b.area.y + b.area.height
  tiled : Tiled env b y b.area.x xs

theorem WellFormed.isRow (h : WellFormed env b) (htop : b.area.y ≤ y)
    (hbottom : y < b.area.y + b.area.height) : IsRow env b y (leading env b y) :=
  ⟨h.right, h.bottom, htop, hbottom, h.tiled htop hbottom⟩

/-! ### Single cells -/

namespace IsRow

variable (h : IsRow env b y xs) {cls : CellClass}
include h

theorem contains (hle : b.area.x ≤ x) (hlt : x < b.area.x + b.area.width) :
    b.area.Contains x y :=
  ⟨hle, lt_min hlt (hlt.trans_le h.right), h.top_le,
    lt_min h.lt_bottom (h.lt_bottom.trans_le h.bottom)⟩

theorem cell (hle : b.area.x ≤ x) (hlt : x < b.area.x + b.area.width) :
    b.cell x y = some (b.symbol x y) :=
  if_pos (h.contains hle hlt)

theorem bounds (hx : x ∈ xs) :
    b.area.x ≤ x ∧ x < b.area.x + b.area.width ∧
      x + extent env b x y ≤ b.area.x + b.area.width := by
  have hb := h.tiled.bounds.2 x hx
  have hpos : 0 < extent env b x y := extent_pos
  exact ⟨hb.1, by omega, hb.2⟩

theorem cell_of_mem (hx : x ∈ xs) : b.cell x y = some (b.symbol x y) :=
  h.cell (h.bounds hx).1 (h.bounds hx).2.1

theorem cellWidth_eq (hx : x ∈ xs) : cellWidth env (b.symbol x y) = extent env b x y := by
  have hb := h.bounds hx
  have hright := h.right
  exact Nat.mod_eq_of_lt (show extent env b x y < 65536 by omega)

theorem cellEndX_eq (hx : x ∈ xs) : cellEndX env b x y = x + extent env b x y - 1 := by
  have hb := h.bounds hx
  have hright := h.right
  have hpos : 0 < extent env b x y := extent_pos
  rw [cellEndX, h.cell_of_mem hx, Option.bind_some, h.cellWidth_eq hx, checkedAdd,
    if_pos (by omega), Option.getD_some]
  omega

theorem normalizeWideCellX_eq (hlt : b.area.x < i) (hi : i < b.area.x + b.area.width) :
    normalizeWideCellX env b i y = if 1 < env.width (b.symbol (i - 1) y) then i - 1 else i := by
  rw [normalizeWideCellX, if_neg (by omega), h.cell (by omega) (by omega)]

theorem width_before (hx : x ∈ xs) (hlt : b.area.x < x) : env.width (b.symbol (x - 1) y) ≤ 1 := by
  have hb := h.bounds hx
  obtain ⟨x', hx', hle, hi⟩ := h.tiled.exists_covers (i := x - 1) (by omega) (by omega)
  have hend := h.tiled.end_le hx' hx (by omega)
  rcases hle.eq_or_lt with rfl | hlt'
  · have hwidth : env.width (b.symbol (x - 1) y) ≤ extent env b (x - 1) y := le_max_left _ _
    omega
  · exact h.tiled.width_continuation hx' hlt' hi

theorem normalizeWideCellX_of_mem (hx : x ∈ xs) : normalizeWideCellX env b x y = x := by
  have hb := h.bounds hx
  rcases hb.1.eq_or_lt with heq | hlt
  · exact if_pos heq.ge
  · rw [h.normalizeWideCellX_eq hlt hb.2.1, if_neg (not_lt.mpr (h.width_before hx hlt))]

theorem normalizeWideCellX_of_covers (hx : x ∈ xs) (hnarrow : env.width (b.symbol x y) ≤ 2)
    (hcovers : Covers env b y x i) : normalizeWideCellX env b i y = x := by
  obtain ⟨hle, hi⟩ := hcovers
  rcases hle.eq_or_lt with rfl | hlt
  · exact h.normalizeWideCellX_of_mem hx
  · have hb := h.bounds hx
    have hextent : extent env b x y = max (env.width (b.symbol x y)) 1 := rfl
    obtain rfl : i = x + 1 := by omega
    rw [h.normalizeWideCellX_eq (by omega) (by omega), Nat.add_sub_cancel, if_pos (by omega)]

theorem cellClass_eq (hx : x ∈ xs) : cellClass env b x y = symbolClass env (b.symbol x y) := by
  rw [cellClass, h.normalizeWideCellX_of_mem hx, h.cell_of_mem hx, Option.getD_some]

/-! ### Loops -/

theorem rowLoop_tiled {maxX fuel : ℕ} (htiled : Tiled env b y x after) (hle : b.area.x ≤ x)
    (hmax : maxX < b.area.x + b.area.width) (hfuel : 0 < fuel) (henough : maxX + 2 ≤ x + fuel)
    (hmem : ∀ x' ∈ after, x' ∈ xs) :
    rowLoop env b y maxX fuel x =
      some ((after.filter fun x' => x' ≤ maxX).map fun x' => b.symbol x' y) := by
  induction fuel generalizing x after with
  | zero => exact absurd hfuel (lt_irrefl 0)
  | succ fuel ih =>
    have hright := h.right
    rw [rowLoop]
    cases htiled with
    | nil =>
      rw [if_neg (by omega)]
      rfl
    | @cons x after hwithin hcontinuation htail =>
      have hpos : 0 < extent env b x y := extent_pos
      have hx := hmem x List.mem_cons_self
      by_cases hxmax : x ≤ maxX
      · have hnext : saturatingAdd x (cellWidth env (b.symbol x y)) = x + extent env b x y := by
          rw [h.cellWidth_eq hx, saturatingAdd, min_eq_left (by omega)]
        have hrest := ih htail (by omega) (by omega) (by omega)
          fun x' hx' => hmem x' (List.mem_cons_of_mem _ hx')
        rw [if_pos hxmax, h.cell_of_mem hx, List.filter_cons_of_pos (by simpa using hxmax),
          List.map_cons]
        dsimp only [Option.bind_eq_bind, Option.bind_some]
        rw [hnext, if_neg (by omega), hrest, Option.map_some]
      · have hnone : (x :: after).filter (fun x' => decide (x' ≤ maxX)) = [] := by
          refine List.filter_eq_nil_iff.mpr fun x' hx' => ?_
          have := ((Tiled.cons hwithin hcontinuation htail).bounds.2 x' hx').1
          rw [decide_eq_true_eq]
          omega
        rw [if_neg hxmax, hnone, List.map_nil]

omit h in
theorem mem_append_cons : x ∈ before ++ x :: after :=
  List.mem_append_right _ List.mem_cons_self

theorem previousCellX_eq {x' : ℕ} (hxs : xs = before ++ x' :: x :: after)
    (hnarrow : ∀ x ∈ xs, env.width (b.symbol x y) ≤ 2) : previousCellX env b x y = some x' := by
  have hx' : x' ∈ xs := hxs ▸ mem_append_cons
  have hb := h.bounds hx'
  have hpos : 0 < extent env b x' y := extent_pos
  obtain ⟨z, hz, -, -⟩ := (hxs ▸ h.tiled).split
  have hend : x = x' + extent env b x' y := by
    cases hz with
    | cons _ _ htail => exact htail.eq_head.symm
  rw [previousCellX, if_pos (by omega),
    h.normalizeWideCellX_of_covers hx' (hnarrow x' hx') ⟨by omega, by omega⟩]

theorem previousCellX_head (hxs : xs = x :: after) : previousCellX env b x y = none := by
  have heq := (hxs ▸ h.tiled).eq_head
  exact if_neg (by omega)

theorem nextCellX_eq {x' : ℕ} (hxs : xs = before ++ x :: x' :: after) :
    nextCellX env b x y = some x' := by
  have hx : x ∈ xs := hxs ▸ mem_append_cons
  have hx' : x' ∈ xs := by
    rw [hxs]
    exact List.mem_append_right _ (List.mem_cons_of_mem _ List.mem_cons_self)
  have hb' := h.bounds hx'
  have hright := h.right
  obtain ⟨z, hz, -, -⟩ := (hxs ▸ h.tiled).split
  have hend : x' = x + extent env b x y := by
    cases hz with
    | cons _ _ htail => exact htail.eq_head.symm
  rw [nextCellX, h.cell_of_mem hx]
  dsimp only [Option.bind_eq_bind, Option.bind_some]
  rw [h.cellWidth_eq hx, checkedAdd, if_pos (by omega), checkedAdd, if_pos hright]
  dsimp only [Option.bind_some]
  rw [if_pos (by omega), hend]

theorem nextCellX_last (hxs : xs = before ++ [x]) : nextCellX env b x y = none := by
  have hx : x ∈ xs := hxs ▸ mem_append_cons
  have hb := h.bounds hx
  have hright := h.right
  obtain ⟨z, hz, -, -⟩ := (hxs ▸ h.tiled).split
  have hend : x + extent env b x y = b.area.x + b.area.width := by
    cases hz with
    | cons _ _ htail => exact htail.eq_right
  rw [nextCellX, h.cell_of_mem hx]
  dsimp only [Option.bind_eq_bind, Option.bind_some]
  rw [h.cellWidth_eq hx, checkedAdd, if_pos (by omega), checkedAdd, if_pos hright]
  dsimp only [Option.bind_some]
  exact if_neg (by omega)

theorem startLoop_run {fuel : ℕ}
    (hnarrow : ∀ x ∈ xs, env.width (b.symbol x y) ≤ 2) (hxs : xs = before ++ x :: after)
    (hfuel : before.length < fuel) :
    ∃ outside run, before = outside ++ run ∧
      startLoop env b y cls fuel x = (run ++ [x]).head? ∧
      (∀ x' ∈ run, symbolClass env (b.symbol x' y) = cls) ∧
      ∀ x' ∈ outside.getLast?, symbolClass env (b.symbol x' y) ≠ cls := by
  induction before using List.reverseRecOn generalizing x after fuel with
  | nil =>
    refine ⟨[], [], rfl, ?_, by simp, by simp⟩
    obtain ⟨fuel, rfl⟩ := Nat.exists_eq_succ_of_ne_zero hfuel.ne'
    rw [startLoop, h.previousCellX_head hxs]
    rfl
  | append_singleton before x' ih =>
    rw [List.length_append, List.length_singleton] at hfuel
    obtain ⟨fuel, rfl⟩ := Nat.exists_eq_succ_of_ne_zero (Nat.ne_zero_of_lt hfuel)
    rw [List.append_assoc, List.singleton_append] at hxs
    have hx' : x' ∈ xs := hxs ▸ mem_append_cons
    rw [startLoop, h.previousCellX_eq hxs hnarrow]
    dsimp only
    rw [h.cellClass_eq hx']
    by_cases hclass : symbolClass env (b.symbol x' y) = cls
    · have hless : before.length < fuel := by omega
      obtain ⟨outside, run, hbefore, hloop, hrun, houtside⟩ := ih hxs hless
      rw [if_neg (not_not.mpr hclass), hloop]
      refine ⟨outside, run ++ [x'], by rw [hbefore, List.append_assoc], ?_, ?_, houtside⟩
      · cases run <;> rfl
      · intro z hz
        obtain hz | hz := List.mem_append.mp hz
        · exact hrun z hz
        · obtain rfl := List.mem_singleton.mp hz
          exact hclass
    · rw [if_pos hclass]
      exact ⟨before ++ [x'], [], by simp, rfl, by simp, by simpa using hclass⟩

theorem endLoop_run {fuel : ℕ} (hxs : xs = before ++ x :: after)
    (hfuel : after.length < fuel) :
    ∃ run outside, after = run ++ outside ∧
      endLoop env b y cls fuel x = (x :: run).getLast? ∧
      (∀ x' ∈ run, symbolClass env (b.symbol x' y) = cls) ∧
      ∀ x' ∈ outside.head?, symbolClass env (b.symbol x' y) ≠ cls := by
  induction after generalizing x before fuel with
  | nil =>
    refine ⟨[], [], rfl, ?_, by simp, by simp⟩
    obtain ⟨fuel, rfl⟩ := Nat.exists_eq_succ_of_ne_zero hfuel.ne'
    rw [endLoop, h.nextCellX_last hxs]
    rfl
  | cons x' after ih =>
    rw [List.length_cons] at hfuel
    obtain ⟨fuel, rfl⟩ := Nat.exists_eq_succ_of_ne_zero (Nat.ne_zero_of_lt hfuel)
    have hxs' : xs = before ++ [x] ++ x' :: after := by rw [hxs, List.append_assoc]; rfl
    have hx' : x' ∈ xs := hxs' ▸ mem_append_cons
    rw [endLoop, h.nextCellX_eq hxs]
    dsimp only
    rw [h.cellClass_eq hx']
    by_cases hclass : symbolClass env (b.symbol x' y) = cls
    · have hless : after.length < fuel := by omega
      obtain ⟨run, outside, hafter, hloop, hrun, houtside⟩ := ih hxs' hless
      rw [if_neg (not_not.mpr hclass), hloop]
      refine ⟨x' :: run, outside, by rw [hafter]; rfl, rfl, ?_, houtside⟩
      intro z hz
      obtain rfl | hz := List.mem_cons.mp hz
      · exact hclass
      · exact hrun z hz
    · rw [if_pos hclass]
      exact ⟨[], x' :: after, rfl, rfl, by simp, by simpa using hclass⟩

end IsRow

end Rows

end IntelligentTerminal.TextSelection
