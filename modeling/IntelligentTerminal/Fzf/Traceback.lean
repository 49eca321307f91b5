import IntelligentTerminal.Fzf.ScoreMatrix

/-!
# The walk back through the score matrix

The walk back never passes the first occurrence of the character that it looks for, as the score
there exceeds the one on its diagonal. A cell whose character does not match is never taken, as its
score is zero or less than the score on its left. So the walk stays in the matrix and finds a
position for each character.
-/

namespace IntelligentTerminal.Fzf

/-- Decreasing positions of the characters of a term, from the last one on. -/
structure Holds (foldedText pattern : List Char) (positions : List ℕ) : Prop where
  holds : List.Forall₂ (fun position ch => foldedText[position]? = some ch)
    positions pattern.reverse
  decreasing : positions.Pairwise (· > ·)

variable {scan : Scan} {foldedText pattern : List Char} {rows : List (List Cell)}
  {cells : List Cell} {ch : Char} {p c column width j fuel : ℕ}

/-! ### Cells -/

theorem getElem?_flatten (hrows : ∀ row ∈ rows, row.length = width) (hj : j < width) (p : ℕ) :
    rows.flatten[p * width + j]? = rows[p]?.bind (·[j]?) := by
  induction rows generalizing p with
  | nil => rfl
  | cons row rows ih =>
    obtain ⟨hrow, hrows⟩ := List.forall_mem_cons.mp hrows
    rw [List.flatten_cons]
    cases p with
    | zero =>
      rw [Nat.zero_mul, Nat.zero_add, List.getElem?_append_left (by omega)]
      rfl
    | succ p =>
      have hindex : (p + 1) * width + j = row.length + (p * width + j) := by
        rw [hrow, Nat.succ_mul]
        omega
      rw [hindex, List.getElem?_append_right (Nat.le_add_right _ _), Nat.add_sub_cancel_left,
        ih hrows]
      rfl

theorem cellAt_natCast (cells : List Cell) (index : ℕ) :
    cellAt cells (index : ℤ) = cells[index]? := by
  rw [cellAt, if_neg (by omega), Int.toNat_natCast]

theorem sizeT_natCast (x : ℕ) : sizeT (x : ℤ) = x := by
  rw [sizeT, if_neg (by omega), Int.toNat_natCast]

section Matrix

variable (hfinds : scan.Finds foldedText pattern) (hmatrix : IsMatrix scan foldedText pattern rows)
  {row : List Cell} {cell : Cell}
include hfinds hmatrix

theorem IsMatrix.length_row (hrow : row ∈ rows) : row.length = scan.width := by
  obtain ⟨i, hi, rfl⟩ := List.getElem_of_mem hrow
  have hi' : i < pattern.length := hmatrix.length ▸ hi
  have hi'' : i < scan.firstOccurrences.length := hfinds.occurs.length_eq ▸ hi'
  exact (hmatrix.isRow (List.getElem?_eq_getElem hi) (List.getElem?_eq_getElem hi')
    (List.getElem?_eq_getElem hi'')).length

theorem cellAt_flatten (hrow : rows[p]? = some row)
    (hle : scan.origin ≤ c) (hlast : c ≤ scan.lastIndex) :
    cellAt rows.flatten (p * scan.width + ((c : ℤ) - scan.origin)) = row[c - scan.origin]? := by
  have hindex : (p * scan.width + ((c : ℤ) - scan.origin) : ℤ) =
      ((p * scan.width + (c - scan.origin) : ℕ) : ℤ) := by
    push_cast [Nat.cast_sub hle]
    rfl
  rw [hindex, cellAt_natCast, getElem?_flatten (fun row hrow => hmatrix.length_row hfinds hrow)
    (by rw [Scan.width]; omega), hrow]
  rfl

omit hmatrix in
theorem origin_le (hcolumn : scan.firstOccurrences[p]? = some column) : scan.origin ≤ column := by
  cases hocc : scan.firstOccurrences with
  | nil => rw [hocc] at hcolumn; exact absurd hcolumn (by simp)
  | cons origin rest =>
    have hincreasing := hfinds.increasing
    rw [hocc] at hcolumn hincreasing
    rw [Scan.origin, hocc, List.headD_cons]
    cases p with
    | zero => exact (Option.some.inj hcolumn).le
    | succ p =>
      exact (List.rel_of_pairwise_cons hincreasing (List.mem_of_getElem? hcolumn)).le

omit hmatrix in
theorem occurs_at (hch : pattern[p]? = some ch)
    (hcolumn : scan.firstOccurrences[p]? = some column) : foldedText[column]? = some ch := by
  obtain ⟨hp, rfl⟩ := List.getElem?_eq_some_iff.mp hch
  obtain ⟨hp', rfl⟩ := List.getElem?_eq_some_iff.mp hcolumn
  exact (List.forall₂_iff_get.mp hfinds.occurs).2 p hp' hp

omit hmatrix in
theorem lt_column (hcolumn : scan.firstOccurrences[p + 1]? = some column) :
    ∃ before, scan.firstOccurrences[p]? = some before ∧ before < column := by
  obtain ⟨hj, rfl⟩ := List.getElem?_eq_some_iff.mp hcolumn
  exact ⟨_, List.getElem?_eq_getElem (Nat.lt_of_succ_lt hj),
    List.pairwise_iff_getElem.mp hfinds.increasing p (p + 1) _ hj (Nat.lt_succ_self p)⟩

theorem exists_cell (hch : pattern[p]? = some ch)
    (hcolumn : scan.firstOccurrences[p]? = some column) (hle : column ≤ c)
    (hlast : c ≤ scan.lastIndex) :
    ∃ cell, cellAt rows.flatten (p * scan.width + ((c : ℤ) - scan.origin)) = some cell ∧
      0 ≤ cell.score ∧ (foldedText[c]? = some ch → 0 < cell.score) ∧
      (column < c → foldedText[c]? ≠ some ch → cell.score = 0 ∨
        ∃ before, cellAt rows.flatten (p * scan.width + (((c - 1 : ℕ) : ℤ) - scan.origin)) =
          some before ∧ cell.score < before.score) := by
  have horigin := origin_le hfinds hcolumn
  obtain ⟨row, hrow⟩ : ∃ row, rows[p]? = some row := by
    have hp : p < rows.length := hmatrix.length ▸ (List.getElem?_eq_some_iff.mp hch).1
    exact ⟨_, List.getElem?_eq_getElem hp⟩
  have hisRow := hmatrix.isRow hrow hch hcolumn
  obtain ⟨left, hfalls⟩ := hisRow.falls
  have hc : c < foldedText.length := lt_of_le_of_lt hlast hfinds.lastIndex_lt
  have hslice : ((foldedText.drop column).take (scan.lastIndex - column + 1))[c - column]? =
      some foldedText[c] := by
    rw [List.getElem?_take_of_lt (by omega), List.getElem?_drop, Nat.add_sub_cancel' hle,
      List.getElem?_eq_getElem hc]
  obtain ⟨cell, hcell, hmatch, hfall⟩ := hfalls.exists_cell hslice
  have hplace : column - scan.origin + (c - column) = c - scan.origin := by omega
  rw [List.getElem?_drop, hplace] at hcell
  rw [cellAt_flatten hfinds hmatrix hrow (by omega) hlast, List.getElem?_eq_getElem hc, Ne,
    Option.some.injEq]
  refine ⟨cell, hcell, (hisRow.counted cell (List.mem_of_getElem? hcell)).score_nonneg, hmatch,
    fun hlt hne => ?_⟩
  refine (hfall (by omega) hne).imp_right fun ⟨before, hbefore, hless⟩ => ⟨before, ?_, hless⟩
  have hplace' : column - scan.origin + (c - column - 1) = c - 1 - scan.origin := by omega
  rw [List.getElem?_drop, hplace'] at hbefore
  rw [cellAt_flatten hfinds hmatrix hrow (by omega) (by omega), hbefore]

theorem exists_exceeding (hcolumn : scan.firstOccurrences[p + 1]? = some column) :
    ∃ diagonal cell,
      cellAt rows.flatten (p * scan.width + (((column - 1 : ℕ) : ℤ) - scan.origin)) =
        some diagonal ∧
      cellAt rows.flatten ((p + 1 : ℕ) * scan.width + ((column : ℤ) - scan.origin)) = some cell ∧
      diagonal.score < cell.score := by
  have hp : p + 1 < rows.length := by
    rw [hmatrix.length, ← hfinds.occurs.length_eq]
    exact (List.getElem?_eq_some_iff.mp hcolumn).1
  have habove : rows[p]? = some rows[p] := List.getElem?_eq_getElem (by omega)
  have hrow : rows[p + 1]? = some rows[p + 1] := List.getElem?_eq_getElem hp
  obtain ⟨diagonal, cell, hdiagonal, hcell, hless⟩ := hmatrix.exceeds habove hrow hcolumn
  have hlt : scan.origin < column := by
    obtain ⟨before, hbefore, hlt⟩ := lt_column hfinds hcolumn
    exact lt_of_le_of_lt (origin_le hfinds hbefore) hlt
  have hlast := (hfinds.range column (List.mem_of_getElem? hcolumn)).2
  refine ⟨diagonal, cell, ?_, ?_, hless⟩
  · rw [cellAt_flatten hfinds hmatrix habove (by omega) (by omega), ← hdiagonal]
    congr 1
    omega
  · rw [cellAt_flatten hfinds hmatrix hrow hlt.le hlast, hcell]

theorem exists_left (hch : pattern[p]? = some ch)
    (hcolumn : scan.firstOccurrences[p]? = some column) (hle : column ≤ c)
    (hlast : c ≤ scan.lastIndex)
    (hcell : cellAt rows.flatten (p * scan.width + ((c : ℤ) - scan.origin)) = some cell) :
    ∃ left : ℤ, (if column < c then (cellAt rows.flatten (p * scan.width +
        ((c : ℤ) - scan.origin) - 1)).map (·.score) else some 0) = some left ∧
      (foldedText[c]? ≠ some ch → cell.score = 0 ∨ cell.score < left) ∧
      (c = column → left = 0) := by
  by_cases hlt : column < c
  · have hindex : (p * scan.width + ((c : ℤ) - scan.origin) - 1 : ℤ) =
        p * scan.width + (((c - 1 : ℕ) : ℤ) - scan.origin) := by
      push_cast [Nat.cast_sub (by omega : 1 ≤ c)]
      ring
    obtain ⟨cell', hcell', -, -, hfall⟩ := exists_cell hfinds hmatrix hch hcolumn hle hlast
    obtain rfl := Option.some.inj (hcell.symm.trans hcell')
    obtain ⟨before, hbefore, -⟩ : ∃ before, cellAt rows.flatten
        (p * scan.width + (((c - 1 : ℕ) : ℤ) - scan.origin)) = some before ∧ 0 ≤ before.score := by
      obtain ⟨before, hbefore, hnonneg, -⟩ :=
        exists_cell hfinds hmatrix hch hcolumn (by omega : column ≤ c - 1) (by omega)
      exact ⟨before, hbefore, hnonneg⟩
    refine ⟨before.score, by rw [if_pos hlt, hindex, hbefore]; rfl, fun hne => ?_,
      fun heq => absurd heq hlt.ne'⟩
    refine (hfall hlt hne).imp_right fun ⟨before', hbefore', hless⟩ => ?_
    obtain rfl := Option.some.inj (hbefore.symm.trans hbefore')
    exact hless
  · obtain rfl : c = column := by omega
    exact ⟨0, if_neg hlt, fun hne => absurd (occurs_at hfinds hch hcolumn) hne, fun _ => rfl⟩

theorem exists_diagonal (hch : pattern[p]? = some ch)
    (hcolumn : scan.firstOccurrences[p]? = some column) (hle : column ≤ c)
    (hlast : c ≤ scan.lastIndex)
    (hcell : cellAt rows.flatten (p * scan.width + ((c : ℤ) - scan.origin)) = some cell) :
    ∃ diagonal : ℤ, (if 0 < p ∧ column ≤ c then (cellAt rows.flatten (p * scan.width +
        ((c : ℤ) - scan.origin) - scan.width - 1)).map (·.score) else some 0) = some diagonal ∧
      0 ≤ diagonal ∧ (c = column → diagonal < cell.score) := by
  cases p with
  | zero =>
    refine ⟨0, if_neg fun h => absurd h.1 (Nat.lt_irrefl 0), le_rfl, ?_⟩
    rintro rfl
    obtain ⟨cell', hcell', -, hmatch, -⟩ := exists_cell hfinds hmatrix hch hcolumn le_rfl hlast
    obtain rfl := Option.some.inj (hcell.symm.trans hcell')
    exact hmatch (occurs_at hfinds hch hcolumn)
  | succ p =>
    obtain ⟨column', hcolumn', hlt⟩ := lt_column hfinds hcolumn
    have hindex : (((p + 1 : ℕ) : ℤ) * scan.width + ((c : ℤ) - scan.origin) - scan.width - 1 : ℤ) =
        p * scan.width + (((c - 1 : ℕ) : ℤ) - scan.origin) := by
      push_cast [Nat.cast_sub (by omega : 1 ≤ c)]
      ring
    obtain ⟨diagonal, hdiagonal, hnonneg, -⟩ := exists_cell hfinds hmatrix
      (List.getElem?_eq_getElem (Nat.lt_of_succ_lt (List.getElem?_eq_some_iff.mp hch).1))
      hcolumn' (by omega : column' ≤ c - 1) (by omega)
    refine ⟨diagonal.score, ?_, hnonneg, ?_⟩
    · rw [if_pos ⟨Nat.succ_pos p, hle⟩, hindex, hdiagonal]
      rfl
    · rintro rfl
      obtain ⟨diagonal', cell', hdiagonal', hcell', hless⟩ :=
        exists_exceeding hfinds hmatrix hcolumn
      obtain rfl := Option.some.inj (hdiagonal.symm.trans hdiagonal')
      obtain rfl := Option.some.inj (hcell.symm.trans hcell')
      exact hless

end Matrix

/-! ### The walk -/

theorem traceLoop_turn (fuel : ℕ) (prefer : Bool) {cell : Cell} {diagonal left : ℤ}
    (hcolumn : scan.firstOccurrences[p]? = some column)
    (hcell : cellAt cells (p * scan.width + ((c : ℤ) - scan.origin)) = some cell)
    (hdiagonal : (if 0 < p ∧ column ≤ c then (cellAt cells (p * scan.width +
      ((c : ℤ) - scan.origin) - scan.width - 1)).map (·.score) else some 0) = some diagonal)
    (hleft : (if column < c then (cellAt cells (p * scan.width +
      ((c : ℤ) - scan.origin) - 1)).map (·.score) else some 0) = some left) :
    ∃ prefer', traceLoop scan cells (fuel + 1) p c prefer =
      if diagonal < cell.score ∧ (left < cell.score ∨ (cell.score = left ∧ prefer = true)) then
        if p = 0 then some [c]
        else (traceLoop scan cells fuel (p - 1) (c - 1) prefer').map (c :: ·)
      else traceLoop scan cells fuel p (c - 1) prefer' := by
  refine ⟨1 < cell.consecutive || (cellAt cells (p * scan.width + ((c : ℤ) - scan.origin) +
    scan.width + 1)).any fun next => 0 < next.consecutive, ?_⟩
  rw [traceLoop, hcolumn]
  simp only [Option.bind_eq_bind, Option.bind_some, hcell, sizeT_natCast, hdiagonal, hleft]

theorem take_succ_reverse (hch : pattern[p]? = some ch) :
    (pattern.take (p + 1)).reverse = ch :: (pattern.take p).reverse := by
  rw [List.take_add_one, hch, List.reverse_append]
  rfl

theorem exists_traceLoop (prefer : Bool) (hfinds : scan.Finds foldedText pattern)
    (hmatrix : IsMatrix scan foldedText pattern rows) (hch : pattern[p]? = some ch)
    (hcolumn : scan.firstOccurrences[p]? = some column) (hle : column ≤ c)
    (hlast : c ≤ scan.lastIndex) (hfuel : c - scan.origin < fuel) :
    ∃ positions, traceLoop scan rows.flatten fuel p c prefer = some positions ∧
      Holds foldedText (pattern.take (p + 1)) positions ∧ ∀ x ∈ positions, x ≤ c := by
  induction fuel generalizing p c ch column prefer with
  | zero => exact absurd hfuel (Nat.not_lt_zero _)
  | succ fuel ih =>
    have horigin := origin_le hfinds hcolumn
    obtain ⟨cell, hcell, -⟩ := exists_cell hfinds hmatrix hch hcolumn hle hlast
    obtain ⟨left, hleft, hfall, hleft'⟩ := exists_left hfinds hmatrix hch hcolumn hle hlast hcell
    obtain ⟨diagonal, hdiagonal, hnonneg, hexceeds⟩ :=
      exists_diagonal hfinds hmatrix hch hcolumn hle hlast hcell
    obtain ⟨prefer', hturn⟩ := traceLoop_turn fuel prefer hcolumn hcell hdiagonal hleft
    rw [hturn]
    split_ifs with htake hzero
    · -- The position of the first character ends the walk.
      subst hzero
      have hholds : foldedText[c]? = some ch := by
        by_contra hne
        have hless := hfall hne
        omega
      refine ⟨[c], rfl, ⟨?_, List.pairwise_singleton _ _⟩, by simp⟩
      rw [take_succ_reverse hch, List.take_zero]
      exact .cons hholds .nil
    · have hholds : foldedText[c]? = some ch := by
        by_contra hne
        have hless := hfall hne
        omega
      obtain ⟨p, rfl⟩ := Nat.exists_eq_succ_of_ne_zero hzero
      obtain ⟨column', hcolumn', hlt⟩ := lt_column hfinds hcolumn
      have horigin' := origin_le hfinds hcolumn'
      have hcast : (c : ℤ) - 1 = ((c - 1 : ℕ) : ℤ) := by omega
      obtain ⟨positions, hpositions, hrest, hbelow⟩ := ih (c := c - 1) prefer'
        (List.getElem?_eq_getElem (Nat.lt_of_succ_lt (List.getElem?_eq_some_iff.mp hch).1))
        hcolumn' (by omega) (by omega) (by omega)
      rw [hcast, Nat.succ_sub_one, hpositions]
      refine ⟨c :: positions, rfl, ⟨?_, List.pairwise_cons.mpr ⟨fun x hx => ?_, hrest.decreasing⟩⟩,
        List.forall_mem_cons.mpr ⟨le_rfl, fun x hx => ?_⟩⟩
      · rw [take_succ_reverse hch]
        exact .cons hholds hrest.holds
      · have hle' := hbelow x hx
        omega
      · exact (hbelow x hx).trans (Nat.sub_le _ _)
    · -- At its first occurrence a character is taken, so there is a column on the left.
      have hne : c ≠ column := fun heq => by
        have hless := hexceeds heq
        have hzero := hleft' heq
        omega
      have hcast : (c : ℤ) - 1 = ((c - 1 : ℕ) : ℤ) := by omega
      obtain ⟨positions, hpositions, hrest, hbelow⟩ := ih (c := c - 1) prefer' hch
        hcolumn (by omega) (by omega) (by omega)
      rw [hcast, hpositions]
      exact ⟨positions, rfl, hrest, fun x hx => (hbelow x hx).trans (Nat.sub_le _ _)⟩

end IntelligentTerminal.Fzf
