import IntelligentTerminal.Fzf.Matcher

/-!
# The rows of the score matrix

In integers of unbounded size, the score of a matching character exceeds that of its diagonal
neighbour by at least `ScoreMatch`, and the score of any other character decays from that of its left
neighbour. A count of consecutive characters is at most a sixteenth of the score. A row of 16-bit
scores is the same as long as none of its scores exceeds `32767`, as nothing else comes near the
bounds of the type.
-/

namespace IntelligentTerminal.Fzf

/-- The count of consecutive characters is at most a sixteenth of the score. -/
structure Cell.Counted (cell : Cell) : Prop where
  nonneg : 0 ≤ cell.consecutive
  le : 16 * cell.consecutive ≤ cell.score

/-- The score of a character that matches is positive, and that of any other character is zero or
less than the score on its left. -/
def Falls (current : Char) : ℤ → List Char → List Cell → Prop
  | left, ch :: text, cell :: row =>
    (ch = current → 0 < cell.score) ∧ (ch ≠ current → cell.score = 0 ∨ cell.score < left) ∧
      Falls current cell.score text row
  | _, [], [] => True
  | _, _, _ => False

/-- The bonuses of the columns. -/
def AreBonuses (bonuses : List ℤ) : Prop := ∀ bonus ∈ bonuses, 0 ≤ bonus ∧ bonus ≤ 8

variable {u : Unicode} {bonuses : List ℤ} {current : Char} {column : ℕ} {diagonal : Cell}
  {score left bound : ℤ} {inGap : Bool} {text : List Char} {row : List Cell}

theorem int16_eq {x : ℤ} (hlower : -32768 ≤ x) (hupper : x ≤ 32767) : int16 x = x :=
  Int.bmod_eq_of_le (by omega) (by omega)

theorem Cell.Counted.score_nonneg {cell : Cell} (h : cell.Counted) : 0 ≤ cell.score := by
  have hle := h.le
  have hnonneg := h.nonneg
  omega

theorem gapScore_bounds (inGap : Bool) : -3 ≤ gapScore inGap ∧ gapScore inGap ≤ -1 := by
  cases inGap <;> decide

/-! ### Bonuses -/

theorem calculateBonus_bounds (previousClass currentClass : CharClass) :
    0 ≤ calculateBonus previousClass currentClass ∧
      calculateBonus previousClass currentClass ≤ 8 := by
  rw [calculateBonus]
  split_ifs <;> decide

theorem areBonuses_bonusLoop (previousClass : CharClass) (text : List Char) :
    AreBonuses (bonusLoop u previousClass text) := by
  induction text generalizing previousClass with
  | nil => exact fun _ h => absurd h List.not_mem_nil
  | cons ch text ih =>
    intro bonus hbonus
    obtain rfl | hbonus := List.mem_cons.mp hbonus
    · exact calculateBonus_bounds _ _
    · exact ih _ bonus hbonus

theorem length_bonusLoop (previousClass : CharClass) (text : List Char) :
    (bonusLoop u previousClass text).length = text.length := by
  induction text generalizing previousClass with
  | nil => rfl
  | cons ch text ih => rw [bonusLoop, List.length_cons, ih, List.length_cons]

theorem AreBonuses.getD (h : AreBonuses bonuses) (i : ℕ) :
    0 ≤ bonuses.getD i 0 ∧ bonuses.getD i 0 ≤ 8 := by
  by_cases hi : i < bonuses.length
  · rw [List.getD_eq_getElem _ _ hi]
    exact h _ (List.getElem_mem hi)
  · rw [List.getD_eq_default _ _ (by omega)]
    decide

/-! ### Characters that match -/

theorem matchCell_bounds (column : ℕ) (score : ℤ) (hbonuses : AreBonuses bonuses)
    (hdiagonal : diagonal.Counted) :
    diagonal.score + 16 ≤ (matchCell id bonuses column diagonal score).score ∧
      (matchCell id bonuses column diagonal score).score ≤ diagonal.score + 24 ∧
      0 ≤ (matchCell id bonuses column diagonal score).consecutive ∧
      16 * (matchCell id bonuses column diagonal score).consecutive ≤ diagonal.score + 16 := by
  obtain ⟨hnonneg, hle⟩ := hdiagonal
  obtain ⟨hown, hown'⟩ := hbonuses.getD column
  obtain ⟨hrun, hrun'⟩ := hbonuses.getD (column + 1 - (id (diagonal.consecutive + 1)).toNat)
  rw [matchCell]
  generalize bonuses.getD column 0 = own at *
  generalize bonuses.getD (column + 1 - (id (diagonal.consecutive + 1)).toNat) 0 = run at *
  simp only [id_eq, scoreMatch, bonusConsecutive, boundaryBonus]
  split_ifs <;> dsimp only <;> omega

theorem matchCell_int16 (hbonuses : AreBonuses bonuses) (hdiagonal : diagonal.Counted)
    (hfits : (matchCell id bonuses column diagonal score).score ≤ 32767) :
    matchCell int16 bonuses column diagonal score = matchCell id bonuses column diagonal score := by
  obtain ⟨hlow, -, -, -⟩ := matchCell_bounds column score hbonuses hdiagonal
  have hnonneg := hdiagonal.nonneg
  have hle := hdiagonal.le
  have hscore : int16 (diagonal.score + scoreMatch) = diagonal.score + scoreMatch := by
    rw [scoreMatch]
    exact int16_eq (by omega) (by omega)
  have hcounted : int16 (diagonal.consecutive + 1) = diagonal.consecutive + 1 :=
    int16_eq (by omega) (by omega)
  rw [matchCell] at hfits hlow ⊢
  rw [matchCell, hscore, hcounted]
  simp only [id_eq] at hfits hlow ⊢
  split_ifs at hfits hlow ⊢ <;> dsimp only at hfits hlow <;> rw [int16_eq (by omega) hfits]

/-! ### Rows -/

/-- The cell that `rowLoop` puts into a column. -/
def rowCell (narrow : ℤ → ℤ) (bonuses : List ℤ) (current : Char) (column : ℕ) (score : ℤ)
    (ch : Char) (diagonal : Cell) : Cell :=
  if ch = current then matchCell narrow bonuses column diagonal score else ⟨0, 0⟩

theorem rowLoop_cons (narrow : ℤ → ℤ) (ch : Char) (cells : List (Char × Cell)) :
    rowLoop narrow bonuses current column left inGap ((ch, diagonal) :: cells) =
      let score := narrow (left + gapScore inGap)
      let cell := rowCell narrow bonuses current column score ch diagonal
      ⟨max 0 (max cell.score score), cell.consecutive⟩ ::
        rowLoop narrow bonuses current (column + 1) (max 0 (max cell.score score))
          (cell.score < score) cells :=
  rfl

theorem length_rowLoop (narrow : ℤ → ℤ) (cells : List (Char × Cell)) :
    (rowLoop narrow bonuses current column left inGap cells).length = cells.length := by
  induction cells generalizing column left inGap with
  | nil => rfl
  | cons cell cells ih => rw [rowLoop_cons, List.length_cons, ih, List.length_cons]

section Row

variable {cells : List (Char × Cell)} (hbonuses : AreBonuses bonuses)
  (hcells : ∀ x ∈ cells, x.2.Counted)
include hbonuses hcells

theorem counted_rowLoop : ∀ cell ∈ rowLoop id bonuses current column left inGap cells,
    cell.Counted := by
  induction cells generalizing column left inGap with
  | nil => exact fun _ h => absurd h List.not_mem_nil
  | cons x cells ih =>
    obtain ⟨hdiagonal, hcells⟩ := List.forall_mem_cons.mp hcells
    rw [rowLoop_cons]
    refine List.forall_mem_cons.mpr ⟨?_, ih hcells⟩
    rw [rowCell]
    split_ifs with hch
    · obtain ⟨hlow, -, hnonneg, hle⟩ := matchCell_bounds column
        (id (left + gapScore inGap)) hbonuses hdiagonal
      exact ⟨hnonneg, by dsimp only; omega⟩
    · exact ⟨le_rfl, by dsimp only; omega⟩

theorem falls_rowLoop : Falls current left (cells.map (·.1))
    (rowLoop id bonuses current column left inGap cells) := by
  induction cells generalizing column left inGap with
  | nil => exact trivial
  | cons x cells ih =>
    obtain ⟨hdiagonal, hcells⟩ := List.forall_mem_cons.mp hcells
    rw [rowLoop_cons]
    refine ⟨fun hch => ?_, fun hch => ?_, ih hcells⟩
    · obtain ⟨hlow, -, -, -⟩ := matchCell_bounds column
        (id (left + gapScore inGap)) hbonuses hdiagonal
      have hnonneg := hdiagonal.score_nonneg
      rw [rowCell, if_pos hch]
      dsimp only
      omega
    · have hgap := gapScore_bounds inGap
      rw [rowCell, if_neg hch]
      dsimp only [id_eq]
      omega

theorem rowLoop_le (hbound : ∀ x ∈ cells, x.2.score ≤ bound) (hnonneg : 0 ≤ bound + 24)
    (hleft : left ≤ bound + 24) :
    ∀ cell ∈ rowLoop id bonuses current column left inGap cells, cell.score ≤ bound + 24 := by
  induction cells generalizing column left inGap with
  | nil => exact fun _ h => absurd h List.not_mem_nil
  | cons x cells ih =>
    obtain ⟨hdiagonal, hcells⟩ := List.forall_mem_cons.mp hcells
    obtain ⟨hx, hbound⟩ := List.forall_mem_cons.mp hbound
    have hgap := gapScore_bounds inGap
    have hhead : max 0 (max (rowCell id bonuses current column (id (left + gapScore inGap)) x.1
        x.2).score (id (left + gapScore inGap))) ≤ bound + 24 := by
      rw [rowCell]
      split_ifs with hch
      · obtain ⟨-, hhigh, -, -⟩ := matchCell_bounds column
          (id (left + gapScore inGap)) hbonuses hdiagonal
        dsimp only [id_eq] at hhigh ⊢
        omega
      · dsimp only [id_eq]
        omega
    rw [rowLoop_cons]
    exact List.forall_mem_cons.mpr ⟨hhead, ih hcells hbound hhead⟩

theorem rowLoop_int16 (hleft : 0 ≤ left ∧ left ≤ 32767)
    (hfits : ∀ cell ∈ rowLoop id bonuses current column left inGap cells, cell.score ≤ 32767) :
    rowLoop int16 bonuses current column left inGap cells =
      rowLoop id bonuses current column left inGap cells := by
  induction cells generalizing column left inGap with
  | nil => rfl
  | cons x cells ih =>
    obtain ⟨hdiagonal, hcells⟩ := List.forall_mem_cons.mp hcells
    rw [rowLoop_cons] at hfits
    obtain ⟨hhead, hfits⟩ := List.forall_mem_cons.mp hfits
    have hgap := gapScore_bounds inGap
    have hscore : int16 (left + gapScore inGap) = id (left + gapScore inGap) :=
      int16_eq (by omega) (by omega)
    have hcell : rowCell int16 bonuses current column (id (left + gapScore inGap)) x.1 x.2 =
        rowCell id bonuses current column (id (left + gapScore inGap)) x.1 x.2 := by
      rw [rowCell] at hhead
      rw [rowCell, rowCell]
      split_ifs at hhead ⊢ with hch
      · exact matchCell_int16 hbonuses hdiagonal (by dsimp only at hhead; omega)
      · rfl
    rw [rowLoop_cons, rowLoop_cons]
    dsimp only
    rw [hscore, hcell, ih hcells ⟨le_max_left _ _, hhead⟩ hfits]

end Row

/-! ### The first row -/

section Initial

variable {chars : List (Char × ℤ)} (hbonuses : ∀ x ∈ chars, 0 ≤ x.2 ∧ x.2 ≤ 8)

theorem length_initialLoop (narrow : ℤ → ℤ) (chars : List (Char × ℤ)) :
    (initialLoop narrow current left inGap chars).length = chars.length := by
  induction chars generalizing left inGap with
  | nil => rfl
  | cons x chars ih =>
    rw [initialLoop]
    split_ifs <;> rw [List.length_cons, ih, List.length_cons]

include hbonuses

theorem falls_initialLoop (hleft : left ≤ 32) :
    Falls current left (chars.map (·.1)) (initialLoop id current left inGap chars) ∧
      ∀ cell ∈ initialLoop id current left inGap chars, cell.Counted ∧ cell.score ≤ 32 := by
  induction chars generalizing left inGap with
  | nil => exact ⟨trivial, fun _ h => absurd h List.not_mem_nil⟩
  | cons x chars ih =>
    obtain ⟨⟨hlow, hhigh⟩, hbonuses⟩ := List.forall_mem_cons.mp hbonuses
    have hgap := gapScore_bounds inGap
    rw [initialLoop]
    split_ifs with hch
    · have hscore : 16 ≤ id (scoreMatch + x.2 * bonusFirstCharMultiplier) ∧
          id (scoreMatch + x.2 * bonusFirstCharMultiplier) ≤ 32 := by
        rw [id_eq, scoreMatch, bonusFirstCharMultiplier]
        omega
      generalize id (scoreMatch + x.2 * bonusFirstCharMultiplier) = score at hscore ⊢
      obtain ⟨hfalls, hcells⟩ := @ih score false hbonuses hscore.2
      refine ⟨⟨fun _ => by dsimp only; omega, fun hne => absurd hch hne, hfalls⟩,
        List.forall_mem_cons.mpr ⟨⟨⟨Int.one_nonneg, hscore.1⟩, hscore.2⟩, hcells⟩⟩
    · have hscore : max (id (left + gapScore inGap)) 0 ≤ 32 := by
        rw [id_eq]
        omega
      obtain ⟨hfalls, hcells⟩ := @ih _ true hbonuses hscore
      refine ⟨⟨fun heq => absurd heq hch, fun _ => by dsimp only [id_eq]; omega, hfalls⟩,
        List.forall_mem_cons.mpr ⟨⟨⟨le_rfl, le_max_right _ _⟩, hscore⟩, hcells⟩⟩

theorem initialLoop_int16 (hleft : 0 ≤ left ∧ left ≤ 32) :
    initialLoop int16 current left inGap chars = initialLoop id current left inGap chars := by
  induction chars generalizing left inGap with
  | nil => rfl
  | cons x chars ih =>
    obtain ⟨⟨hlow, hhigh⟩, hbonuses⟩ := List.forall_mem_cons.mp hbonuses
    have hgap := gapScore_bounds inGap
    have hscore : 0 ≤ scoreMatch + x.2 * bonusFirstCharMultiplier ∧
        scoreMatch + x.2 * bonusFirstCharMultiplier ≤ 32 := by
      rw [scoreMatch, bonusFirstCharMultiplier]
      omega
    rw [initialLoop, initialLoop, int16_eq (x := left + gapScore inGap) (by omega) (by omega)]
    generalize scoreMatch + x.2 * bonusFirstCharMultiplier = score at hscore ⊢
    rw [int16_eq (x := score) (by omega) (by omega)]
    dsimp only [id_eq]
    rw [ih hbonuses hscore, ih hbonuses ⟨le_max_right _ _, by omega⟩]

end Initial

end IntelligentTerminal.Fzf
