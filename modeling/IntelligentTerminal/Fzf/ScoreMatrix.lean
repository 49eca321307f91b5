import IntelligentTerminal.Fzf.ScoreRows

/-!
# The score matrix

Behind the first occurrence of its character, each row of the matrix decays where characters do not
match, and its first score exceeds the one on its diagonal. The matrix of 16-bit scores is that of
integers if no score of the latter exceeds `32767`, which holds for every term of at most 1364 code
points.
-/

namespace IntelligentTerminal.Fzf

/-- The first pass finds an increasing occurrence of each character, up to the last column. -/
structure Scan.Finds (scan : Scan) (foldedText pattern : List Char) : Prop where
  occurs : List.Forall₂ (fun column ch => foldedText[column]? = some ch)
    scan.firstOccurrences pattern
  increasing : scan.firstOccurrences.Pairwise (· < ·)
  range : ∀ column ∈ scan.firstOccurrences,
    scan.firstIndexOf ≤ column ∧ column ≤ scan.lastIndex
  lastIndex_lt : scan.lastIndex < foldedText.length
  bonuses : AreBonuses scan.bonuses
  length_bonuses : scan.bonuses.length = foldedText.length

/-- A row, behind the first occurrence of its character. -/
structure IsRow (scan : Scan) (foldedText : List Char) (ch : Char) (column : ℕ)
    (row : List Cell) : Prop where
  length : row.length = scan.width
  counted : ∀ cell ∈ row, cell.Counted
  falls : ∃ left, Falls ch left ((foldedText.drop column).take (scan.lastIndex - column + 1))
    (row.drop (column - scan.origin))

/-- The score at a first occurrence exceeds the one on its diagonal. -/
def Exceeds (scan : Scan) (column : ℕ) (above row : List Cell) : Prop :=
  ∃ diagonal cell, above[column - scan.origin - 1]? = some diagonal ∧
    row[column - scan.origin]? = some cell ∧ diagonal.score < cell.score

structure IsMatrix (scan : Scan) (foldedText pattern : List Char) (rows : List (List Cell)) :
    Prop where
  length : rows.length = pattern.length
  isRow : ∀ {p : ℕ} {row : List Cell} {ch : Char} {column : ℕ}, rows[p]? = some row → pattern[p]? = some ch →
    scan.firstOccurrences[p]? = some column → IsRow scan foldedText ch column row
  exceeds : ∀ {p : ℕ} {above row : List Cell} {column : ℕ}, rows[p]? = some above →
    rows[p + 1]? = some row → scan.firstOccurrences[p + 1]? = some column → Exceeds scan column above row

/-- No score exceeds `32767`. -/
def Fits (rows : List (List Cell)) : Prop := ∀ row ∈ rows, ∀ cell ∈ row, cell.score ≤ 32767

variable {scan : Scan} {foldedText pattern text : List Char} {ch : Char} {column : ℕ}
  {previous row : List Cell} {left bound : ℤ}

/-! ### Parts of a row -/

theorem Falls.drop (h : Falls ch left text row) (k : ℕ) :
    ∃ left, Falls ch left (text.drop k) (row.drop k) := by
  induction k generalizing left text row with
  | zero => exact ⟨left, h⟩
  | succ k ih =>
    cases text with
    | nil =>
      cases row with
      | nil => exact ⟨left, h⟩
      | cons cell row => exact h.elim
    | cons c text =>
      cases row with
      | nil => exact h.elim
      | cons cell row => exact ih h.2.2

theorem Falls.take (h : Falls ch left text row) (k : ℕ) :
    Falls ch left (text.take k) (row.take k) := by
  induction k generalizing left text row with
  | zero => exact trivial
  | succ k ih =>
    cases text with
    | nil =>
      cases row with
      | nil => exact h
      | cons cell row => exact h.elim
    | cons c text =>
      cases row with
      | nil => exact h.elim
      | cons cell row => exact ⟨h.1, h.2.1, ih h.2.2⟩

theorem Falls.exists_cell (h : Falls ch left text row) {i : ℕ} {c : Char}
    (hc : text[i]? = some c) : ∃ cell, row[i]? = some cell ∧ (c = ch → 0 < cell.score) ∧
      (0 < i → c ≠ ch → cell.score = 0 ∨
        ∃ before, row[i - 1]? = some before ∧ cell.score < before.score) := by
  induction i generalizing left text row with
  | zero =>
    cases text with
    | nil => exact absurd hc (by simp)
    | cons c' text =>
      cases row with
      | nil => exact h.elim
      | cons cell row =>
        obtain rfl := Option.some.inj hc
        exact ⟨cell, rfl, h.1, fun hpos => absurd hpos (by decide)⟩
  | succ i ih =>
    cases text with
    | nil => exact absurd hc (by simp)
    | cons c' text =>
      cases row with
      | nil => exact h.elim
      | cons cell row =>
        obtain ⟨next, hnext, hmatch, hfall⟩ := ih h.2.2 hc
        refine ⟨next, hnext, hmatch, fun _ hne => ?_⟩
        cases i with
        | zero =>
          -- The left neighbour is the head of the row.
          cases text with
          | nil => exact absurd hc (by simp)
          | cons c'' text =>
            cases row with
            | nil => exact absurd hnext (by simp)
            | cons next' row =>
              obtain rfl := Option.some.inj hnext
              obtain rfl := Option.some.inj hc
              exact (h.2.2.2.1 hne).imp_right fun hlt => ⟨cell, rfl, hlt⟩
        | succ i => exact hfall (Nat.succ_pos i) hne

/-! ### The rows -/

theorem Scan.Finds.bonuses_bounds (h : scan.Finds foldedText pattern) (k : ℕ) :
    ∀ x ∈ (foldedText.drop k).zip (scan.bonuses.drop k), 0 ≤ x.2 ∧ x.2 ≤ 8 := fun _ hx =>
  h.bonuses _ (List.mem_of_mem_drop (List.of_mem_zip hx).2)

theorem isRow_initial (ch : Char) (h : scan.Finds foldedText pattern)
    (horigin : scan.firstIndexOf ≤ scan.origin) (hlast : scan.origin ≤ scan.lastIndex) :
    IsRow scan foldedText ch scan.origin
        (((initialLoop id ch 0 false ((foldedText.drop scan.firstIndexOf).zip
          (scan.bonuses.drop scan.firstIndexOf))).drop (scan.origin - scan.firstIndexOf)).take
          scan.width) ∧
      ∀ cell ∈ ((initialLoop id ch 0 false ((foldedText.drop scan.firstIndexOf).zip
          (scan.bonuses.drop scan.firstIndexOf))).drop (scan.origin - scan.firstIndexOf)).take
          scan.width, cell.score ≤ 32 := by
  have hlt := h.lastIndex_lt
  obtain ⟨hfalls, hcells⟩ := @falls_initialLoop ch 0 false _
    (h.bonuses_bounds scan.firstIndexOf) (by decide)
  rw [List.map_fst_zip (by rw [List.length_drop, List.length_drop, h.length_bonuses])] at hfalls
  obtain ⟨left, hdrop⟩ := hfalls.drop (scan.origin - scan.firstIndexOf)
  rw [List.drop_drop, Nat.add_sub_cancel' horigin] at hdrop
  refine ⟨⟨?_, fun cell hcell => ?_, left, ?_⟩, fun cell hcell => ?_⟩
  · rw [List.length_take, List.length_drop, length_initialLoop, List.length_zip, List.length_drop,
      List.length_drop, h.length_bonuses, Nat.min_self, Scan.width]
    omega
  · exact (hcells cell (List.mem_of_mem_drop (List.mem_of_mem_take hcell))).1
  · rw [Nat.sub_self, List.drop_zero]
    exact hdrop.take _
  · exact (hcells cell (List.mem_of_mem_drop (List.mem_of_mem_take hcell))).2

/-- A row of `rowsLoop`. -/
def nextRow (narrow : ℤ → ℤ) (scan : Scan) (foldedText : List Char) (previous : List Cell)
    (ch : Char) (column : ℕ) : List Cell :=
  List.replicate (column - scan.origin) ⟨0, 0⟩ ++ rowLoop narrow scan.bonuses ch column 0 false
    (((foldedText.drop column).take (scan.lastIndex - column + 1)).zip
      (previous.drop (column - scan.origin - 1)))

theorem rowsLoop_cons (narrow : ℤ → ℤ) (scan : Scan) (foldedText : List Char)
    (previous : List Cell) (ch : Char) (column : ℕ) (rest : List (Char × ℕ)) :
    rowsLoop narrow scan foldedText previous ((ch, column) :: rest) =
      nextRow narrow scan foldedText previous ch column ::
        rowsLoop narrow scan foldedText (nextRow narrow scan foldedText previous ch column) rest :=
  rfl

/-- Where a row begins. -/
structure RowStart (scan : Scan) (foldedText : List Char) (ch : Char) (column : ℕ) : Prop where
  occurs : foldedText[column]? = some ch
  origin_lt : scan.origin < column
  le_lastIndex : column ≤ scan.lastIndex

section Next

variable (hbonuses : AreBonuses scan.bonuses) (hcounted : ∀ cell ∈ previous, cell.Counted)
include hbonuses hcounted

theorem nextRow_le (hbound : ∀ cell ∈ previous, cell.score ≤ bound) (hnonneg : 0 ≤ bound) :
    ∀ cell ∈ nextRow id scan foldedText previous ch column, cell.score ≤ bound + 24 := by
  intro cell hcell
  obtain hcell | hcell := List.mem_append.mp hcell
  · rw [List.eq_of_mem_replicate hcell]
    dsimp only
    omega
  · refine rowLoop_le hbonuses (fun x hx => ?_) (fun x hx => ?_) (by omega) (by omega) cell hcell
    · exact hcounted _ (List.mem_of_mem_drop (List.of_mem_zip hx).2)
    · exact hbound _ (List.mem_of_mem_drop (List.of_mem_zip hx).2)

theorem nextRow_int16
    (hfits : ∀ cell ∈ nextRow id scan foldedText previous ch column, cell.score ≤ 32767) :
    nextRow int16 scan foldedText previous ch column =
      nextRow id scan foldedText previous ch column := by
  rw [nextRow, nextRow, rowLoop_int16 hbonuses (fun x hx => ?_) (by decide) fun cell hcell => ?_]
  · exact hcounted _ (List.mem_of_mem_drop (List.of_mem_zip hx).2)
  · exact hfits cell (List.mem_append_right _ hcell)

variable (hlt : scan.lastIndex < foldedText.length) (hstart : RowStart scan foldedText ch column)
  (hlength : previous.length = scan.width)
include hlt hstart hlength

theorem isRow_nextRow : IsRow scan foldedText ch column
    (nextRow id scan foldedText previous ch column) := by
  obtain ⟨-, horigin, hlast⟩ := hstart
  have hslice : ((foldedText.drop column).take (scan.lastIndex - column + 1)).length =
      scan.lastIndex - column + 1 := by
    rw [List.length_take, List.length_drop]
    omega
  have hdiagonals : scan.lastIndex - column + 1 ≤
      (previous.drop (column - scan.origin - 1)).length := by
    rw [List.length_drop, hlength, Scan.width]
    omega
  have hcells : ∀ x ∈ ((foldedText.drop column).take (scan.lastIndex - column + 1)).zip
      (previous.drop (column - scan.origin - 1)), x.2.Counted := fun x hx =>
    hcounted _ (List.mem_of_mem_drop (List.of_mem_zip hx).2)
  refine ⟨?_, fun cell hcell => ?_, 0, ?_⟩
  · rw [nextRow, List.length_append, List.length_replicate, length_rowLoop, List.length_zip,
      hslice, Nat.min_eq_left hdiagonals, Scan.width]
    omega
  · obtain hcell | hcell := List.mem_append.mp hcell
    · rw [List.eq_of_mem_replicate hcell]
      exact ⟨le_rfl, le_rfl⟩
    · exact counted_rowLoop hbonuses hcells cell hcell
  · have hfalls := @falls_rowLoop _ ch column 0 false _ hbonuses hcells
    rw [List.map_fst_zip (by rw [hslice]; exact hdiagonals)] at hfalls
    rw [nextRow, List.drop_left' (List.length_replicate ..)]
    exact hfalls

omit hlt in
theorem exceeds_nextRow :
    Exceeds scan column previous (nextRow id scan foldedText previous ch column) := by
  obtain ⟨hoccurs, horigin, hlast⟩ := hstart
  have hdiagonal : column - scan.origin - 1 < previous.length := by
    rw [hlength, Scan.width]
    omega
  obtain ⟨hcolumn, rfl⟩ := List.getElem?_eq_some_iff.mp hoccurs
  have hcounted' := hcounted _ (List.getElem_mem hdiagonal)
  obtain ⟨hlow, -, -, -⟩ := matchCell_bounds column (id (0 + gapScore false)) hbonuses hcounted'
  obtain ⟨cell, hcell, hle⟩ : ∃ cell, (nextRow id scan foldedText previous foldedText[column]
      column)[column - scan.origin]? = some cell ∧
      (matchCell id scan.bonuses column previous[column - scan.origin - 1]
        (id (0 + gapScore false))).score ≤ cell.score := by
    rw [nextRow, List.getElem?_append_right (by rw [List.length_replicate]),
      List.length_replicate, Nat.sub_self, List.drop_eq_getElem_cons hcolumn,
      List.drop_eq_getElem_cons hdiagonal, List.take_succ_cons, List.zip_cons_cons, rowLoop_cons]
    refine ⟨_, rfl, ?_⟩
    dsimp only
    rw [rowCell, if_pos rfl]
    exact (le_max_left _ _).trans (le_max_right _ _)
  exact ⟨_, cell, List.getElem?_eq_getElem hdiagonal, hcell, by omega⟩

end Next

/-! ### The matrix -/

section Rows

variable {starts : List (Char × ℕ)} (hbonuses : AreBonuses scan.bonuses)
  (hlt : scan.lastIndex < foldedText.length)
  (hstarts : ∀ x ∈ starts, RowStart scan foldedText x.1 x.2)
  (hlength : previous.length = scan.width) (hcounted : ∀ cell ∈ previous, cell.Counted)
include hbonuses hlt hstarts hlength hcounted

theorem rowsLoop_spec : (rowsLoop id scan foldedText previous starts).length = starts.length ∧
    ∀ {i : ℕ} {ch : Char} {column : ℕ}, starts[i]? = some (ch, column) →
      ∃ above row, (previous :: rowsLoop id scan foldedText previous starts)[i]? = some above ∧
        (rowsLoop id scan foldedText previous starts)[i]? = some row ∧
        IsRow scan foldedText ch column row ∧ Exceeds scan column above row := by
  induction starts generalizing previous with
  | nil => exact ⟨rfl, fun h => absurd h (by simp)⟩
  | cons start starts ih =>
    obtain ⟨hstart, hstarts⟩ := List.forall_mem_cons.mp hstarts
    have hrow := isRow_nextRow hbonuses hcounted hlt hstart hlength
    obtain ⟨hrows, hspec⟩ := ih hstarts hrow.length hrow.counted
    rw [rowsLoop_cons]
    refine ⟨by rw [List.length_cons, hrows, List.length_cons], fun {i} {ch} {column} hi => ?_⟩
    cases i with
    | zero =>
      obtain rfl := Option.some.inj hi
      exact ⟨previous, _, rfl, rfl, hrow,
        exceeds_nextRow hbonuses hcounted hstart hlength⟩
    | succ i => exact hspec hi

theorem rowsLoop_le (hbound : ∀ cell ∈ previous, cell.score ≤ bound) (hnonneg : 0 ≤ bound) :
    ∀ row ∈ rowsLoop id scan foldedText previous starts, ∀ cell ∈ row,
      cell.score ≤ bound + 24 * starts.length := by
  induction starts generalizing previous bound with
  | nil => exact fun _ h => absurd h List.not_mem_nil
  | cons start starts ih =>
    obtain ⟨hstart, hstarts⟩ := List.forall_mem_cons.mp hstarts
    have hrow := isRow_nextRow hbonuses hcounted hlt hstart hlength
    have hnext : ∀ cell ∈ nextRow id scan foldedText previous start.1 start.2,
        cell.score ≤ bound + 24 := nextRow_le hbonuses hcounted hbound hnonneg
    have hrest := ih hstarts hrow.length hrow.counted hnext (by omega)
    rw [rowsLoop_cons, List.length_cons]
    push_cast
    refine List.forall_mem_cons.mpr ⟨fun cell hcell => ?_, fun row hrow' cell hcell => ?_⟩
    · have hle := hnext cell hcell
      omega
    · have hle := hrest row hrow' cell hcell
      omega

theorem rowsLoop_int16 (hfits : Fits (rowsLoop id scan foldedText previous starts)) :
    rowsLoop int16 scan foldedText previous starts =
      rowsLoop id scan foldedText previous starts := by
  induction starts generalizing previous with
  | nil => rfl
  | cons start starts ih =>
    obtain ⟨hstart, hstarts⟩ := List.forall_mem_cons.mp hstarts
    rw [rowsLoop_cons] at hfits
    obtain ⟨hfirst, hfits⟩ := List.forall_mem_cons.mp hfits
    have hrow := isRow_nextRow hbonuses hcounted hlt hstart hlength
    rw [rowsLoop_cons, rowsLoop_cons,
      nextRow_int16 hbonuses hcounted hfirst,
      ih hstarts hrow.length hrow.counted hfits]

end Rows

section Matrix

variable {first : Char} (h : scan.Finds foldedText (first :: pattern))
include h

theorem Scan.Finds.exists_firstOccurrences : ∃ rest, scan.firstOccurrences = scan.origin :: rest ∧
    scan.firstIndexOf ≤ scan.origin ∧ scan.origin ≤ scan.lastIndex ∧
    rest.length = pattern.length ∧
    ∀ x ∈ pattern.zip rest, RowStart scan foldedText x.1 x.2 := by
  obtain ⟨origin, rest, -, hoccurs, hfirst⟩ := List.forall₂_cons_right_iff.mp h.occurs
  have horigin : scan.origin = origin := by
    rw [Scan.origin, hfirst]
    rfl
  have hincreasing := h.increasing
  have hrange := h.range
  rw [hfirst] at hincreasing hrange
  rw [horigin]
  refine ⟨rest, hfirst, (hrange origin List.mem_cons_self).1,
    (hrange origin List.mem_cons_self).2, hoccurs.length_eq, fun x hx => ⟨?_, ?_, ?_⟩⟩
  · exact List.forall₂_zip hoccurs.flip hx
  · rw [horigin]
    exact List.rel_of_pairwise_cons hincreasing (List.of_mem_zip hx).2
  · exact (hrange _ (List.mem_cons_of_mem _ (List.of_mem_zip hx).2)).2

theorem isMatrix_matrixRows : IsMatrix scan foldedText (first :: pattern)
    (matrixRows id scan foldedText (first :: pattern)) := by
  obtain ⟨rest, hrest, horigin, hlast, hlength, hstarts⟩ := h.exists_firstOccurrences
  obtain ⟨hrow, -⟩ := isRow_initial first h horigin hlast
  obtain ⟨hrows, hspec⟩ := rowsLoop_spec h.bonuses h.lastIndex_lt hstarts hrow.length hrow.counted
  rw [matrixRows, hrest, List.tail_cons]
  refine ⟨?_, fun {p row ch column} hrow' hch hcolumn => ?_,
    fun {p above row column} habove hrow' hcolumn => ?_⟩
  · rw [List.length_cons, hrows, List.length_zip, hlength, Nat.min_self, List.length_cons]
  · rw [hrest] at hcolumn
    cases p with
    | zero =>
      obtain rfl := Option.some.inj hrow'
      obtain rfl := Option.some.inj hch
      obtain rfl := Option.some.inj hcolumn
      exact hrow
    | succ p =>
      obtain ⟨-, row', -, hrow'', hisRow, -⟩ := hspec (List.getElem?_zip_eq_some.mpr ⟨hch, hcolumn⟩)
      obtain rfl := Option.some.inj (hrow''.symm.trans hrow')
      exact hisRow
  · rw [hrest] at hcolumn
    have hp : p < pattern.length := by
      rw [← hlength]
      exact Nat.lt_of_succ_lt_succ (List.getElem?_eq_some_iff.mp hcolumn).1
    obtain ⟨above', row', habove', hrow'', -, hexceeds⟩ :=
      hspec (List.getElem?_zip_eq_some.mpr ⟨List.getElem?_eq_getElem hp, hcolumn⟩)
    obtain rfl := Option.some.inj (habove'.symm.trans habove)
    obtain rfl := Option.some.inj (hrow''.symm.trans hrow')
    exact hexceeds

theorem matrixRows_int16 (hfits : Fits (matrixRows id scan foldedText (first :: pattern))) :
    matrixRows int16 scan foldedText (first :: pattern) =
      matrixRows id scan foldedText (first :: pattern) := by
  obtain ⟨rest, hrest, horigin, hlast, -, hstarts⟩ := h.exists_firstOccurrences
  obtain ⟨hrow, -⟩ := isRow_initial first h horigin hlast
  rw [matrixRows] at hfits ⊢
  rw [matrixRows, initialLoop_int16 (h.bonuses_bounds _) (by decide)]
  rw [hrest, List.tail_cons] at hfits ⊢
  exact congrArg (List.cons _) (rowsLoop_int16 h.bonuses h.lastIndex_lt hstarts hrow.length
    hrow.counted (List.forall_mem_cons.mp hfits).2)

theorem fits_of_length_le (hlength : pattern.length < 1364) :
    Fits (matrixRows id scan foldedText (first :: pattern)) := by
  obtain ⟨rest, hrest, horigin, hlast, -, hstarts⟩ := h.exists_firstOccurrences
  obtain ⟨hrow, hbound⟩ := isRow_initial first h horigin hlast
  have hrows := rowsLoop_le h.bonuses h.lastIndex_lt hstarts hrow.length hrow.counted hbound
    (by decide)
  rw [matrixRows, hrest, List.tail_cons]
  refine List.forall_mem_cons.mpr ⟨fun cell hcell => (hbound cell hcell).trans (by decide),
    fun row hrow' cell hcell => (hrows row hrow' cell hcell).trans ?_⟩
  have hzip : (pattern.zip rest).length ≤ pattern.length := by
    rw [List.length_zip]
    exact Nat.min_le_left _ _
  omega

end Matrix

end IntelligentTerminal.Fzf
