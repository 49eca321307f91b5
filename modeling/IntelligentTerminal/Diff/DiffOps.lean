import IntelligentTerminal.Data.CommonSubsequence
import IntelligentTerminal.Diff.LineDiff

/-!
# The line by line diff is minimal

Each cell of the table holds the length of a longest common subsequence of the lines from its two
indices on. The walk keeps a pair of equal lines whenever it stands at one, and else follows the
larger cell, so that what it keeps is as long as the cell at which it stands.

Source: `tools/wta/src/ui/line_diff.rs`, lines 203-250.
-/

namespace IntelligentTerminal.Diff

open Data

/-- The texts of the lines of certain kinds. -/
def textsOf (inText : DiffLineKind → Bool) (lines : List DiffLine) : List Line :=
  (lines.filter (inText ·.kind)).map (·.text)

abbrev oldTexts : List DiffLine → List Line := textsOf fun kind => kind = .context ∨ kind = .removed

abbrev newTexts : List DiffLine → List Line := textsOf fun kind => kind = .context ∨ kind = .added

/-- The lines that a diff says are in both texts. -/
abbrev contextTexts : List DiffLine → List Line := textsOf (· = .context)

/-! ### The table -/

section Table

variable {oldLines newLines : List Line} {table : List ℕ} {i j : ℕ}

/-- The table is filled from a cell on, in the order of its rows. -/
structure Filled (oldLines newLines : List Line) (table : List ℕ) (i j : ℕ) : Prop where
  length : table.length = (oldLines.length + 1) * (newLines.length + 1)
  cell : ∀ i' ≤ oldLines.length, ∀ j' ≤ newLines.length,
    i < i' ∨ i' = i ∧ j ≤ j' ∨ j' = newLines.length →
      cell newLines table i' j' = commonLength (oldLines.drop i') (newLines.drop j')

theorem index_inj {columns i j i' j' : ℕ} (hj : j < columns) (hj' : j' < columns)
    (h : i * columns + j = i' * columns + j') : i = i' ∧ j = j' := by
  have hcolumns : 0 < columns := Nat.zero_lt_of_lt hj
  have hdiv := congrArg (· / columns) h
  have hmod := congrArg (· % columns) h
  simp only [Nat.mul_comm _ columns, Nat.mul_add_mod, Nat.mod_eq_of_lt hj, Nat.mod_eq_of_lt hj',
    Nat.mul_add_div hcolumns, Nat.div_eq_of_lt hj, Nat.div_eq_of_lt hj'] at hdiv hmod
  exact ⟨hdiv, hmod⟩

theorem index_lt {rows columns i j : ℕ} (hi : i < rows) (hj : j < columns) :
    i * columns + j < rows * columns := by
  have := Nat.mul_le_mul_right columns (Nat.succ_le_of_lt hi)
  rw [Nat.succ_mul] at this
  omega

theorem commonLength_drop (hi : i < oldLines.length) (hj : j < newLines.length) :
    commonLength (oldLines.drop i) (newLines.drop j) =
      if oldLines[i]? = newLines[j]? then
        commonLength (oldLines.drop (i + 1)) (newLines.drop (j + 1)) + 1
      else
        max (commonLength (oldLines.drop (i + 1)) (newLines.drop j))
          (commonLength (oldLines.drop i) (newLines.drop (j + 1))) := by
  rw [List.drop_eq_getElem_cons hi, List.drop_eq_getElem_cons hj, List.getElem?_eq_getElem hi,
    List.getElem?_eq_getElem hj]
  split_ifs with h
  · rw [Option.some.inj h, commonLength_cons_self]
  · exact commonLength_cons_of_ne (fun heq => h (congrArg some heq)) _ _

theorem Filled.fillCell (h : Filled oldLines newLines table i (j + 1))
    (hlimit : oldLines.length ≤ 4096) (hi : i < oldLines.length) (hj : j < newLines.length) :
    Filled oldLines newLines (fillCell oldLines newLines table i j) i j := by
  refine ⟨by rw [Diff.fillCell, List.length_set, h.length], fun i' hi' j' hj' hdone => ?_⟩
  have hlt := index_lt (Nat.lt_succ_of_lt hi) (Nat.lt_succ_of_lt hj)
  rw [← h.length] at hlt
  by_cases hself : i' = i ∧ j' = j
  · obtain ⟨rfl, rfl⟩ := hself
    -- The value stays below the width of a cell.
    have hle := (commonLength_le_left (oldLines.drop (i' + 1)) (newLines.drop (j' + 1))).trans
      (List.length_drop ▸ Nat.sub_le _ _)
    rw [Diff.cell, Diff.fillCell, List.getD_eq_getElem?_getD, List.getElem?_set_self hlt,
      Option.getD_some, commonLength_drop hi hj, h.cell (i' + 1) hi (j' + 1) hj (by omega),
      h.cell (i' + 1) hi j' hj.le (by omega), h.cell i' hi.le (j' + 1) hj (by omega),
      Nat.mod_eq_of_lt (by omega)]
  · have hne : i * (newLines.length + 1) + j ≠ i' * (newLines.length + 1) + j' := fun heq => by
      obtain ⟨rfl, rfl⟩ := index_inj (Nat.lt_succ_of_lt hj) (Nat.lt_succ_of_le hj') heq
      exact hself ⟨rfl, rfl⟩
    rw [← h.cell i' hi' j' hj' (by omega), Diff.cell, Diff.cell, Diff.fillCell,
      List.getD_eq_getElem?_getD, List.getElem?_set_ne hne, List.getD_eq_getElem?_getD]

theorem Filled.fillRow (h : Filled oldLines newLines table i j)
    (hlimit : oldLines.length ≤ 4096) (hi : i < oldLines.length) (hj : j ≤ newLines.length) :
    Filled oldLines newLines (fillRow oldLines newLines i j table) i 0 := by
  induction j generalizing table with
  | zero => exact h
  | succ j ih => exact ih (h.fillCell hlimit hi hj) (Nat.le_of_succ_le hj)

theorem Filled.fillRows (h : Filled oldLines newLines table i 0)
    (hlimit : oldLines.length ≤ 4096) (hi : i ≤ oldLines.length) :
    Filled oldLines newLines (fillRows oldLines newLines i table) 0 0 := by
  induction i generalizing table with
  | zero => exact h
  | succ i ih =>
    have hrow : Filled oldLines newLines table i newLines.length :=
      ⟨h.length, fun i' hi' j' hj' hdone => h.cell i' hi' j' hj' (by omega)⟩
    exact ih (hrow.fillRow hlimit hi le_rfl) (Nat.le_of_succ_le hi)

theorem filled_commonLengths (hlimit : oldLines.length ≤ 4096) :
    Filled oldLines newLines (commonLengths oldLines newLines) 0 0 := by
  refine Filled.fillRows ⟨List.length_replicate, fun i hi j hj hdone => ?_⟩ hlimit le_rfl
  have hzero : commonLength (oldLines.drop i) (newLines.drop j) = 0 := by
    rcases hdone with h | ⟨rfl, -⟩ | rfl
    · omega
    · rw [List.drop_length, commonLength_nil_left]
    · rw [List.drop_length, commonLength_nil_right]
  rw [hzero, cell, List.getD_eq_getElem?_getD, List.getElem?_replicate,
    if_pos (index_lt (Nat.lt_succ_of_le hi) (Nat.lt_succ_of_le hj)), Option.getD_some]

end Table

/-! ### The walk -/

/-- What a walk from two indices on reports. -/
structure Reports (oldLines newLines : List Line) (i j : ℕ) (lines : List DiffLine) : Prop where
  old : oldTexts lines = oldLines.drop i
  new : newTexts lines = newLines.drop j
  length : (contextTexts lines).length = commonLength (oldLines.drop i) (newLines.drop j)
  omitted : ∀ line ∈ lines, line.kind ≠ .omitted

variable {oldLines newLines : List Line}

theorem reports_walk {table : List ℕ} (h : Filled oldLines newLines table 0 0) {i j : ℕ}
    (hi : i ≤ oldLines.length) (hj : j ≤ newLines.length) :
    Reports oldLines newLines i j (walk oldLines newLines table i j) := by
  have hcell : ∀ i' ≤ oldLines.length, ∀ j' ≤ newLines.length,
      cell newLines table i' j' = commonLength (oldLines.drop i') (newLines.drop j') :=
    fun i' hi' j' hj' => h.cell i' hi' j' hj' (by omega)
  induction i, j using walk.induct oldLines newLines table with
  | case1 i j hmatch ih =>
    obtain ⟨hi, hj, heq⟩ := hmatch
    have ih := ih hi hj
    have hline : newLines[j] = oldLines[i] := by
      rw [List.getElem?_eq_getElem hi, List.getElem?_eq_getElem hj] at heq
      exact (Option.some.inj heq).symm
    rw [walk, dif_pos ⟨hi, hj, heq⟩, List.getD_eq_getElem _ _ hi]
    constructor
    · rw [List.drop_eq_getElem_cons hi, ← ih.old]
      rfl
    · rw [List.drop_eq_getElem_cons hj, ← ih.new, hline]
      rfl
    · rw [commonLength_drop hi hj, if_pos heq, ← ih.length]
      rfl
    · exact List.forall_mem_cons.mpr ⟨by simp, ih.omitted⟩
  | case2 i j hmatch hremove ih =>
    have hi' := hremove.1
    have ih := ih hi' hj
    rw [walk, dif_neg hmatch, dif_pos hremove, List.getD_eq_getElem _ _ hi']
    constructor
    · rw [List.drop_eq_getElem_cons hi', ← ih.old]
      rfl
    · exact ih.new
    · refine (ih.length).trans ?_
      rcases hremove.2 with rfl | hle
      · rw [List.drop_length, commonLength_nil_right, commonLength_nil_right]
      · rcases hj.eq_or_lt with rfl | hj'
        · rw [List.drop_length, commonLength_nil_right, commonLength_nil_right]
        · rw [hcell i hi (j + 1) hj', hcell (i + 1) hi' j hj] at hle
          rw [commonLength_drop hi' hj', if_neg fun heq => hmatch ⟨hi', hj', heq⟩,
            max_eq_left hle]
    · exact List.forall_mem_cons.mpr ⟨by simp, ih.omitted⟩
  | case3 i j hmatch hremove hj' ih =>
    have ih := ih hi hj'
    rw [walk, dif_neg hmatch, dif_neg hremove, dif_pos hj', List.getD_eq_getElem _ _ hj']
    constructor
    · exact ih.old
    · rw [List.drop_eq_getElem_cons hj', ← ih.new]
      rfl
    · refine (ih.length).trans ?_
      rcases hi.eq_or_lt with rfl | hi'
      · rw [List.drop_length, commonLength_nil_left, commonLength_nil_left]
      · have hlt : ¬cell newLines table i (j + 1) ≤ cell newLines table (i + 1) j :=
          fun hle => hremove ⟨hi', .inr hle⟩
        rw [hcell i hi (j + 1) hj', hcell (i + 1) hi' j hj] at hlt
        rw [commonLength_drop hi' hj', if_neg fun heq => hmatch ⟨hi', hj', heq⟩,
          max_eq_right (not_le.mp hlt).le]
    · exact List.forall_mem_cons.mpr ⟨by simp, ih.omitted⟩
  | case4 i j hmatch hremove hj' =>
    have hj := hj.antisymm (not_lt.mp hj')
    have hi : i = oldLines.length :=
      hi.antisymm (not_lt.mp fun hi => hremove ⟨hi, .inl hj⟩)
    rw [walk, dif_neg hmatch, dif_neg hremove, dif_neg hj', hi, hj]
    exact ⟨by rw [List.drop_length]; rfl, by rw [List.drop_length]; rfl,
      by rw [List.drop_length, commonLength_nil_left]; rfl, by simp⟩

theorem reports_diffOps (hlimit : oldLines.length ≤ 4096) :
    Reports oldLines newLines 0 0 (diffOps oldLines newLines) :=
  reports_walk (filled_commonLengths hlimit) (Nat.zero_le _) (Nat.zero_le _)

theorem contextTexts_sublist {inText : DiffLineKind → Bool} (h : inText .context = true)
    (lines : List DiffLine) : (contextTexts lines).Sublist (textsOf inText lines) :=
  (List.monotone_filter_right lines fun line hcontext => by rwa [of_decide_eq_true hcontext]).map _

/-- The diff is an edit script of the two texts, and keeps a longest common subsequence. -/
theorem isLongestCommon_diffOps (oldLines newLines : List Line) (hold : oldLines.length ≤ 4096) :
    oldTexts (diffOps oldLines newLines) = oldLines ∧
      newTexts (diffOps oldLines newLines) = newLines ∧
      IsLongestCommon (contextTexts (diffOps oldLines newLines)) oldLines newLines := by
  have h : Reports oldLines newLines 0 0 (diffOps oldLines newLines) := reports_diffOps hold
  have hleft : (contextTexts (diffOps oldLines newLines)).Sublist
      (oldTexts (diffOps oldLines newLines)) := contextTexts_sublist rfl _
  have hright : (contextTexts (diffOps oldLines newLines)).Sublist
      (newTexts (diffOps oldLines newLines)) := contextTexts_sublist rfl _
  rw [h.old] at hleft
  rw [h.new] at hright
  refine ⟨h.old, h.new, hleft, hright, fun other hother hother' => ?_⟩
  rw [h.length]
  exact length_le_commonLength hother hother'

theorem isLongestCommon_diffOps_sample :
    oldTexts (diffOps [['a'], ['b'], ['c']] [['b'], ['d']]) = [['a'], ['b'], ['c']] ∧
      newTexts (diffOps [['a'], ['b'], ['c']] [['b'], ['d']]) = [['b'], ['d']] ∧
      IsLongestCommon (contextTexts (diffOps [['a'], ['b'], ['c']] [['b'], ['d']]))
        [['a'], ['b'], ['c']] [['b'], ['d']] :=
  isLongestCommon_diffOps _ _ (by decide)

end IntelligentTerminal.Diff
