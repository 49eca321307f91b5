import IntelligentTerminal.Fzf.Traceback

/-!
# The match of one term

The first pass finds the leftmost occurrence of each character of a term if and only if the folded
term is a subsequence of the folded text. Then the last row of the matrix has a positive score, and
the walk back begins there.
-/

namespace IntelligentTerminal.Fzf

/-- The scores of a term in integers of unbounded size. -/
def exactScores (u : Unicode) (text term : List Char) : List (List Cell) :=
  match scanText u text term with
  | none => []
  | some scan => matrixRows id scan (text.map u.foldCase) term

variable {u : Unicode} {input text foldedText pattern pending front rest : List Char}
  {ch first current : Char} {start i column last : ℕ} {scan : Scan}

/-! ### Subsequences -/

theorem cons_sublist_append_cons (hfront : ch ∉ front) :
    (ch :: pattern).Sublist (front ++ ch :: rest) ↔ pattern.Sublist rest := by
  induction front with
  | nil => exact List.cons_sublist_cons
  | cons c front ih =>
    rw [List.mem_cons, not_or] at hfront
    rw [← ih hfront.2, List.cons_append]
    exact ⟨fun h => h.of_cons_of_ne hfront.1, fun h => h.cons c⟩

theorem eq_append_of_findIdx? {k : ℕ} (h : text.findIdx? (· = ch) = some k) :
    text = text.take k ++ ch :: text.drop (k + 1) ∧ ch ∉ text.take k ∧ k < text.length := by
  obtain ⟨hlt, hch, hbefore⟩ := List.findIdx?_eq_some_iff_getElem.mp h
  refine ⟨?_, fun hmem => ?_, hlt⟩
  · conv_lhs => rw [← List.take_append_drop k text, List.drop_eq_getElem_cons hlt,
      of_decide_eq_true hch]
  · obtain ⟨j, hj, hget⟩ := List.getElem_of_mem hmem
    rw [List.length_take] at hj
    refine absurd ?_ (hbefore j (by omega))
    rw [List.getElem_take] at hget
    exact decide_eq_true hget

theorem skipLoop_iff (input pattern : List Char) (start : ℕ) :
    skipLoop input pattern start = true ↔ pattern.Sublist (input.drop start) := by
  induction pattern generalizing start with
  | nil => exact iff_of_true rfl (List.nil_sublist _)
  | cons ch pattern ih =>
    rw [skipLoop, trySkip]
    cases hfind : (input.drop start).findIdx? (· = ch) with
    | none =>
      refine iff_of_false (by simp) fun hsub => ?_
      have hmem : ch ∈ input.drop start := hsub.subset List.mem_cons_self
      exact absurd (List.findIdx?_eq_none_iff.mp hfind ch hmem) (by simp)
    | some k =>
      obtain ⟨hsplit, hfront, -⟩ := eq_append_of_findIdx? hfind
      have hdrop : input.drop (k + start + 1) = (input.drop start).drop (k + 1) := by
        rw [List.drop_drop]
        congr 1
        omega
      rw [Option.map_some, hsplit, cons_sublist_append_cons hfront, ← hdrop]
      exact ih _

theorem asciiFuzzyIndex_eq_some (h : asciiFuzzyIndex input pattern = some i) :
    pattern.Sublist (input.drop i) := by
  cases pattern with
  | nil => exact List.nil_sublist _
  | cons ch pattern =>
    rw [asciiFuzzyIndex, trySkip, List.drop_zero] at h
    cases hfind : input.findIdx? (· = ch) with
    | none =>
      rw [hfind] at h
      exact absurd h (by simp)
    | some k =>
      obtain ⟨hsplit, -, hlt⟩ := eq_append_of_findIdx? hfind
      rw [hfind, Option.map_some, Nat.add_zero] at h
      dsimp only at h
      split_ifs at h with hskip
      obtain rfl := Option.some.inj h
      have hrest := (skipLoop_iff _ _ _).mp hskip
      have hdrop : (ch :: input.drop (k + 1)).Sublist (input.drop (k - 1)) := by
        have hsuffix : ch :: input.drop (k + 1) = input.drop k := by
          conv_rhs => rw [hsplit, List.drop_left' (by rw [List.length_take]; omega)]
        rw [hsuffix]
        exact List.drop_sublist_drop_left _ (Nat.sub_le k 1)
      exact (hrest.cons_cons ch).trans hdrop

theorem asciiFuzzyIndex_eq_none (h : asciiFuzzyIndex input pattern = none) :
    ¬ pattern.Sublist input := by
  cases pattern with
  | nil => exact absurd h (by simp [asciiFuzzyIndex])
  | cons ch pattern =>
    intro hsub
    rw [asciiFuzzyIndex, trySkip, List.drop_zero] at h
    cases hfind : input.findIdx? (· = ch) with
    | none =>
      have hmem : ch ∈ input := hsub.subset List.mem_cons_self
      exact absurd (List.findIdx?_eq_none_iff.mp hfind ch hmem) (by simp)
    | some k =>
      obtain ⟨hsplit, hfront, -⟩ := eq_append_of_findIdx? hfind
      rw [hfind, Option.map_some, Nat.add_zero] at h
      dsimp only at h
      rw [hsplit, cons_sublist_append_cons hfront] at hsub
      rw [if_pos ((skipLoop_iff _ _ _).mpr hsub)] at h
      exact absurd h (by simp)

/-! ### The first pass -/

theorem occurrenceLoop_spec (current : Char) (last : ℕ) (htext : text = foldedText.drop column)
    (hpending : ∀ ch ∈ pending.head?, ch = current) (hsub : pending.Sublist text)
    (hlast : pending = [] → last < foldedText.length) (hle : last ≤ column) :
    List.Forall₂ (fun column ch => foldedText[column]? = some ch)
        (occurrenceLoop current pending column last text).1 pending ∧
      (occurrenceLoop current pending column last text).1.Pairwise (· < ·) ∧
      (∀ x ∈ (occurrenceLoop current pending column last text).1,
        column ≤ x ∧ x ≤ (occurrenceLoop current pending column last text).2) ∧
      last ≤ (occurrenceLoop current pending column last text).2 ∧
      (occurrenceLoop current pending column last text).2 < foldedText.length := by
  induction text generalizing column pending current last with
  | nil =>
    obtain rfl := List.eq_nil_of_sublist_nil hsub
    exact ⟨.nil, .nil, by simp [occurrenceLoop], le_rfl, hlast rfl⟩
  | cons ch text ih =>
    have hcolumn : column < foldedText.length := by
      by_contra hge
      rw [List.drop_eq_nil_of_le (not_lt.mp hge)] at htext
      exact absurd htext (by simp)
    rw [List.drop_eq_getElem_cons hcolumn] at htext
    obtain ⟨hch, htext⟩ := List.cons.inj htext
    rw [occurrenceLoop.eq_def]
    dsimp only
    by_cases hcurrent : ch = current
    · rw [if_pos hcurrent]
      cases pending with
      | nil =>
        obtain ⟨hholds, hlt, hrange, hlast', hlen⟩ :=
          ih current column htext (by simp) (List.nil_sublist _) (fun _ => hcolumn)
            (Nat.le_succ column)
        exact ⟨hholds, hlt, fun x hx => ⟨Nat.le_of_succ_le (hrange x hx).1, (hrange x hx).2⟩,
          hle.trans hlast', hlen⟩
      | cons c pending =>
        obtain rfl : c = current := hpending c rfl
        rw [← hcurrent, List.cons_sublist_cons] at hsub
        obtain ⟨hholds, hlt, hrange, hlast', hlen⟩ :=
          ih (pending.headD c) column htext
            (fun ch' hch' => by cases pending with
              | nil => exact absurd hch' (by simp)
              | cons c' pending => exact (Option.mem_some.mp hch').symm)
            hsub (fun _ => hcolumn) (Nat.le_succ column)
        dsimp only
        refine ⟨.cons ?_ hholds, List.pairwise_cons.mpr ⟨fun x hx => (hrange x hx).1, hlt⟩,
          List.forall_mem_cons.mpr ⟨⟨le_rfl, hlast'⟩, fun x hx => ?_⟩, hle.trans hlast', hlen⟩
        · rw [List.getElem?_eq_getElem hcolumn, ← hch, hcurrent]
        · exact ⟨Nat.le_of_succ_le (hrange x hx).1, (hrange x hx).2⟩
    · rw [if_neg hcurrent]
      have hsub' : pending.Sublist text := by
        cases pending with
        | nil => exact List.nil_sublist _
        | cons c pending =>
          obtain rfl : c = current := hpending c rfl
          exact hsub.of_cons_of_ne fun heq => hcurrent heq.symm
      obtain ⟨hholds, hlt, hrange, hlast', hlen⟩ :=
        ih current last htext hpending hsub' hlast (hle.trans (Nat.le_succ column))
      exact ⟨hholds, hlt, fun x hx => ⟨Nat.le_of_succ_le (hrange x hx).1, (hrange x hx).2⟩,
        hlast', hlen⟩

theorem scanText_eq_none (h : scanText u text pattern = none) :
    ¬ pattern.Sublist (text.map u.foldCase) :=
  asciiFuzzyIndex_eq_none (Option.map_eq_none_iff.mp h)

theorem finds_of_scanText (h : scanText u text (first :: pattern) = some scan) :
    scan.Finds (text.map u.foldCase) (first :: pattern) ∧
      (first :: pattern).Sublist (text.map u.foldCase) := by
  obtain ⟨firstIndexOf, hindex, rfl⟩ := Option.map_eq_some_iff.mp h
  have hsub := asciiFuzzyIndex_eq_some hindex
  have hlt : firstIndexOf < text.length := by
    have hlength := hsub.length_le
    rw [List.length_drop, List.length_map, List.length_cons] at hlength
    omega
  obtain ⟨hholds, hincreasing, hrange, -, hlast⟩ := occurrenceLoop_spec first 0 rfl
    (fun ch hch => (Option.mem_some.mp hch).symm) hsub (by simp)
    (Nat.zero_le firstIndexOf)
  refine ⟨⟨hholds, hincreasing, hrange, hlast, fun bonus hbonus => ?_, ?_⟩,
    hsub.trans (List.drop_sublist _ _)⟩
  · obtain hbonus | hbonus := List.mem_append.mp hbonus
    · rw [List.eq_of_mem_replicate hbonus]
      decide
    · exact areBonuses_bonusLoop _ _ bonus hbonus
  · rw [List.length_append, List.length_replicate, length_bonusLoop, List.length_drop,
      List.length_map]
    omega

/-! ### Terms of one character -/

theorem singleLoop_spec {chars : List (Char × ℤ)} (best : ℤ × ℕ)
    (hchars : chars.map (·.1) = foldedText.drop column)
    (hbonuses : ∀ x ∈ chars, 0 ≤ x.2 ∧ x.2 ≤ 8)
    (hbest : 0 < best.1 → foldedText[best.2]? = some first)
    (hmem : 0 < best.1 ∨ first ∈ foldedText.drop column) :
    0 < (singleLoop int16 first column best chars).1 ∧
      foldedText[(singleLoop int16 first column best chars).2]? = some first := by
  induction chars generalizing column best with
  | nil =>
    rw [← hchars] at hmem
    have hpos : 0 < best.1 := hmem.resolve_right (by simp)
    exact ⟨hpos, hbest hpos⟩
  | cons x chars ih =>
    obtain ⟨⟨hlow, hhigh⟩, hbonuses⟩ := List.forall_mem_cons.mp hbonuses
    have hcolumn : column < foldedText.length := by
      by_contra hge
      rw [List.drop_eq_nil_of_le (not_lt.mp hge)] at hchars
      exact absurd hchars (by simp)
    rw [List.drop_eq_getElem_cons hcolumn] at hchars hmem
    obtain ⟨hx, hrest⟩ := List.cons.inj hchars
    have hscore : int16 (scoreMatch + x.2 * bonusFirstCharMultiplier) =
        16 + x.2 * 2 := by
      rw [scoreMatch, bonusFirstCharMultiplier]
      exact int16_eq (by omega) (by omega)
    rw [singleLoop, hscore]
    by_cases htake : x.1 = first ∧ best.1 < 16 + x.2 * 2
    · have hholds : foldedText[column]? = some first := by
        rw [List.getElem?_eq_getElem hcolumn, ← hx]
        exact congrArg some htake.1
      have hpos : 0 < 16 + x.2 * 2 := by omega
      rw [if_pos htake]
      split_ifs with hboundary
      · exact ⟨hpos, hholds⟩
      · exact ih _ hrest hbonuses (fun _ => hholds) (.inl hpos)
    · rw [if_neg htake]
      refine ih best hrest hbonuses hbest ?_
      obtain hpos | hmem := hmem
      · exact .inl hpos
      · obtain hfirst | hmem := List.mem_cons.mp hmem
        · have hne := not_and.mp htake (hx.trans hfirst.symm)
          exact .inl (by omega)
        · exact .inr hmem

/-! ### Longer terms -/

theorem maxLoop_spec (row : List Cell) (best : ℤ × ℕ) {lower : ℕ} (hlower : lower ≤ column)
    (hbest : 0 < best.1 → lower ≤ best.2 ∧ best.2 < column + row.length) :
    (0 < (maxLoop column best row).1 → lower ≤ (maxLoop column best row).2 ∧
        (maxLoop column best row).2 < column + row.length) ∧
      best.1 ≤ (maxLoop column best row).1 ∧
      ∀ cell ∈ row, cell.score ≤ (maxLoop column best row).1 := by
  induction row generalizing column best with
  | nil => exact ⟨hbest, le_rfl, fun _ h => absurd h List.not_mem_nil⟩
  | cons cell row ih =>
    have hlength : column + 1 + row.length = column + (cell :: row).length := by
      rw [List.length_cons]
      omega
    rw [maxLoop, ← hlength]
    rw [← hlength] at hbest
    split_ifs with hless
    · obtain ⟨hrange, hle, hcells⟩ := ih (cell.score, column)
        (hlower.trans (Nat.le_succ column)) (fun _ => ⟨hlower, by dsimp only; omega⟩)
      exact ⟨hrange, hless.le.trans hle, List.forall_mem_cons.mpr ⟨hle, hcells⟩⟩
    · obtain ⟨hrange, hle, hcells⟩ := ih best (hlower.trans (Nat.le_succ column)) hbest
      exact ⟨hrange, hle, List.forall_mem_cons.mpr ⟨(not_lt.mp hless).trans hle, hcells⟩⟩

theorem fzfFuzzyMatchV2_of_not_sublist (hne : pattern ≠ [])
    (hsub : ¬ pattern.Sublist (text.map u.foldCase)) :
    fzfFuzzyMatchV2 u int16 text pattern = some (0, []) := by
  cases pattern with
  | nil => exact absurd rfl hne
  | cons first pattern =>
    rw [fzfFuzzyMatchV2]
    cases hscan : scanText u text (first :: pattern) with
    | none => rfl
    | some scan => exact absurd (finds_of_scanText hscan).2 hsub

theorem fits_exactScores (hlength : pattern.length ≤ 1364) : Fits (exactScores u text pattern) := by
  rw [exactScores]
  cases hscan : scanText u text pattern with
  | none => exact fun _ h => absurd h List.not_mem_nil
  | some scan =>
    cases pattern with
    | nil => exact fun _ h => absurd h List.not_mem_nil
    | cons first pattern => exact fits_of_length_le (finds_of_scanText hscan).1 hlength

theorem exists_walk {rows : List (List Cell)} (hfinds : scan.Finds foldedText (first :: pattern))
    (hmatrix : IsMatrix scan foldedText (first :: pattern) rows) :
    let column := scan.firstOccurrences.getLastD 0
    let best := maxLoop column (0, 0) ((rows.getLastD []).drop (column - scan.origin))
    0 < best.1 ∧ ∃ positions, traceLoop scan rows.flatten (rows.flatten.length + 1) pattern.length
      best.2 true = some positions ∧ Holds foldedText (first :: pattern) positions := by
  have hlength := hfinds.occurs.length_eq
  rw [List.length_cons] at hlength
  have hch : (first :: pattern)[pattern.length]? = some ((first :: pattern)[pattern.length]) :=
    List.getElem?_eq_getElem (Nat.lt_succ_self _)
  have hcolumn : scan.firstOccurrences[pattern.length]? =
      some (scan.firstOccurrences.getLastD 0) := by
    have hlast := List.getLast?_eq_getElem? (l := scan.firstOccurrences)
    rw [hlength, Nat.add_sub_cancel] at hlast
    rw [← hlast, List.getLastD_eq_getLast?, List.getLast?_eq_some_getLast
      (List.ne_nil_of_length_pos (by omega))]
    rfl
  have hrow : rows[pattern.length]? = some (rows.getLastD []) := by
    have hlast := List.getLast?_eq_getElem? (l := rows)
    have hrows := hmatrix.length
    rw [List.length_cons] at hrows
    rw [hrows, Nat.add_sub_cancel] at hlast
    rw [← hlast, List.getLastD_eq_getLast?, List.getLast?_eq_some_getLast
      (List.ne_nil_of_length_pos (by omega))]
    rfl
  generalize scan.firstOccurrences.getLastD 0 = column at hcolumn ⊢
  generalize rows.getLastD [] = row at hrow ⊢
  have horigin := origin_le hfinds hcolumn
  have hlast := (hfinds.range column (List.mem_of_getElem? hcolumn)).2
  have hwidth : row.length = scan.width := hmatrix.length_row hfinds (List.mem_of_getElem? hrow)
  obtain ⟨cell, hcell, -, hmatch, -⟩ := exists_cell hfinds hmatrix hch hcolumn le_rfl hlast
  have hpos := hmatch (occurs_at hfinds hch hcolumn)
  rw [cellAt_flatten hfinds hmatrix hrow horigin hlast] at hcell
  have hmem : cell ∈ row.drop (column - scan.origin) := by
    refine List.mem_of_getElem? (i := 0) ?_
    rw [List.getElem?_drop, Nat.add_zero, hcell]
  obtain ⟨hrange, -, hcells⟩ := maxLoop_spec (row.drop (column - scan.origin)) (0, 0)
    (le_refl column) fun h => absurd h (lt_irrefl _)
  have hbest := lt_of_lt_of_le hpos (hcells cell hmem)
  obtain ⟨hle, hlt⟩ := hrange hbest
  rw [List.length_drop, hwidth, Scan.width] at hlt
  dsimp only
  generalize maxLoop column (0, 0) (row.drop (column - scan.origin)) = best at hbest hle hlt ⊢
  have hlast' : best.2 ≤ scan.lastIndex := by omega
  obtain ⟨_, hindex, -⟩ := exists_cell hfinds hmatrix hch hcolumn hle hlast'
  have hfuel : best.2 - scan.origin < rows.flatten.length + 1 := by
    rw [cellAt] at hindex
    split_ifs at hindex
    have hindex' := (List.getElem?_eq_some_iff.mp hindex).1
    have hnonneg : (0 : ℤ) ≤ (pattern.length : ℤ) * scan.width := by positivity
    omega
  obtain ⟨positions, hpositions, hholds, -⟩ :=
    exists_traceLoop true hfinds hmatrix hch hcolumn hle hlast' hfuel
  rw [List.take_of_length_le (List.length_cons ▸ le_rfl)] at hholds
  exact ⟨hbest, positions, hpositions, hholds⟩

theorem exists_fzfFuzzyMatchV2 (hne : pattern ≠ [])
    (hsub : pattern.Sublist (text.map u.foldCase)) (hfits : Fits (exactScores u text pattern)) :
    ∃ score positions, fzfFuzzyMatchV2 u int16 text pattern = some (score, positions) ∧
      0 < score ∧ Holds (text.map u.foldCase) pattern positions := by
  cases pattern with
  | nil => exact absurd rfl hne
  | cons first pattern =>
    rw [fzfFuzzyMatchV2]
    rw [exactScores] at hfits
    cases hscan : scanText u text (first :: pattern) with
    | none => exact absurd hsub (scanText_eq_none hscan)
    | some scan =>
      obtain ⟨hfinds, -⟩ := finds_of_scanText hscan
      rw [hscan] at hfits
      dsimp only at hfits ⊢
      have hlength := hfinds.occurs.length_eq
      rw [List.length_cons] at hlength
      rw [if_neg (not_not.mpr hlength)]
      by_cases hpattern : pattern = []
      · subst hpattern
        rw [if_pos rfl]
        obtain ⟨firstIndexOf, hindex, rfl⟩ := Option.map_eq_some_iff.mp hscan
        obtain ⟨hpos, hholds⟩ := singleLoop_spec (0, 0)
          (List.map_fst_zip (by
            rw [List.length_drop, List.length_drop, hfinds.length_bonuses]))
          (hfinds.bonuses_bounds _) (fun h => absurd h (lt_irrefl _))
          (.inr ((asciiFuzzyIndex_eq_some hindex).subset List.mem_cons_self))
        exact ⟨_, _, rfl, hpos, .cons hholds .nil, List.pairwise_singleton _ _⟩
      · rw [if_neg hpattern, matrixRows_int16 hfinds hfits]
        obtain ⟨hpos, positions, hpositions, hholds⟩ :=
          exists_walk hfinds (isMatrix_matrixRows hfinds)
        rw [hpositions]
        exact ⟨_, positions, rfl, hpos, hholds⟩

end IntelligentTerminal.Fzf
