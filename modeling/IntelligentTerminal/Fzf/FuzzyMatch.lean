import IntelligentTerminal.Fzf.TermMatch

/-!
# The match of a pattern

`Match` succeeds for terms whose scores fit if and only if each of them is a subsequence of the text,
and the runs that it returns cover the positions of all terms. A term of 1365 hyphens scores `32768`
against itself, which is `-32768` in 16 bits, and is not found.
-/

namespace IntelligentTerminal.Fzf

/-! ### What is claimed of a match -/

/-- The parts of a pattern between its spaces. -/
def words (patternStr : List Char) : List (List Char) := (patternStr.splitOn ' ').filter (· ≠ [])

/-- The number of UTF-16 code units of the first code points of a text. -/
def offset (text : List Char) (i : ℕ) : ℕ := ((text.take i).map width).sum

/-- The runs are in order, begin and end between code points, and cover the positions. -/
structure Covers (text : List Char) (positions : Set ℕ) (runs : List TextRun) : Prop where
  ordered : runs.Pairwise fun a b => a.End < b.Start
  within : ∀ run ∈ runs, run.Start ≤ run.End ∧ run.End < offset text text.length
  whole : ∀ run ∈ runs, ∃ i j, run.Start = offset text i ∧ run.End + 1 = offset text j
  covers : ∀ x < text.length, x ∈ positions ↔
    ∃ run ∈ runs, run.Start ≤ offset text x ∧ offset text x ≤ run.End

structure MatchesTerms (u : Unicode) (text patternStr : List Char) : Prop where
  /-- Every index is in range. -/
  defined : ∃ result, matchPattern u int16 text (parsePattern u patternStr) = some result
  /-- A pattern is found if and only if its terms are subsequences. -/
  succeeds : (∃ result, matchPattern u int16 text (parsePattern u patternStr) = some (some result)) ↔
    ∀ word ∈ words patternStr, (word.map u.foldCase).Sublist (text.map u.foldCase)
  /-- The walk back finds a position for each character. -/
  traces : ∀ word ∈ words patternStr, (word.map u.foldCase).Sublist (text.map u.foldCase) →
    ∃ score positions, fzfFuzzyMatchV2 u int16 text (word.map u.foldCase) = some (score, positions) ∧
      Holds (text.map u.foldCase) (word.map u.foldCase) positions
  /-- The runs cover the positions of all terms. -/
  runs : ∀ result, matchPattern u int16 text (parsePattern u patternStr) = some (some result) →
    Covers text {x | ∃ word ∈ words patternStr, ∃ score positions,
      fzfFuzzyMatchV2 u int16 text (word.map u.foldCase) = some (score, positions) ∧
        x ∈ positions} result.runs

variable {u : Unicode} {text rest word : List Char} {ch : Char} {patternStr : List Char}
  {positions : List ℕ}

/-! ### Patterns -/

theorem words_cons_space (rest : List Char) : words (' ' :: rest) = words rest := by
  have hsplit := List.splitOn_append_cons_self [] rest (a := ' ')
  rw [List.nil_append] at hsplit
  rw [words, hsplit, List.splitOn_nil]
  rfl

theorem words_dropWhile (text : List Char) : words (text.dropWhile (· = ' ')) = words text := by
  induction text with
  | nil => rfl
  | cons ch text ih =>
    by_cases hch : ch = ' '
    · have hspace : decide (ch = ' ') = true := decide_eq_true hch
      rw [List.dropWhile_cons_of_pos (p := fun c => decide (c = ' ')) hspace, ih, hch,
        words_cons_space]
    · rw [List.dropWhile_cons_of_neg (by simpa using hch)]

theorem words_takeWhile (hch : ch ≠ ' ') : words (ch :: rest) =
    (ch :: rest).takeWhile (· ≠ ' ') :: words (rest.dropWhile (· ≠ ' ')) := by
  have hdrop : (ch :: rest).dropWhile (· ≠ ' ') = rest.dropWhile (· ≠ ' ') :=
    List.dropWhile_cons_of_pos (by simpa using hch)
  have hsplit := List.takeWhile_append_dropWhile (p := fun c => decide (c ≠ ' ')) (l := ch :: rest)
  have hne : (ch :: rest).takeWhile (· ≠ ' ') ≠ [] := by
    rw [List.takeWhile_cons_of_pos (by simpa using hch)]
    exact List.cons_ne_nil _ _
  have hword : ' ' ∉ (ch :: rest).takeWhile (· ≠ ' ') := fun hmem =>
    absurd (List.mem_takeWhile_imp hmem) (by simp)
  rw [hdrop] at hsplit
  conv_lhs => rw [← hsplit]
  generalize (ch :: rest).takeWhile (· ≠ ' ') = word at hne hword ⊢
  cases htail : rest.dropWhile (· ≠ ' ') with
  | nil =>
    rw [List.append_nil, words, List.splitOn_eq_singleton hword, List.filter_cons_of_pos (by simpa)]
    rfl
  | cons c tail =>
    obtain rfl : c = ' ' := by
      have hhead := List.head?_dropWhile_not (fun c => decide (c ≠ ' ')) rest
      rw [htail] at hhead
      simpa using hhead
    rw [words_cons_space, words, List.splitOn_append_cons_self, List.splitOn_eq_singleton hword,
      List.singleton_append, List.filter_cons_of_pos (by simpa)]
    rfl

theorem parsePattern_eq (u : Unicode) (patternStr : List Char) :
    parsePattern u patternStr = (words patternStr).map (·.map u.foldCase) := by
  induction hlength : patternStr.length using Nat.strongRecOn generalizing patternStr with
  | ind n ih =>
    rw [parsePattern]
    split
    · rename_i hdrop
      rw [← words_dropWhile, hdrop]
      rfl
    · rename_i ch rest hdrop
      have hch : ch ≠ ' ' := by
        have hhead := List.head?_dropWhile_not (fun c => decide (c = ' ')) patternStr
        rw [hdrop] at hhead
        simpa using hhead
      have hsuffix := (List.dropWhile_suffix (fun c => decide (c = ' ')) (l := patternStr)).length_le
      have hrest := (List.dropWhile_suffix (fun c => decide (c ≠ ' ')) (l := rest)).length_le
      rw [hdrop, List.length_cons] at hsuffix
      rw [← words_dropWhile patternStr, hdrop, words_takeWhile hch, List.map_cons,
        ih _ (by omega) _ rfl]

theorem ne_nil_of_mem_words (h : word ∈ words patternStr) : word ≠ [] :=
  of_decide_eq_true (List.mem_filter.mp h).2

/-! ### Runs -/

/-- The run of an interval of code points. -/
def toRun (text : List Char) (interval : ℕ × ℕ) : TextRun :=
  ⟨offset text interval.1, offset text interval.2 - 1⟩

theorem offset_succ {i : ℕ} (hi : i < text.length) :
    offset text (i + 1) = offset text i + width text[i] := by
  rw [offset, offset, List.take_add_one, List.getElem?_eq_getElem hi, List.map_append,
    List.sum_append]
  rfl

theorem offset_lt {i j : ℕ} (hlt : i < j) (hj : j ≤ text.length) :
    offset text i < offset text j := by
  induction j, hlt using Nat.le_induction with
  | base =>
    rw [offset_succ hj, width]
    split_ifs <;> omega
  | succ j _ ih =>
    rw [offset_succ hj]
    exact Nat.lt_add_right _ (ih (Nat.le_of_succ_le hj))

theorem offset_lt_iff {i j : ℕ} (hi : i ≤ text.length) (hj : j ≤ text.length) :
    offset text i < offset text j ↔ i < j := by
  refine ⟨fun hlt => ?_, fun hlt => offset_lt hlt hj⟩
  by_contra hge
  obtain heq | hlt' := (not_lt.mp hge).eq_or_lt
  · exact absurd hlt (by rw [heq]; exact lt_irrefl _)
  · exact absurd (offset_lt hlt' hi) (Nat.lt_asymm hlt)

theorem exists_intervals {i : ℕ} (start : Option ℕ)
    (hrest : rest = text.drop i) (hi : i ≤ text.length) (hsorted : positions.Pairwise (· < ·))
    (hpositions : ∀ x ∈ positions, i ≤ x ∧ x < text.length) (hstart : ∀ a ∈ start, a < i) :
    ∃ intervals : List (ℕ × ℕ),
      runsLoop i (offset text i) (start.map (offset text)) positions rest =
        intervals.map (toRun text) ∧
      intervals.Pairwise (fun I J => I.2 < J.1) ∧
      (∀ I ∈ intervals, start.getD i ≤ I.1 ∧ I.1 < I.2 ∧ I.2 ≤ text.length) ∧
      ∀ x, (∃ I ∈ intervals, I.1 ≤ x ∧ x < I.2) ↔ x ∈ positions ∨ ∃ a ∈ start, a ≤ x ∧ x < i := by
  induction rest generalizing i positions start with
  | nil =>
    have hlength : text.length ≤ i := List.drop_eq_nil_iff.mp hrest.symm
    obtain rfl : positions = [] := List.eq_nil_iff_forall_not_mem.mpr fun x hx => by
      have := hpositions x hx
      omega
    cases start with
    | none => exact ⟨[], rfl, .nil, by simp, by simp⟩
    | some a =>
      have ha : a < i := hstart a rfl
      exact ⟨[(a, i)], rfl, List.pairwise_singleton _ _, by simp [ha, hi], by simp⟩
  | cons cp rest ih =>
    have hlt : i < text.length := by
      by_contra hge
      rw [List.drop_eq_nil_of_le (not_lt.mp hge)] at hrest
      exact absurd hrest (by simp)
    rw [List.drop_eq_getElem_cons hlt] at hrest
    obtain ⟨rfl, htail⟩ := List.cons.inj hrest
    rw [runsLoop.eq_def]
    dsimp only
    rw [← offset_succ hlt]
    by_cases hhead : positions.head? = some i
    · cases positions with
      | nil => exact absurd hhead (by simp)
      | cons x positions =>
        obtain rfl : x = i := Option.some.inj hhead
        obtain ⟨hbelow, hsorted⟩ := List.pairwise_cons.mp hsorted
        have hbegin : (start.map (offset text)).getD (offset text x) =
            offset text (start.getD x) := by
          cases start <;> rfl
        have hlt' : start.getD x < x + 1 := by
          cases start with
          | none => exact Nat.lt_succ_self x
          | some a => exact Nat.lt_succ_of_lt (hstart a rfl)
        obtain ⟨intervals, hruns, hpairwise, hbounds, hcover⟩ :=
          ih (some (start.getD x)) htail hlt hsorted
            (fun y hy => ⟨hbelow y hy, (hpositions y (List.mem_cons_of_mem _ hy)).2⟩)
            (fun a ha => Option.mem_some.mp ha ▸ hlt')
        rw [if_pos hhead, hbegin, List.tail_cons]
        refine ⟨intervals, hruns, hpairwise, hbounds, fun y => ?_⟩
        rw [hcover, List.mem_cons]
        cases start with
        | none =>
          have hint : (x ≤ y ∧ y < x + 1) ↔ y = x := by omega
          simp only [Option.mem_some, exists_eq_left', Option.not_mem_none, false_and,
            exists_false, or_false]
          rw [Option.getD_none, hint]
          exact or_comm
        | some a =>
          have ha : a < x := hstart a rfl
          have hint : (a ≤ y ∧ y < x + 1) ↔ y = x ∨ a ≤ y ∧ y < x := by omega
          simp only [Option.mem_some, exists_eq_left']
          rw [Option.getD_some, hint, or_left_comm, or_assoc]
    · have habove : ∀ x ∈ positions, i + 1 ≤ x ∧ x < text.length := by
        intro x hx
        refine ⟨Nat.lt_of_le_of_ne (hpositions x hx).1 ?_, (hpositions x hx).2⟩
        rintro rfl
        cases positions with
        | nil => exact absurd hx List.not_mem_nil
        | cons y positions =>
          obtain rfl | hx := List.mem_cons.mp hx
          · exact hhead rfl
          · have hy := (hpositions y List.mem_cons_self).1
            have hlt' := List.rel_of_pairwise_cons hsorted hx
            omega
      obtain ⟨intervals, hruns, hpairwise, hbounds, hcover⟩ :=
        ih none htail hlt hsorted habove (by simp)
      rw [if_neg hhead]
      cases start with
      | none =>
        refine ⟨intervals, hruns, hpairwise, fun I hI => ?_, fun x => by rw [hcover]; simp⟩
        exact ⟨Nat.le_of_succ_le (hbounds I hI).1, (hbounds I hI).2⟩
      | some a =>
        have ha : a < i := hstart a rfl
        refine ⟨(a, i) :: intervals, ?_, List.pairwise_cons.mpr ⟨fun J hJ => (hbounds J hJ).1,
          hpairwise⟩, List.forall_mem_cons.mpr ⟨⟨le_rfl, ha, hi⟩, fun I hI => ?_⟩, fun x => ?_⟩
        · rw [List.map_cons, ← hruns]
          rfl
        · have hI' := hbounds I hI
          rw [Option.getD_none] at hI'
          exact ⟨by rw [Option.getD_some]; omega, hI'.2⟩
        · have hx := hcover x
          simp only [Option.not_mem_none, false_and, exists_false, or_false] at hx
          rw [List.exists_mem_cons_iff, hx]
          simp only [Option.mem_some, exists_eq_left']
          exact or_comm

theorem covers_runsLoop (hsorted : positions.Pairwise (· < ·))
    (hpositions : ∀ x ∈ positions, x < text.length) :
    Covers text {x | x ∈ positions} (runsLoop 0 0 none positions text) := by
  obtain ⟨intervals, hruns, hpairwise, hbounds, hcover⟩ :=
    exists_intervals none (List.drop_zero (l := text)).symm (Nat.zero_le _) hsorted
      (fun x hx => ⟨Nat.zero_le x, hpositions x hx⟩) (by simp)
  replace hruns : runsLoop 0 0 none positions text = intervals.map (toRun text) := hruns
  have hpos : ∀ I ∈ intervals, offset text I.1 < offset text I.2 := fun I hI =>
    offset_lt (hbounds I hI).2.1 (hbounds I hI).2.2
  rw [hruns]
  refine ⟨List.pairwise_map.mpr (hpairwise.imp_of_mem fun {I J} hI hJ hlt => ?_), ?_, ?_, ?_⟩
  · have hless : offset text I.2 < offset text J.1 :=
      offset_lt hlt ((hbounds J hJ).2.1.le.trans (hbounds J hJ).2.2)
    exact lt_of_le_of_lt (Nat.sub_le _ _) hless
  · refine List.forall_mem_map.mpr fun I hI => ?_
    have hlt := hpos I hI
    have hle : offset text I.2 ≤ offset text text.length := by
      obtain heq | hless := (hbounds I hI).2.2.eq_or_lt
      · rw [heq]
      · exact (offset_lt hless le_rfl).le
    exact ⟨by dsimp only [toRun]; omega, by dsimp only [toRun]; omega⟩
  · refine List.forall_mem_map.mpr fun I hI => ⟨I.1, I.2, rfl, ?_⟩
    have hlt := hpos I hI
    dsimp only [toRun]
    omega
  · intro x hx
    have hmem : x ∈ positions ↔ ∃ I ∈ intervals, I.1 ≤ x ∧ x < I.2 := by
      rw [hcover]
      simp
    rw [Set.mem_ofPred_eq, hmem]
    simp only [List.mem_map, exists_exists_and_eq_and]
    refine exists_congr fun I => and_congr_right fun hI => ?_
    have hI' := hbounds I hI
    have hlt := hpos I hI
    have hlow := offset_lt_iff hx.le (by omega : I.1 ≤ text.length)
    have hhigh := offset_lt_iff hx.le hI'.2.2
    dsimp only [toRun]
    omega

/-! ### The terms of a pattern -/

section Terms

variable {terms : List (List Char)} (hne : ∀ term ∈ terms, term ≠ [])
  (hfits : ∀ term ∈ terms, Fits (exactScores u text term))
include hne hfits

theorem exists_termsLoop (hsub : ∀ term ∈ terms, term.Sublist (text.map u.foldCase))
    (totalScore : ℤ) (allUtf32Pos : List ℕ) :
    ∃ score positions,
      termsLoop u int16 text totalScore allUtf32Pos terms = some (some (score, positions)) ∧
      ∀ x, x ∈ positions ↔ x ∈ allUtf32Pos ∨ ∃ term ∈ terms, ∃ score termPos,
        fzfFuzzyMatchV2 u int16 text term = some (score, termPos) ∧ x ∈ termPos := by
  induction terms generalizing totalScore allUtf32Pos with
  | nil => exact ⟨_, _, rfl, by simp⟩
  | cons term terms ih =>
    obtain ⟨hterm, hne⟩ := List.forall_mem_cons.mp hne
    obtain ⟨hfit, hfits⟩ := List.forall_mem_cons.mp hfits
    obtain ⟨hfirst, hsub⟩ := List.forall_mem_cons.mp hsub
    obtain ⟨score, termPos, hfuzzy, hpos, -⟩ := exists_fzfFuzzyMatchV2 hterm hfirst hfit
    obtain ⟨score', positions, hloop, hmem⟩ :=
      ih hne hfits hsub (totalScore + score) (allUtf32Pos ++ termPos)
    refine ⟨score', positions, ?_, fun x => ?_⟩
    · rw [termsLoop, hfuzzy]
      dsimp only
      rw [if_neg (not_le.mpr hpos), hloop]
    · rw [hmem, List.mem_append, List.exists_mem_cons_iff, or_assoc]
      refine or_congr_right (or_congr_left ⟨fun hx => ⟨score, termPos, hfuzzy, hx⟩, ?_⟩)
      rintro ⟨_, _, hfuzzy', hx⟩
      rw [hfuzzy] at hfuzzy'
      obtain ⟨-, rfl⟩ := Prod.mk.inj (Option.some.inj hfuzzy')
      exact hx

theorem termsLoop_eq_none (hsub : ¬ ∀ term ∈ terms, term.Sublist (text.map u.foldCase))
    (totalScore : ℤ) (allUtf32Pos : List ℕ) :
    termsLoop u int16 text totalScore allUtf32Pos terms = some none := by
  induction terms generalizing totalScore allUtf32Pos with
  | nil => exact absurd (fun _ h => absurd h List.not_mem_nil) hsub
  | cons term terms ih =>
    obtain ⟨hterm, hne⟩ := List.forall_mem_cons.mp hne
    obtain ⟨hfit, hfits⟩ := List.forall_mem_cons.mp hfits
    by_cases hfirst : term.Sublist (text.map u.foldCase)
    · obtain ⟨score, termPos, hfuzzy, hpos, -⟩ := exists_fzfFuzzyMatchV2 hterm hfirst hfit
      rw [termsLoop, hfuzzy]
      dsimp only
      rw [if_neg (not_le.mpr hpos)]
      exact ih hne hfits (fun hall => hsub (List.forall_mem_cons.mpr ⟨hfirst, hall⟩)) _ _
    · rw [termsLoop, fzfFuzzyMatchV2_of_not_sublist hterm hfirst]
      rfl

end Terms

theorem pairwise_lt_dedup_mergeSort (positions : List ℕ) :
    (positions.mergeSort (· ≤ ·)).dedup.Pairwise (· < ·) := by
  have hsorted : (positions.mergeSort (· ≤ ·)).Pairwise (· ≤ ·) :=
    List.pairwise_mergeSort' (· ≤ ·) positions
  have hle := hsorted.sublist (List.dedup_sublist _)
  exact (hle.and (List.nodup_dedup _)).imp fun h => lt_of_le_of_ne h.1 h.2

theorem mem_dedup_mergeSort {x : ℕ} :
    x ∈ (positions.mergeSort (· ≤ ·)).dedup ↔ x ∈ positions :=
  List.mem_dedup.trans List.mem_mergeSort

theorem Holds.lt_length {foldedText pattern : List Char}
    (h : Holds foldedText pattern positions) : ∀ x ∈ positions, x < foldedText.length := by
  intro x hx
  obtain ⟨i, hi, rfl⟩ := List.getElem_of_mem hx
  have hi' : i < pattern.reverse.length := h.holds.length_eq ▸ hi
  exact (List.getElem?_eq_some_iff.mp ((List.forall₂_iff_get.mp h.holds).2 i hi hi')).1

/-! ### The match -/

theorem matchPattern_map (terms : List (List Char)) (hne : terms ≠ []) :
    matchPattern u int16 text terms = (termsLoop u int16 text 0 [] terms).map fun result =>
      result.map fun (score, positions) =>
        ⟨score, runsLoop 0 0 none (positions.mergeSort (· ≤ ·)).dedup text⟩ := by
  rw [matchPattern, if_neg (by simpa using hne)]

/-- `Match` finds terms whose scores fit. -/
theorem matchesTerms_of_fits (u : Unicode) (text patternStr : List Char)
    (h : ∀ word ∈ words patternStr, Fits (exactScores u text (word.map u.foldCase))) :
    MatchesTerms u text patternStr := by
  have hne : ∀ term ∈ (words patternStr).map (·.map u.foldCase), term ≠ [] :=
    List.forall_mem_map.mpr fun word hword => by
      simpa using ne_nil_of_mem_words hword
  have hfits : ∀ term ∈ (words patternStr).map (·.map u.foldCase),
      Fits (exactScores u text term) := List.forall_mem_map.mpr h
  have htraces : ∀ word ∈ words patternStr, (word.map u.foldCase).Sublist (text.map u.foldCase) →
      ∃ score positions, fzfFuzzyMatchV2 u int16 text (word.map u.foldCase) =
        some (score, positions) ∧ Holds (text.map u.foldCase) (word.map u.foldCase) positions := by
    intro word hword hsub
    obtain ⟨score, positions, hfuzzy, -, hholds⟩ :=
      exists_fzfFuzzyMatchV2 (hne _ (List.mem_map_of_mem hword)) hsub (h word hword)
    exact ⟨score, positions, hfuzzy, hholds⟩
  rcases eq_or_ne (words patternStr) [] with hwords | hwords
  · have hmatch : matchPattern u int16 text (parsePattern u patternStr) = some (some ⟨0, []⟩) := by
      rw [parsePattern_eq, hwords]
      rfl
    refine ⟨⟨_, hmatch⟩, iff_of_true ⟨_, hmatch⟩ (by simp [hwords]), htraces, fun result hresult => ?_⟩
    rw [hmatch] at hresult
    obtain rfl := Option.some.inj (Option.some.inj hresult)
    exact ⟨.nil, by simp, by simp, by simp [hwords]⟩
  · have hterms : (words patternStr).map (·.map u.foldCase) ≠ [] := by simpa using hwords
    by_cases hsub : ∀ term ∈ (words patternStr).map (·.map u.foldCase),
        term.Sublist (text.map u.foldCase)
    · obtain ⟨score, positions, hloop, hmem⟩ := exists_termsLoop hne hfits hsub 0 []
      have hmatch : matchPattern u int16 text (parsePattern u patternStr) = some (some
          ⟨score, runsLoop 0 0 none (positions.mergeSort (· ≤ ·)).dedup text⟩) := by
        rw [parsePattern_eq, matchPattern_map _ hterms, hloop]
        rfl
      refine ⟨⟨_, hmatch⟩, iff_of_true ⟨_, hmatch⟩ (List.forall_mem_map.mp hsub), htraces,
        fun result hresult => ?_⟩
      rw [hmatch] at hresult
      obtain rfl := Option.some.inj (Option.some.inj hresult)
      have hset : {x | x ∈ (positions.mergeSort (· ≤ ·)).dedup} = {x | ∃ word ∈ words patternStr,
          ∃ score positions, fzfFuzzyMatchV2 u int16 text (word.map u.foldCase) =
            some (score, positions) ∧ x ∈ positions} := by
        ext x
        rw [Set.mem_ofPred_eq, Set.mem_ofPred_eq, mem_dedup_mergeSort, hmem]
        simp
      have hlt : ∀ x ∈ (positions.mergeSort (· ≤ ·)).dedup, x < text.length := by
        intro x hx
        obtain hx | ⟨term, hterm, score, termPos, hfuzzy, hx⟩ :=
          (hmem x).mp (mem_dedup_mergeSort.mp hx)
        · exact absurd hx List.not_mem_nil
        · obtain ⟨score', termPos', hfuzzy', -, hholds⟩ :=
            exists_fzfFuzzyMatchV2 (hne term hterm) (hsub term hterm) (hfits term hterm)
          rw [hfuzzy] at hfuzzy'
          obtain ⟨-, rfl⟩ := Prod.mk.inj (Option.some.inj hfuzzy')
          exact (hholds.lt_length x hx).trans_eq (List.length_map _)
      rw [← hset]
      exact covers_runsLoop (pairwise_lt_dedup_mergeSort positions) hlt
    · have hmatch : matchPattern u int16 text (parsePattern u patternStr) = some none := by
        rw [parsePattern_eq, matchPattern_map _ hterms, termsLoop_eq_none hne hfits hsub]
        rfl
      refine ⟨⟨_, hmatch⟩, iff_of_false (by simp [hmatch]) fun hall =>
        hsub (List.forall_mem_map.mpr hall), htraces, fun result hresult => ?_⟩
      exact absurd (hmatch.symm.trans hresult) (by simp)

/-- The letters of ASCII. -/
def ascii : Unicode where
  foldCase := Char.toLower
  charType ch :=
    if ch.isUpper then 1 else if ch.isLower then 2 else if ch.isDigit then 9
    else if ch = ' ' then 12 else 19

theorem matchesTerms_split_pane : MatchesTerms ascii "Split pane".toList "sp  PE".toList := by
  refine matchesTerms_of_fits ascii _ _ fun word hword => fits_exactScores ?_
  have hwords : words "sp  PE".toList = ["sp".toList, "PE".toList] := by decide
  rw [hwords] at hword
  fin_cases hword <;> decide

/-! ### A score that overflows -/

/-- What the first pass finds in hyphens, for a pattern that is as long as the text. -/
def hyphensScan (n : ℕ) : Scan where
  firstIndexOf := 0
  bonuses := List.replicate (n + 1) 8
  firstOccurrences := List.range' 0 (n + 1)
  lastIndex := n

theorem occurrenceLoop_replicate (ch : Char) (n column lastIndex : ℕ) :
    occurrenceLoop ch (List.replicate (n + 1) ch) column lastIndex (List.replicate (n + 1) ch) =
      (List.range' column (n + 1), column + n) := by
  induction n generalizing column lastIndex with
  | zero => simp [occurrenceLoop, List.range']
  | succ n ih =>
    rw [List.replicate_succ, occurrenceLoop, if_pos rfl]
    dsimp only
    rw [show (List.replicate (n + 1) ch).headD ch = ch from rfl, ih, Nat.add_assoc, Nat.add_comm 1 n]
    rfl

theorem bonusLoop_replicate (n : ℕ) :
    bonusLoop ascii .nonWord (List.replicate n '-') = List.replicate n 8 := by
  induction n with
  | zero => rfl
  | succ n ih =>
    have hclass : classOf ascii '-' = .nonWord := by decide
    rw [List.replicate_succ, bonusLoop, hclass, ih, List.replicate_succ]
    rfl

theorem map_replicate_hyphen (n : ℕ) :
    (List.replicate n '-').map ascii.foldCase = List.replicate n '-' := by
  rw [List.map_replicate]
  rfl

theorem scanText_hyphens (n : ℕ) :
    scanText ascii (List.replicate (n + 1) '-') (List.replicate (n + 1) '-') =
      some (hyphensScan n) := by
  have hindex : asciiFuzzyIndex (List.replicate (n + 1) '-') (List.replicate (n + 1) '-') =
      some 0 := by
    have hskip : trySkip (List.replicate (n + 1) '-') '-' 0 = some 0 := by
      rw [trySkip, List.drop_zero, List.replicate_succ, List.findIdx?_cons, if_pos (by decide)]
      rfl
    have hloop : skipLoop (List.replicate (n + 1) '-') (List.replicate n '-') 1 = true := by
      rw [skipLoop_iff, List.drop_replicate, Nat.add_sub_cancel]
    have hcons : asciiFuzzyIndex (List.replicate (n + 1) '-') ('-' :: List.replicate n '-') =
        some 0 := by
      rw [asciiFuzzyIndex, hskip]
      exact if_pos hloop
    exact hcons
  have hoccurrences := occurrenceLoop_replicate '-' n 0 0
  rw [scanText, map_replicate_hyphen, hindex, Option.map_some]
  dsimp only
  rw [List.drop_zero, bonusLoop_replicate, show (List.replicate (n + 1) '-').headD default = '-' from rfl, hoccurrences, Nat.zero_add]
  rfl

section Hyphens

variable {n p : ℕ} {previous : List Cell}

theorem nextRow_hyphens (hp : p < n) {score : ℤ} (hscore : previous[p]? = some ⟨score, 1⟩)
    (hnonneg : 0 ≤ score) (hle : score ≤ 32744) :
    ∃ rest : List Cell, rest.length ≤ n - (p + 1) ∧
      (nextRow int16 (hyphensScan n) (List.replicate (n + 1) '-') previous '-' (p + 1)).drop (p + 1) =
        ⟨max 0 (int16 (score + 24)), 1⟩ :: rest := by
  have hdrop : previous.drop p = ⟨score, 1⟩ :: previous.drop (p + 1) := by
    obtain ⟨hlt, hget⟩ := List.getElem?_eq_some_iff.mp hscore
    rw [List.drop_eq_getElem_cons hlt, hget]
  have htext : ((List.replicate (n + 1) '-').drop (p + 1)).take (n - (p + 1) + 1) =
      '-' :: List.replicate (n - (p + 1)) '-' := by
    rw [List.drop_replicate, List.take_replicate, ← List.replicate_succ]
    congr 1
    omega
  have hbonus : (List.replicate (n + 1) (8 : ℤ)).getD (p + 1) 0 = 8 := by
    rw [List.getD_eq_getElem _ _ (by rw [List.length_replicate]; omega), List.getElem_replicate]
  have hdiagonal : int16 (score + scoreMatch) = score + 16 := by
    rw [scoreMatch]
    exact int16_eq (by omega) (by omega)
  have hcell : matchCell int16 (List.replicate (n + 1) 8) (p + 1) ⟨score, 1⟩ (-3) =
      ⟨int16 (score + 24), 1⟩ := by
    rw [matchCell]
    dsimp only
    rw [hbonus, hdiagonal, if_pos rfl, if_neg (fun h => h.1 rfl : ¬ ((8 : ℤ) ≠ boundaryBonus ∧ _)),
      if_neg (by omega), add_assoc]
    rfl
  have hgap : int16 (0 + gapScore false) = -3 := by decide
  have hmax : max 0 (max (int16 (score + 24)) (-3)) = max 0 (int16 (score + 24)) := by omega
  rw [nextRow, show (hyphensScan n).origin = 0 from rfl, Nat.sub_zero, Nat.add_sub_cancel,
    List.drop_left' List.length_replicate, show (hyphensScan n).lastIndex = n from rfl,
    show (hyphensScan n).bonuses = List.replicate (n + 1) 8 from rfl, htext, hdrop,
    List.zip_cons_cons, rowLoop_cons]
  dsimp only
  rw [hgap, rowCell, if_pos rfl, hcell]
  dsimp only
  rw [hmax]
  refine ⟨_, ?_, rfl⟩
  rw [length_rowLoop, List.length_zip, List.length_replicate]
  exact min_le_left _ _

theorem rowsLoop_hyphens {rows : ℕ} (hn : n = 1364) (hrows : p + rows + 1 = n)
    (hscore : previous[p]? = some ⟨32 + 24 * p, 1⟩) (row : List Cell) :
    ∀ cell ∈ ((rowsLoop int16 (hyphensScan n) (List.replicate (n + 1) '-') previous
      ((List.replicate (rows + 1) '-').zip (List.range' (p + 1) (rows + 1)))).getLastD row).drop n,
      cell.score ≤ 0 := by
  induction rows generalizing p previous row with
  | zero =>
    obtain ⟨rest, hrest, hrow⟩ :=
      nextRow_hyphens (n := n) (p := p) (by omega) hscore (by omega) (by omega)
    obtain rfl : rest = [] := List.eq_nil_of_length_eq_zero (by omega)
    obtain rfl : n = p + 1 := hrows.symm
    obtain rfl : p = 1363 := Nat.succ.inj hn
    intro cell hcell
    rw [List.replicate_one, List.range'_one, List.zip_cons_cons, List.zip_nil_left,
      rowsLoop_cons, List.getLastD_cons, rowsLoop, List.getLastD_nil, hrow] at hcell
    obtain rfl := List.mem_singleton.mp hcell
    decide
  | succ rows ih =>
    obtain ⟨rest, -, hrow⟩ :=
      nextRow_hyphens (n := n) (p := p) (by omega) hscore (by omega) (by omega)
    have hnext : (nextRow int16 (hyphensScan n) (List.replicate (n + 1) '-') previous '-'
        (p + 1))[p + 1]? = some ⟨32 + 24 * ((p + 1 : ℕ) : ℤ), 1⟩ := by
      have hhead := congrArg (·[0]?) hrow
      rw [List.getElem?_drop, Nat.add_zero, List.getElem?_cons_zero,
        int16_eq (by omega) (by omega), max_eq_right (by omega)] at hhead
      rw [hhead, Nat.cast_succ, mul_add, mul_one, add_assoc]
    have hlast := ih (by omega) hnext (nextRow int16 (hyphensScan n) (List.replicate (n + 1) '-')
      previous '-' (p + 1))
    rw [List.replicate_succ (n := rows + 1), List.range'_succ (n := rows + 1), List.zip_cons_cons,
      rowsLoop_cons, List.getLastD_cons]
    exact hlast

theorem maxLoop_eq_of_le {row : List Cell} (column : ℕ) (best : ℤ × ℕ)
    (hrow : ∀ cell ∈ row, cell.score ≤ best.1) : maxLoop column best row = best := by
  induction row generalizing column with
  | nil => rfl
  | cons cell row ih =>
    obtain ⟨hcell, hrow⟩ := List.forall_mem_cons.mp hrow
    rw [maxLoop, if_neg (not_lt.mpr hcell), ih _ hrow]

end Hyphens

theorem fzfFuzzyMatchV2_hyphens {n : ℕ} (hn : n = 1364) {result : ℤ × List ℕ}
    (h : fzfFuzzyMatchV2 ascii int16 (List.replicate (n + 1) '-') (List.replicate (n + 1) '-') =
      some result) : result.1 ≤ 0 := by
  have hfirst : (((initialLoop int16 '-' 0 false (((List.replicate (n + 1) '-').drop 0).zip
      ((hyphensScan n).bonuses.drop 0))).drop 0).take (n + 1))[0]? = some ⟨32, 1⟩ := by
    rw [List.drop_zero, List.drop_zero, List.drop_zero, show (hyphensScan n).bonuses =
      (8 :: List.replicate n 8) from rfl, List.replicate_succ, List.zip_cons_cons, initialLoop,
      if_pos rfl]
    rfl
  have hscan := scanText_hyphens n
  rw [List.replicate_succ] at h hscan
  rw [fzfFuzzyMatchV2, hscan] at h
  dsimp only at h
  rw [if_neg (by simp [hyphensScan]), if_neg (by simp [hn]), Option.map_eq_some_iff] at h
  obtain ⟨positions, -, rfl⟩ := h
  have hcolumn : (hyphensScan n).firstOccurrences.getLastD 0 = n := by
    rw [show (hyphensScan n).firstOccurrences = List.range' 0 (n + 1) from rfl,
      List.range'_concat, List.getLastD_concat]
    omega
  rw [hcolumn]
  dsimp only
  rw [matrixRows, List.getLastD_cons]
  obtain ⟨rows, rfl⟩ : ∃ rows, n = rows + 1 := ⟨1363, hn⟩
  have hlast := rowsLoop_hyphens (p := 0) hn (Nat.zero_add (rows + 1)) hfirst
  rw [← List.replicate_succ, map_replicate_hyphen]
  exact (congrArg Prod.fst (maxLoop_eq_of_le _ (0, 0) (hlast _))).le

theorem words_hyphens (n : ℕ) :
    words (List.replicate (n + 1) '-') = [List.replicate (n + 1) '-'] := by
  have hspace : ' ' ∉ List.replicate (n + 1) '-' := fun hmem =>
    absurd (List.eq_of_mem_replicate hmem) (by decide)
  rw [words, List.splitOn_eq_singleton hspace, List.filter_cons_of_pos (by simp)]
  rfl

theorem not_matchesTerms_replicate {n : ℕ} (hn : n = 1364) :
    ¬ MatchesTerms ascii (List.replicate (n + 1) '-') (List.replicate (n + 1) '-') := by
  intro h
  have hwords := words_hyphens n
  obtain ⟨result, hresult⟩ := h.succeeds.mpr fun word hword => by
    rw [hwords] at hword
    rw [List.mem_singleton.mp hword]
  rw [parsePattern_eq, hwords, List.map_singleton, map_replicate_hyphen,
    matchPattern_map _ (List.cons_ne_nil _ _), termsLoop] at hresult
  cases hfuzzy : fzfFuzzyMatchV2 ascii int16 (List.replicate (n + 1) '-')
      (List.replicate (n + 1) '-') with
  | none =>
    rw [hfuzzy] at hresult
    exact Option.some_ne_none _ hresult.symm
  | some found =>
    rw [hfuzzy] at hresult
    dsimp only at hresult
    rw [if_pos (fzfFuzzyMatchV2_hyphens hn hfuzzy)] at hresult
    exact Option.some_ne_none _ (Option.some.inj hresult).symm

/-- A pattern of 1365 hyphens is not found in itself. -/
theorem not_matchesTerms_hyphens :
    ¬ MatchesTerms ascii (List.replicate 1365 '-') (List.replicate 1365 '-') :=
  not_matchesTerms_replicate (n := 1364) rfl

end IntelligentTerminal.Fzf
