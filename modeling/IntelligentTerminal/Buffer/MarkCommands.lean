import IntelligentTerminal.Buffer.MarkExtents

/-!
# The commands between marks

The text that `Commands` gives for a prompt is that of the first group of adjacent command runs from
its row to the row of the next prompt. When the first such group is in the row of the next prompt,
or goes on there, both prompts have it.

Source: `src/buffer/out/textBuffer.cpp`, lines 3147-3197 and 3328-3430.
-/

namespace IntelligentTerminal.Buffer

open MarkScan (kinds)

/-- Some columns of a row. -/
structure ColumnSpan where
  y : ℤ
  columnBegin : ℤ
  columnEnd : ℤ
deriving DecidableEq

/-- A cell is among the columns. -/
def ColumnSpan.Covers (span : ColumnSpan) (p : Point) : Prop :=
  p.y = span.y ∧ span.columnBegin ≤ p.x ∧ p.x < span.columnEnd

/-- No cell is in both. -/
def SpansApart (l r : List ColumnSpan) : Prop :=
  ∀ p, ¬ ((∃ span ∈ l, span.Covers p) ∧ ∃ span ∈ r, span.Covers p)

namespace TextBuffer

variable {b : TextBuffer} {β γ : Type} {x y : ℤ} {count : ℕ} {run : MarkKind × ColumnSpan}

/-- The columns that `_commandForRow` reads. -/
def commandSpans (b : TextBuffer) (u : ℕ × ℕ) : List ColumnSpan :=
  b.commandRows (fun y x nextX => [⟨y, x, nextX⟩]) false (u.2 + 1 - u.1) u.1 .prompt []

/-- The text in some columns. -/
def spansText (b : TextBuffer) (spans : List ColumnSpan) : List WChar :=
  spans.flatMap fun span => (b.row span.y).getTextBetween span.columnBegin span.columnEnd

/-! ### What is collected -/

theorem commandRow_flatMap (f : β → List γ) (read : ℤ → ℤ → List β) (cursorX : Option ℤ) (x : ℤ)
    (runs : List (Run TextAttribute)) (lastMarkKind : MarkKind) (commandBuilder : List β) :
    commandRow (fun x nextX => (read x nextX).flatMap f) cursorX x runs lastMarkKind
        (commandBuilder.flatMap f) =
      ((commandRow read cursorX x runs lastMarkKind commandBuilder).1.flatMap f,
        (commandRow read cursorX x runs lastMarkKind commandBuilder).2) := by
  induction runs generalizing x lastMarkKind commandBuilder with
  | nil => rfl
  | cons run runs ih =>
    rw [commandRow, commandRow]
    simp only
    split_ifs
    · rfl
    · rw [List.flatMap_append]
    · rfl
    · rw [← List.flatMap_append, ih]
    · rw [ih]

theorem commandRows_flatMap (count : ℕ) (f : β → List γ) (read : ℤ → ℤ → ℤ → List β) (clipAtCursor : Bool)
    (lastMarkKind : MarkKind) (commandBuilder : List β) :
    b.commandRows (fun y x nextX => (read y x nextX).flatMap f) clipAtCursor count y lastMarkKind
        (commandBuilder.flatMap f) =
      (b.commandRows read clipAtCursor count y lastMarkKind commandBuilder).flatMap f := by
  induction count generalizing y lastMarkKind commandBuilder with
  | zero => rfl
  | succ count ih =>
    rw [commandRows, commandRows]
    simp only [commandRow_flatMap]
    split_ifs <;> simp only [ih]

theorem commandForRow_eq (b : TextBuffer) (u : ℕ × ℕ) :
    b.commandForRow u.1 u.2 = b.spansText (b.commandSpans u) := by
  have h := commandRows_flatMap (b := b) (y := u.1) (u.2 + 1 - u.1)
    (fun span : ColumnSpan => (b.row span.y).getTextBetween span.columnBegin span.columnEnd)
    (fun y x nextX => [⟨y, x, nextX⟩]) false .prompt []
  simp only [List.flatMap_cons, List.flatMap_nil, List.append_nil] at h
  exact h

/-- The runs of a row, by their kind and their columns. -/
def located (y : ℤ) : ℤ → List (Run TextAttribute) → List (MarkKind × ColumnSpan)
  | _, [] => []
  | x, run :: runs =>
    (run.value.markKind, ⟨y, x, x + run.length⟩) :: located y (x + run.length) runs

/-- The runs of `count` rows from `y` on. -/
def locatedRows (b : TextBuffer) : ℕ → ℤ → List (MarkKind × ColumnSpan)
  | 0, _ => []
  | count + 1, y => located y 0 (b.row y).runs ++ b.locatedRows count (y + 1)

/-- It is a run of command text. -/
def isCommand (run : MarkKind × ColumnSpan) : Bool := run.1 = .command

/-- What is still to be collected from some runs, when the last one was of a given kind. -/
def remaining (lastMarkKind : MarkKind) (runs : List (MarkKind × ColumnSpan)) :
    List (MarkKind × ColumnSpan) :=
  if lastMarkKind = .command then runs.takeWhile isCommand else firstGroup isCommand runs

theorem commandRow_spec (y x : ℤ) (runs : List (Run TextAttribute)) (lastMarkKind : MarkKind)
    (commandBuilder : List ColumnSpan) (rest : List (MarkKind × ColumnSpan)) :
    commandBuilder ++ (remaining lastMarkKind (located y x runs ++ rest)).map Prod.snd =
      (commandRow (fun x nextX => [⟨y, x, nextX⟩]) none x runs lastMarkKind commandBuilder).1 ++
        if (commandRow (fun x nextX => [⟨y, x, nextX⟩]) none x runs lastMarkKind
            commandBuilder).2.2 then []
        else (remaining (commandRow (fun x nextX => [⟨y, x, nextX⟩]) none x runs lastMarkKind
            commandBuilder).2.1 rest).map Prod.snd := by
  induction runs generalizing x lastMarkKind commandBuilder with
  | nil => rfl
  | cons run runs ih =>
    rw [located, List.cons_append, commandRow]
    simp only [Option.elim_none, reduceCtorEq, if_false]
    by_cases hkind : run.value.markKind = .command
    · -- a command run is collected
      have hgo : (decide (run.value.markKind ≠ lastMarkKind) &&
          decide (lastMarkKind = .command)) = false := by
        rw [hkind, Bool.and_eq_false_iff, decide_eq_false_iff_not, decide_eq_false_iff_not, not_not,
          eq_comm]
        exact em _
      have hhead : isCommand (run.value.markKind, ⟨y, x, x + run.length⟩) = true :=
        decide_eq_true hkind
      have hstep : remaining lastMarkKind ((run.value.markKind, ⟨y, x, x + run.length⟩) ::
          (located y (x + run.length) runs ++ rest)) =
          (run.value.markKind, ⟨y, x, x + run.length⟩) ::
            remaining run.value.markKind (located y (x + run.length) runs ++ rest) := by
        rw [remaining, remaining, if_pos hkind, List.takeWhile_cons_of_pos hhead,
          firstGroup_cons_of_pos hhead, ite_self]
      rw [hstep, hgo, if_neg Bool.false_ne_true, if_pos hkind, ← ih, List.map_cons,
        List.append_assoc]
      rfl
    · have hhead : isCommand (run.value.markKind, ⟨y, x, x + run.length⟩) = false :=
        decide_eq_false hkind
      by_cases hlast : lastMarkKind = .command
      · -- the group is over
        have hstop : (decide (run.value.markKind ≠ lastMarkKind) &&
            decide (lastMarkKind = .command)) = true := by
          rw [hlast]
          simpa using hkind
        rw [hstop, remaining, if_pos hlast, List.takeWhile_cons_of_neg
          (by rw [hhead]; exact Bool.false_ne_true)]
        rfl
      · have hgo : (decide (run.value.markKind ≠ lastMarkKind) &&
            decide (lastMarkKind = .command)) = false := by
          rw [decide_eq_false hlast, Bool.and_false]
        have hstep : remaining lastMarkKind ((run.value.markKind, ⟨y, x, x + run.length⟩) ::
            (located y (x + run.length) runs ++ rest)) =
            remaining run.value.markKind (located y (x + run.length) runs ++ rest) := by
          rw [remaining, remaining, if_neg hlast, if_neg hkind, firstGroup_cons_of_neg hhead]
        rw [hstep, hgo, if_neg Bool.false_ne_true, if_neg hkind, ← ih]

theorem commandRows_spec (lastMarkKind : MarkKind) (commandBuilder : List ColumnSpan) :
    b.commandRows (fun y x nextX => [⟨y, x, nextX⟩]) false count y lastMarkKind commandBuilder =
      commandBuilder ++ (remaining lastMarkKind (b.locatedRows count y)).map Prod.snd := by
  induction count generalizing y lastMarkKind commandBuilder with
  | zero => simp [commandRows, locatedRows, remaining, firstGroup]
  | succ count ih =>
    rw [commandRows, locatedRows, commandRow_spec]
    simp only [Bool.false_and, Bool.false_eq_true, if_false, ih]
    split_ifs
    · rw [List.append_nil]
    · rfl

theorem commandSpans_eq (b : TextBuffer) (u : ℕ × ℕ) :
    b.commandSpans u =
      (firstGroup isCommand (b.locatedRows (u.2 + 1 - u.1) u.1)).map Prod.snd := by
  rw [commandSpans, commandRows_spec, List.nil_append, remaining, if_neg (by rintro ⟨⟩)]

/-! ### Which columns are read twice -/

theorem map_fst_located (y x : ℤ) (runs : List (Run TextAttribute)) :
    (located y x runs).map Prod.fst = kinds runs := by
  induction runs generalizing x with
  | nil => rfl
  | cons run runs ih => rw [located, List.map_cons, ih, MarkScan.kinds_cons]

theorem map_fst_locatedRows : (b.locatedRows count y).map Prod.fst = b.rowsKinds count y := by
  induction count generalizing y with
  | zero => rfl
  | succ count ih => rw [locatedRows, List.map_append, map_fst_located, ih, rowsKinds]

theorem of_mem_located {runs : List (Run TextAttribute)}
    (hpos : ∀ r ∈ runs, 0 < r.length) (h : run ∈ located y x runs) :
    run.2.y = y ∧ run.2.columnBegin < run.2.columnEnd := by
  induction runs generalizing x with
  | nil => exact absurd h List.not_mem_nil
  | cons r runs ih =>
    rcases List.mem_cons.mp h with rfl | h
    · have := hpos r List.mem_cons_self
      exact ⟨rfl, by dsimp only; omega⟩
    · exact ih (fun c hc => hpos c (List.mem_cons_of_mem _ hc)) h

theorem of_mem_locatedRows (h : run ∈ b.locatedRows count y) :
    y ≤ run.2.y ∧ run.2.y < y + count := by
  induction count generalizing y with
  | zero => exact absurd h List.not_mem_nil
  | succ count ih =>
    rcases List.mem_append.mp h with h | h
    · have := (of_mem_located (b.row y).length_runs_pos h).1
      omega
    · have := ih h
      omega

theorem locatedRows_add (j : ℕ) :
    b.locatedRows (j + count) y = b.locatedRows j y ++ b.locatedRows count (y + j) := by
  induction j generalizing y with
  | zero => rw [Nat.zero_add, Int.natCast_zero, Int.add_zero]; rfl
  | succ j ih =>
    rw [Nat.succ_add, locatedRows, ih, locatedRows, Nat.cast_succ, List.append_assoc, Int.add_assoc,
      Int.add_comm 1]

theorem of_mem_commandSpans {u : ℕ × ℕ} {span : ColumnSpan} (h : span ∈ b.commandSpans u) :
    (u.1 : ℤ) ≤ span.y ∧ span.y ≤ u.2 := by
  rw [commandSpans_eq] at h
  obtain ⟨run, hrun, rfl⟩ := List.mem_map.mp h
  have := of_mem_locatedRows (mem_firstGroup hrun).1
  omega

/-- The command of the row `r` ends before the row `n` has its first one. -/
def CommandEndsBefore (b : TextBuffer) (r n : ℕ) : Prop :=
  .command ∉ kinds (b.row n).runs ∨
    Followed (· = .command) (· ≠ .command) (b.kindsBefore .command r n)

theorem spansApart_iff {r n n' : ℕ} (hrn : r < n) (hn : n ≤ n') :
    SpansApart (b.commandSpans (r, n)) (b.commandSpans (n, n')) ↔ b.CommandEndsBefore r n := by
  have hpos := (b.row n).length_runs_pos
  have hrow : ∀ run ∈ located n 0 (b.row n).runs, run.2.y = n ∧
      run.2.columnBegin < run.2.columnEnd := fun run h => of_mem_located hpos h
  have hupper : b.locatedRows (n + 1 - r) r =
      b.locatedRows (n - r) r ++ located n 0 (b.row n).runs := by
    rw [show n + 1 - r = n - r + 1 by omega, locatedRows_add,
      show (r : ℤ) + (n - r : ℕ) = n by omega, locatedRows, locatedRows, List.append_nil]
  have hlower : b.locatedRows (n' + 1 - n) n =
      located n 0 (b.row n).runs ++ b.locatedRows (n' - n) (n + 1) := by
    rw [show n' + 1 - n = n' - n + 1 by omega, locatedRows]
  have hfirst := commandSpans_eq b (r, n)
  have hnext := commandSpans_eq b (n, n')
  dsimp only at hfirst hnext
  rw [hupper] at hfirst
  rw [hlower] at hnext
  have hkinds : b.kindsBefore .command r n = (b.locatedRows (n - r) r ++
      (located n 0 (b.row n).runs).takeWhile fun run => !isCommand run).map Prod.fst := by
    rw [kindsBefore, List.map_append, map_fst_locatedRows, ← map_fst_located n 0,
      List.takeWhile_map]
    refine congrArg _ (congrArg _ (congrArg (List.takeWhile · _) ?_))
    funext run
    exact decide_not
  have hover : Followed (· = .command) (· ≠ .command) (b.kindsBefore .command r n) ↔
      Followed (fun run => isCommand run = true) (fun run => isCommand run = false)
        (b.locatedRows (n - r) r ++
          (located n 0 (b.row n).runs).takeWhile fun run => !isCommand run) := by
    rw [hkinds, followed_map]
    simp only [isCommand, decide_eq_true_eq, decide_eq_false_iff_not, ne_eq]
  unfold CommandEndsBefore
  rw [hover]
  by_cases hcommand : ∃ run ∈ located n 0 (b.row n).runs, isCommand run = true
  · have hmem : .command ∈ kinds (b.row n).runs := by
      obtain ⟨run, hrun, hkind⟩ := hcommand
      rw [← map_fst_located n 0]
      exact List.mem_map.mpr ⟨run, hrun, of_decide_eq_true hkind⟩
    rw [or_iff_right (not_not.mpr hmem)]
    obtain ⟨first, rest, hsplit, hkind⟩ := exists_eq_takeWhile_append hcommand
    have hfirstMem : first ∈ located n 0 (b.row n).runs := by
      rw [hsplit]
      exact List.mem_append_right _ List.mem_cons_self
    obtain ⟨hy, hlt⟩ := hrow first hfirstMem
    generalize htake : ((located n 0 (b.row n).runs).takeWhile fun run => !isCommand run) = pre at *
    have hpre : ∀ run ∈ pre, isCommand run = false := by
      intro run hrun
      rw [← htake] at hrun
      simpa using List.mem_takeWhile_imp hrun
    constructor
    · intro hapart
      by_contra hnot
      -- both commands have the first command run of the row
      refine hapart ⟨first.2.columnBegin, n⟩ ⟨⟨first.2, ?_, hy.symm, le_rfl, hlt⟩,
        first.2, ?_, hy.symm, le_rfl, hlt⟩
      · rw [hfirst, hsplit, ← List.append_assoc]
        exact List.mem_map_of_mem (mem_firstGroup_of_not_followed hnot hkind rest)
      · rw [hnext, hsplit, List.append_assoc, List.cons_append]
        refine List.mem_map_of_mem (mem_firstGroup_of_not_followed (fun h => ?_) hkind _)
        refine h (List.pairwise_of_forall_mem_list fun run hrun _ _ htrue => ?_)
        exact Bool.noConfusion (htrue.symm.trans (hpre run hrun))
    · rintro hfollowed p ⟨⟨span, hspan, hcovers⟩, span', hspan', hcovers'⟩
      rw [hfirst, hsplit, ← List.append_assoc, firstGroup_append_of_followed hfollowed] at hspan
      obtain ⟨run, hrun, rfl⟩ := List.mem_map.mp hspan
      obtain ⟨hmem, htrue⟩ := mem_firstGroup hrun
      have habove : run.2.y < n := by
        rcases List.mem_append.mp hmem with hmem | hmem
        · have := of_mem_locatedRows hmem
          omega
        · rw [hpre run hmem] at htrue
          exact absurd htrue Bool.false_ne_true
      have hbelow := (of_mem_commandSpans hspan').1
      have hp := hcovers.1
      have hp' := hcovers'.1
      dsimp only at hbelow
      omega
  · have hnone : .command ∉ kinds (b.row n).runs := by
      intro hmem
      rw [← map_fst_located n 0] at hmem
      obtain ⟨run, hrun, hkind⟩ := List.mem_map.mp hmem
      exact hcommand ⟨run, hrun, decide_eq_true hkind⟩
    refine iff_of_true ?_ (.inl hnone)
    rintro p ⟨⟨span, hspan, hcovers⟩, span', hspan', hcovers'⟩
    rw [hnext] at hspan'
    obtain ⟨run, hrun, rfl⟩ := List.mem_map.mp hspan'
    obtain ⟨hmem, htrue⟩ := mem_firstGroup hrun
    have hbelow : (n : ℤ) + 1 ≤ run.2.y := by
      rcases List.mem_append.mp hmem with hmem | hmem
      · exact absurd ⟨run, hmem, htrue⟩ hcommand
      · exact (of_mem_locatedRows hmem).1
    have habove := (of_mem_commandSpans hspan).2
    have hp := hcovers.1
    have hp' := hcovers'.1
    dsimp only at habove
    omega

/-! ### Marks and commands from below -/

/-- The rows of the marks that `GetMarkExtents` returns, each with the row that its scan goes to. -/
def markIntervals (b : TextBuffer) (limit : ℕ) : List (ℕ × ℕ) :=
  (intervals b.estimateOffsetOfLastCommittedRow
    ((List.range (b.estimateOffsetOfLastCommittedRow + 1)).filter b.isMarkRow)).rtake limit

/-- The rows that `Commands` goes through, each with the row that its scan goes to. -/
def commandIntervals (b : TextBuffer) : List (ℕ × ℕ) :=
  intervals b.estimateOffsetOfLastCommittedRow
    ((List.range (b.estimateOffsetOfLastCommittedRow + 1)).filter fun (y : ℕ) =>
      (b.row y).promptData.isSome)

theorem markExtentsLoop_eq (limit : ℕ) (lastPromptY : ℕ) {marks : List MarkExtents}
    (hmarks : marks.length < limit) :
    b.markExtentsLoop limit count lastPromptY marks =
      (marks ++ ((intervals lastPromptY ((List.range count).filter b.isMarkRow)).map fun u =>
        b.scrollMarkExtentForRow u.1 u.2).reverse).take limit := by
  induction count generalizing lastPromptY marks with
  | zero =>
    rw [markExtentsLoop, List.range_zero, List.filter_nil, intervals, List.map_nil,
      List.reverse_nil, List.append_nil, List.take_of_length_le hmarks.le]
  | succ count ih =>
    rw [markExtentsLoop, List.range_succ, List.filter_append]
    by_cases hrow : b.isMarkRow count = true
    · have hlast : [count].filter b.isMarkRow = [count] := by rw [List.filter_singleton, hrow]; rfl
      rw [if_pos hrow, hlast, intervals_concat, List.map_append, List.reverse_append,
        ← List.append_assoc]
      simp only [List.map_cons, List.map_nil, List.reverse_singleton]
      split_ifs with hlimit
      · have hlen : (marks ++ [b.scrollMarkExtentForRow count lastPromptY]).length = limit := by
          rw [List.length_append, List.length_singleton] at hlimit ⊢
          omega
        rw [← hlen, List.take_left]
      · exact ih count (Nat.lt_of_not_le hlimit)
    · have hlast : [count].filter b.isMarkRow = [] := by
        rw [List.filter_singleton, Bool.eq_false_iff.mpr hrow]
        rfl
      rw [if_neg hrow, hlast, List.append_nil, ih lastPromptY hmarks]

theorem getMarkExtents_eq (b : TextBuffer) (limit : ℕ) :
    b.getMarkExtents limit =
      (b.markIntervals limit).map fun u => b.scrollMarkExtentForRow u.1 u.2 := by
  unfold getMarkExtents markIntervals
  split_ifs with hzero
  · rw [hzero, List.rtake_zero, List.map_nil]
  · simp only
    rw [markExtentsLoop_eq limit _ (by rw [List.length_nil]; omega), List.nil_append,
      List.rtake_eq_reverse_take_reverse, List.map_reverse, List.map_take, List.map_reverse]

theorem commandsLoop_eq (lastPromptY : ℕ) (commands : List (List WChar)) :
    b.commandsLoop count lastPromptY commands =
      commands ++ (((intervals lastPromptY ((List.range count).filter fun (y : ℕ) =>
        (b.row y).promptData.isSome)).map fun u => b.commandForRow u.1 u.2).reverse.filter
          fun command => !command.isEmpty) := by
  induction count generalizing lastPromptY commands with
  | zero =>
    rw [commandsLoop, List.range_zero, List.filter_nil, intervals, List.map_nil, List.reverse_nil,
      List.filter_nil, List.append_nil]
  | succ count ih =>
    rw [commandsLoop, List.range_succ, List.filter_append]
    by_cases hrow : (b.row count).promptData.isSome = true
    · have hlast : ([count].filter fun (y : ℕ) => (b.row y).promptData.isSome) = [count] := by
        rw [List.filter_singleton, hrow]
        rfl
      rw [if_pos hrow, hlast, intervals_concat, List.map_append, List.reverse_append,
        List.filter_append, ih]
      simp only [List.map_cons, List.map_nil, List.reverse_singleton, List.filter_singleton]
      cases (b.commandForRow count lastPromptY).isEmpty <;> simp
    · have hlast : ([count].filter fun (y : ℕ) => (b.row y).promptData.isSome) = [] := by
        rw [List.filter_singleton, Bool.eq_false_iff.mpr hrow]
        rfl
      rw [if_neg hrow, hlast, List.append_nil, ih]

theorem commands_eq (b : TextBuffer) :
    b.commands = (b.commandIntervals.map fun u => b.spansText (b.commandSpans u)).filter
      fun command => !command.isEmpty := by
  unfold commands commandIntervals
  simp only [← commandForRow_eq]
  rw [commandsLoop_eq, List.nil_append, ← List.filter_reverse, List.reverse_reverse]

/-! ### Marks that are apart -/

/-- The marks that `GetMarkExtents` returns are in order and do not overlap, and no column is a part
of the commands of two prompts. -/
structure MarksApart (b : TextBuffer) (limit : ℕ) : Prop where
  ordered : ∀ m ∈ b.getMarkExtents limit, m.Ordered
  topDown : (b.getMarkExtents limit).IsChain fun m n =>
    m.start ≤ n.start ∧ m.getExtent.2 ≤ n.start
  commands : b.commandIntervals.Pairwise fun u v =>
    SpansApart (b.commandSpans u) (b.commandSpans v)

theorem ordered_scrollMarkExtentForRow (b : TextBuffer) (r n : ℕ) :
    (b.scrollMarkExtentForRow r n).Ordered :=
  (scanRows_inOrder _ (b.inOrder_markScan r)).1.ordered

/-- What `GetMarkExtents` and `Commands` return is apart if and only if each mark ends before the
next one and each command ends before the next prompt has its own. -/
theorem marksApart_iff (b : TextBuffer) (limit : ℕ) :
    b.commands = (b.commandIntervals.map fun u => b.spansText (b.commandSpans u)).filter
        (fun command => !command.isEmpty) ∧
      (b.MarksApart limit ↔
        ((b.markIntervals limit).IsChain fun u v => b.MarkEndsBefore u.1 v.1 v.2) ∧
          b.commandIntervals.IsChain fun u v => b.CommandEndsBefore u.1 v.1) := by
  have hsorted : ∀ keep : ℕ → Bool,
      ((List.range (b.estimateOffsetOfLastCommittedRow + 1)).filter keep).Pairwise (· < ·) :=
    fun keep => List.pairwise_lt_range.filter keep
  have hbound : ∀ keep : ℕ → Bool,
      ∀ y ∈ (List.range (b.estimateOffsetOfLastCommittedRow + 1)).filter keep,
        y ≤ b.estimateOffsetOfLastCommittedRow := fun keep y hy =>
    Nat.lt_succ_iff.mp (List.mem_range.mp (List.mem_of_mem_filter hy))
  have hmarks : (b.markIntervals limit).IsChain fun u v => u.2 = v.1 ∧ u.1 < v.1 ∧ v.1 ≤ v.2 :=
    (isChain_intervals (hsorted _) (hbound _)).suffix (List.drop_suffix _ _)
  have hcommands : b.commandIntervals.IsChain fun u v => u.2 = v.1 ∧ u.1 < v.1 ∧ v.1 ≤ v.2 :=
    isChain_intervals (hsorted _) (hbound _)
  have hends : ((b.getMarkExtents limit).IsChain fun m n =>
      m.start ≤ n.start ∧ m.getExtent.2 ≤ n.start) ↔
        (b.markIntervals limit).IsChain fun u v => b.MarkEndsBefore u.1 v.1 v.2 := by
    rw [getMarkExtents_eq, List.isChain_map]
    refine isChain_iff_of_isChain hmarks ?_
    rintro ⟨r, n⟩ ⟨-, n'⟩ ⟨rfl, hrn, hn⟩
    rw [← getExtent_le_start_iff hrn hn]
    exact and_iff_right_of_imp fun hle =>
      (ordered_scrollMarkExtentForRow b r n).start_le_getExtent.trans hle
  have hspans : (b.commandIntervals.Pairwise fun u v =>
      SpansApart (b.commandSpans u) (b.commandSpans v)) ↔
        b.commandIntervals.IsChain fun u v => b.CommandEndsBefore u.1 v.1 := by
    rw [commandIntervals, pairwise_intervals_iff (hsorted _)]
    · refine isChain_iff_of_isChain hcommands ?_
      rintro ⟨r, n⟩ ⟨-, n'⟩ ⟨rfl, hrn, hn⟩
      exact spansApart_iff hrn hn
    · -- the rows of prompts that are not neighbours are apart
      rintro u v huv p ⟨⟨span, hspan, hcovers⟩, span', hspan', hcovers'⟩
      have habove := (of_mem_commandSpans hspan).2
      have hbelow := (of_mem_commandSpans hspan').1
      have hp := hcovers.1
      have hp' := hcovers'.1
      omega
  refine ⟨commands_eq b, fun h => ⟨hends.mp h.topDown, hspans.mp h.commands⟩, fun h => ?_⟩
  refine ⟨fun m hm => ?_, hends.mpr h.1, hspans.mpr h.2⟩
  rw [getMarkExtents_eq] at hm
  obtain ⟨u, -, rfl⟩ := List.mem_map.mp hm
  exact ordered_scrollMarkExtentForRow b u.1 u.2

/-- A prompt `$` that was left empty, and under it a prompt `$` with the command `d`. -/
def unansweredPrompt : TextBuffer where
  rows := [ROW.construct 2 {},
    { ROW.construct 2 {} with
      chars := [0x24, space]
      attr := [{ markKind := .prompt }, { markKind := .prompt }]
      promptData := some { category := .prompt } },
    { ROW.construct 2 {} with
      chars := [0x24, 0x64]
      attr := [{ markKind := .prompt }, { markKind := .command }]
      promptData := some { category := .prompt } }]
  width := 2
  height := 2

theorem not_marksApart_unansweredPrompt :
    ¬ unansweredPrompt.MarksApart (2 ^ 64 - 1) ∧ unansweredPrompt.commands = [[0x64], [0x64]] := by
  refine ⟨fun h => ?_, by decide⟩
  have hmarks : unansweredPrompt.getMarkExtents (2 ^ 64 - 1) =
      [{ data := { category := .prompt }, start := ⟨0, 0⟩, end_ := ⟨1, 1⟩,
          commandEnd := some ⟨2, 1⟩ },
        { data := { category := .prompt }, start := ⟨0, 1⟩, end_ := ⟨1, 1⟩,
          commandEnd := some ⟨2, 1⟩ }] := by decide
  have htop := h.topDown
  rw [hmarks, List.isChain_pair] at htop
  exact absurd htop.2 (by decide)

end TextBuffer

end IntelligentTerminal.Buffer
