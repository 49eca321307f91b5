import IntelligentTerminal.Buffer.Marks

/-!
# Overlapping marks

The scan for a mark includes the row of the next one. It ends at the prompt there only when it has
seen a command or an output before: a prompt that nobody answered goes on into the next mark, and
`Commands` gives its neighbour's command for it.

Source: `src/buffer/out/textBuffer.cpp`, lines 3147-3197, 3223-3326 and 3328-3430.
-/

namespace IntelligentTerminal.Buffer

/-! ### What a scan finds -/

/-- The ends of a mark are in the order of the text. -/
structure MarkExtents.Ordered (m : MarkExtents) : Prop where
  start_le : m.start ≤ m.end_
  end_le : ∀ c ∈ m.commandEnd, m.end_ ≤ c
  commandEnd_le : ∀ o ∈ m.outputEnd, m.end_ ≤ o ∧ ∀ c ∈ m.commandEnd, c ≤ o

theorem MarkExtents.Ordered.start_le_getExtent {m : MarkExtents} (h : m.Ordered) :
    m.start ≤ m.getExtent.2 := by
  refine h.start_le.trans ?_
  unfold MarkExtents.getExtent
  cases houtput : m.outputEnd with
  | some o => exact (h.commandEnd_le o houtput).1
  | none =>
    cases hcommand : m.commandEnd with
    | some c => exact h.end_le c hcommand
    | none => exact le_rfl

namespace MarkScan

/-- What a scan has found before the position `p`, by the last thing that started. -/
inductive InOrder : MarkScan → Point → Prop
  | outside {data : ScrollbarData} {last p : Point} (hzero : ⟨0, 0⟩ ≤ last) (hlast : last ≤ p) :
    InOrder { mark := { data }, lastMarkedText := last } p
  | prompt {data : ScrollbarData} {start end_ p : Point} (hstart : start < end_) (hend : end_ ≤ p) :
    InOrder { mark := { data, start, end_ }, startedPrompt := true, lastMarkedText := end_ } p
  | command {data : ScrollbarData} {start end_ commandEnd last p : Point} (hstart : start < end_)
      (hend : end_ ≤ commandEnd) (hcommand : commandEnd ≤ p) :
    InOrder
      { mark := { data, start, end_, commandEnd := some commandEnd }, startedPrompt := true,
        startedCommand := true, lastMarkedText := last } p
  | output {data : ScrollbarData} {start end_ commandEnd outputEnd last p : Point}
      (hstart : start < end_) (hend : end_ ≤ commandEnd) (hcommand : commandEnd ≤ outputEnd)
      (houtput : outputEnd ≤ p) :
    InOrder
      { mark := { data, start, end_, commandEnd := some commandEnd, outputEnd := some outputEnd },
        startedPrompt := true, startedCommand := true, startedOutput := true,
        lastMarkedText := last } p

/-- The end of the mark, if the scan ended here. -/
def reach (s : MarkScan) : Point := s.finish.getExtent.2

variable {s : MarkScan} {p q : Point} {kind : MarkKind}

theorem InOrder.mono (h : s.InOrder p) (hpq : p ≤ q) : s.InOrder q := by
  cases h with
  | outside hzero hlast => exact .outside hzero (hlast.trans hpq)
  | prompt hstart hend => exact .prompt hstart (hend.trans hpq)
  | command hstart hend hcommand => exact .command hstart hend (hcommand.trans hpq)
  | output hstart hend hcommand houtput => exact .output hstart hend hcommand (houtput.trans hpq)

theorem InOrder.reach_le (h : s.InOrder p) : s.reach ≤ p := by
  cases h with
  | outside hzero hlast => exact hlast
  | prompt hstart hend => exact hend
  | command hstart hend hcommand => exact hcommand
  | output hstart hend hcommand houtput => exact houtput

theorem InOrder.ordered (h : s.InOrder p) : s.finish.Ordered := by
  cases h with
  | outside hzero hlast => exact ⟨hzero, by rintro c ⟨⟩, by rintro o ⟨⟩⟩
  | prompt hstart hend => exact ⟨hstart.le, by rintro c ⟨⟩, by rintro o ⟨⟩⟩
  | command hstart hend hcommand =>
    refine ⟨hstart.le, ?_, by rintro o ⟨⟩⟩
    rintro c ⟨⟩
    exact hend
  | output hstart hend hcommand houtput =>
    refine ⟨hstart.le, ?_, ?_⟩
    · rintro c ⟨⟩
      exact hend
    · rintro o ⟨⟩
      refine ⟨hend.trans hcommand, ?_⟩
      rintro c ⟨⟩
      exact hcommand

theorem InOrder.visit (h : s.InOrder p) (hpq : p < q)
    (hkind : kind = .prompt → s.startedCommand = false) :
    (s.visit kind p q).InOrder q ∧ (kind ≠ .none → (s.visit kind p q).reach = q) := by
  cases h with
  | outside hzero hlast =>
    have hq : (⟨0, 0⟩ : Point) ≤ q := (hzero.trans hlast).trans hpq.le
    cases kind with
    | none => exact ⟨.outside hzero (hlast.trans hpq.le), fun h => absurd rfl h⟩
    | prompt => exact ⟨.prompt hpq le_rfl, fun _ => rfl⟩
    | command => exact ⟨.outside hq le_rfl, fun _ => rfl⟩
    | output => exact ⟨.outside hq le_rfl, fun _ => rfl⟩
  | prompt hstart hend =>
    cases kind with
    | none => exact ⟨.prompt hstart (hend.trans hpq.le), fun h => absurd rfl h⟩
    | prompt => exact ⟨.prompt (hstart.trans_le (hend.trans hpq.le)) le_rfl, fun _ => rfl⟩
    | command => exact ⟨.command hstart (hend.trans hpq.le) le_rfl, fun _ => rfl⟩
    | output => exact ⟨.output hstart le_rfl (hend.trans hpq.le) le_rfl, fun _ => rfl⟩
  | command hstart hend hcommand =>
    cases kind with
    | none => exact ⟨.command hstart hend (hcommand.trans hpq.le), fun h => absurd rfl h⟩
    | prompt => exact Bool.noConfusion (hkind rfl)
    | command => exact ⟨.command hstart (hend.trans (hcommand.trans hpq.le)) le_rfl, fun _ => rfl⟩
    | output => exact ⟨.output hstart hend (hcommand.trans hpq.le) le_rfl, fun _ => rfl⟩
  | output hstart hend hcommand houtput =>
    have hq := houtput.trans hpq.le
    cases kind with
    | none => exact ⟨.output hstart hend hcommand hq, fun h => absurd rfl h⟩
    | prompt => exact Bool.noConfusion (hkind rfl)
    | command => exact ⟨.output hstart hend (hcommand.trans hq) le_rfl, fun _ => rfl⟩
    | output => exact ⟨.output hstart hend (hcommand.trans hq) le_rfl, fun _ => rfl⟩

/-- An answer to a prompt. -/
def Answer (kind : MarkKind) : Prop := kind = .command ∨ kind = .output

theorem InOrder.startedPrompt_visit (h : s.InOrder p) (kind : MarkKind) :
    (s.visit kind p q).startedPrompt = true ↔ s.startedPrompt = true ∨ kind = .prompt := by
  cases h <;> cases kind <;> simp [MarkScan.visit, endThisMark]

theorem InOrder.startedCommand_visit (h : s.InOrder p) :
    (s.visit kind p q).startedCommand = true ↔
      s.startedCommand = true ∨ s.startedPrompt = true ∧ Answer kind := by
  cases h <;> cases kind <;> simp [MarkScan.visit, endThisMark, Answer]

theorem InOrder.start_visit (h : s.InOrder p) (kind : MarkKind) :
    (s.visit kind p q).mark.start =
      if s.startedPrompt = false ∧ kind = .prompt then p else s.mark.start := by
  cases h <;> cases kind <;> simp [MarkScan.visit, endThisMark]

theorem InOrder.startedPrompt_of_command (h : s.InOrder p) (hcommand : s.startedCommand = true) :
    s.startedPrompt = true := by
  cases h with
  | outside hzero hlast => exact Bool.noConfusion hcommand
  | prompt hstart hend => rfl
  | command hstart hend hcommand => rfl
  | output hstart hend hcommand houtput => rfl

theorem InOrder.start_of_outside (h : s.InOrder p) (houtside : s.startedPrompt = false) :
    s.mark.start = ⟨0, 0⟩ := by
  cases h with
  | outside hzero hlast => rfl
  | prompt hstart hend => exact Bool.noConfusion houtside
  | command hstart hend hcommand => exact Bool.noConfusion houtside
  | output hstart hend hcommand houtput => exact Bool.noConfusion houtside

theorem InOrder.lastMarkedText (h : s.InOrder p) (hstarted : s.startedCommand = true) :
    InOrder { s with lastMarkedText := q } p := by
  cases h with
  | outside hzero hlast => exact Bool.noConfusion hstarted
  | prompt hstart hend => exact Bool.noConfusion hstarted
  | command hstart hend hcommand => exact .command hstart hend hcommand
  | output hstart hend hcommand houtput => exact .output hstart hend hcommand houtput

theorem reach_lastMarkedText (hcommand : s.startedCommand = true) :
    reach { s with lastMarkedText := q } = s.reach := by
  simp only [reach, finish, hcommand, Bool.not_true, Bool.false_eq_true, if_false]

variable {x y : ℤ} {run : Run TextAttribute} {runs : List (Run TextAttribute)}

theorem InOrder.scanRow_cons (h : s.InOrder p) (y x : ℤ) (run : Run TextAttribute)
    (runs : List (Run TextAttribute)) :
    (run.value.markKind = .prompt ∧ s.startedCommand = true ∧
      scanRow y x (run :: runs) s = { s with lastMarkedText := ⟨x + run.length, y⟩ }) ∨
    ((run.value.markKind = .prompt → s.startedCommand = false) ∧
      scanRow y x (run :: runs) s = scanRow y (x + run.length) runs
        (s.visit run.value.markKind ⟨x, y⟩ ⟨x + run.length, y⟩)) := by
  have hstarted : (s.startedCommand || s.startedOutput) = s.startedCommand := by
    cases h <;> rfl
  rw [MarkScan.scanRow]
  simp only [hstarted]
  by_cases hbreak : run.value.markKind = .prompt ∧ s.startedCommand = true
  · left
    exact ⟨hbreak.1, hbreak.2, by rw [if_pos (by simpa using hbreak)]⟩
  · right
    refine ⟨fun hprompt => ?_, by rw [if_neg (by simpa using hbreak)]⟩
    rw [Bool.eq_false_iff]
    exact fun hcommand => hbreak ⟨hprompt, hcommand⟩

theorem point_lt_of_pos (hpos : 0 < run.length) : (⟨x, y⟩ : Point) < ⟨x + run.length, y⟩ := by
  rw [Point.lt_def]
  dsimp only
  omega

theorem InOrder.scanRow (h : s.InOrder ⟨x, y⟩) (hpos : ∀ run ∈ runs, 0 < run.length) :
    (scanRow y x runs s).InOrder ⟨x + Run.total runs, y⟩ ∧
      s.reach ≤ (MarkScan.scanRow y x runs s).reach := by
  induction runs generalizing x s with
  | nil =>
    rw [Run.total_nil, Int.natCast_zero, Int.add_zero]
    exact ⟨h, le_rfl⟩
  | cons run runs ih =>
    have hlt : (⟨x, y⟩ : Point) < ⟨x + run.length, y⟩ :=
      point_lt_of_pos (hpos run List.mem_cons_self)
    have hend : (⟨x + run.length, y⟩ : Point) ≤ ⟨x + Run.total (run :: runs), y⟩ := by
      rw [Point.le_def, Run.total_cons]
      dsimp only
      omega
    rcases h.scanRow_cons y x run runs with ⟨-, hcommand, heq⟩ | ⟨hkind, heq⟩
    · rw [heq]
      exact ⟨(h.lastMarkedText hcommand).mono (hlt.le.trans hend),
        (reach_lastMarkedText hcommand).ge⟩
    · obtain ⟨hvisit, hreach⟩ := h.visit hlt hkind
      obtain ⟨hrest, hmono⟩ := ih hvisit fun r hr => hpos r (List.mem_cons_of_mem _ hr)
      rw [heq]
      refine ⟨?_, le_trans ?_ hmono⟩
      · rwa [Run.total_cons, Nat.cast_add, ← Int.add_assoc]
      · by_cases hnone : run.value.markKind = .none
        · rw [hnone]
          exact le_rfl
        · rw [hreach hnone]
          exact h.reach_le.trans hlt.le

/-- The kinds of some runs. -/
def kinds (runs : List (Run TextAttribute)) : List MarkKind :=
  runs.map fun run => run.value.markKind

theorem kinds_cons (run : Run TextAttribute) (runs : List (Run TextAttribute)) :
    kinds (run :: runs) = run.value.markKind :: kinds runs := rfl

theorem InOrder.startedCommand_scanRow (h : s.InOrder ⟨x, y⟩)
    (hpos : ∀ run ∈ runs, 0 < run.length) :
    (MarkScan.scanRow y x runs s).startedCommand = true ↔
      s.startedCommand = true ∨ (s.startedPrompt = true ∧ ∃ kind ∈ kinds runs, Answer kind) ∨
        Followed (· = .prompt) Answer (kinds runs) := by
  induction runs generalizing x s with
  | nil => simp [MarkScan.scanRow, kinds, not_followed_nil]
  | cons run runs ih =>
    rcases h.scanRow_cons y x run runs with ⟨-, hcommand, heq⟩ | ⟨hkind, heq⟩
    · rw [heq]
      exact iff_of_true hcommand (.inl hcommand)
    · obtain ⟨hvisit, -⟩ := h.visit (point_lt_of_pos (hpos run List.mem_cons_self)) hkind
      rw [heq, ih hvisit fun r hr => hpos r (List.mem_cons_of_mem _ hr), h.startedCommand_visit,
        h.startedPrompt_visit]
      simp only [kinds_cons, followed_cons, List.mem_cons, or_and_right, exists_or, exists_eq_left,
        and_or_left]
      grind

theorem InOrder.start_scanRow (h : s.InOrder ⟨x, y⟩) (hpos : ∀ run ∈ runs, 0 < run.length) :
    ((MarkScan.scanRow y x runs s).startedPrompt = true ↔
        s.startedPrompt = true ∨ .prompt ∈ kinds runs) ∧
      (s.startedPrompt = true → (MarkScan.scanRow y x runs s).mark.start = s.mark.start) ∧
      (s.startedPrompt = false → .prompt ∈ kinds runs →
        ⟨x, y⟩ ≤ (MarkScan.scanRow y x runs s).mark.start) := by
  induction runs generalizing x s with
  | nil => simp [MarkScan.scanRow, kinds]
  | cons run runs ih =>
    rcases h.scanRow_cons y x run runs with ⟨-, hcommand, heq⟩ | ⟨hkind, heq⟩
    · have hprompt := h.startedPrompt_of_command hcommand
      rw [heq]
      refine ⟨iff_of_true hprompt (.inl hprompt), fun _ => rfl, fun hfalse => ?_⟩
      rw [hprompt] at hfalse
      exact Bool.noConfusion hfalse
    · have hlt : (⟨x, y⟩ : Point) < ⟨x + run.length, y⟩ :=
        point_lt_of_pos (hpos run List.mem_cons_self)
      obtain ⟨hvisit, -⟩ := h.visit hlt hkind
      obtain ⟨hstarted, hsame, hfirst⟩ := ih hvisit fun r hr => hpos r (List.mem_cons_of_mem _ hr)
      have hstart := h.start_visit run.value.markKind (q := ⟨x + run.length, y⟩)
      have hvisited := h.startedPrompt_visit run.value.markKind (q := ⟨x + run.length, y⟩)
      rw [heq]
      refine ⟨?_, fun hprompt => ?_, fun houtside hmem => ?_⟩
      · rw [hstarted, hvisited, kinds_cons, List.mem_cons, or_assoc, @eq_comm _ MarkKind.prompt]
      · rw [hsame (hvisited.mpr (.inl hprompt)), hstart, if_neg (by simp [hprompt])]
      · by_cases hprompt : run.value.markKind = .prompt
        · rw [hsame (hvisited.mpr (.inr hprompt)), hstart, if_pos ⟨houtside, hprompt⟩]
        · have hnot : (s.visit run.value.markKind ⟨x, y⟩ ⟨x + run.length, y⟩).startedPrompt =
              false := by
            rw [Bool.eq_false_iff, Ne, hvisited, houtside]
            tauto
          have hmem' : .prompt ∈ kinds runs := by
            rcases List.mem_cons.mp hmem with heq | hmem
            · exact absurd heq.symm hprompt
            · exact hmem
          exact hlt.le.trans (hfirst hnot hmem')

theorem scanRow_append (y x : ℤ) (s : MarkScan) {pre : List (Run TextAttribute)}
    (hpre : .prompt ∉ kinds pre) (rest : List (Run TextAttribute)) :
    MarkScan.scanRow y x (pre ++ rest) s =
      MarkScan.scanRow y (x + Run.total pre) rest (MarkScan.scanRow y x pre s) := by
  induction pre generalizing x s with
  | nil => rw [List.nil_append, Run.total_nil, Int.natCast_zero, Int.add_zero, MarkScan.scanRow]
  | cons run pre ih =>
    rw [kinds_cons, List.mem_cons, not_or] at hpre
    have hkind : (decide (run.value.markKind = .prompt) &&
        (s.startedCommand || s.startedOutput)) = false := by
      rw [decide_eq_false (Ne.symm hpre.1), Bool.false_and]
    rw [List.cons_append, MarkScan.scanRow, MarkScan.scanRow]
    simp only [hkind, Bool.false_eq_true, if_false]
    rw [ih _ _ hpre.2, Run.total_cons, Nat.cast_add, Int.add_assoc]

theorem scanRow_of_none (y x : ℤ) (s : MarkScan) (hnone : ∀ kind ∈ kinds runs, kind = .none) :
    MarkScan.scanRow y x runs s = s := by
  induction runs generalizing x with
  | nil => rfl
  | cons run runs ih =>
    rw [kinds_cons, List.forall_mem_cons] at hnone
    rw [MarkScan.scanRow]
    simp only [hnone.1, reduceCtorEq, decide_false, Bool.false_and, Bool.false_eq_true, if_false,
      MarkScan.visit]
    exact ih _ hnone.2

theorem InOrder.lt_reach_scanRow (h : s.InOrder ⟨x, y⟩) (hpos : ∀ run ∈ runs, 0 < run.length)
    (hcommand : s.startedCommand = false) (hmarked : ∃ kind ∈ kinds runs, kind ≠ .none) :
    ⟨x, y⟩ < (MarkScan.scanRow y x runs s).reach := by
  induction runs generalizing x with
  | nil =>
    obtain ⟨kind, hmem, -⟩ := hmarked
    exact absurd hmem List.not_mem_nil
  | cons run runs ih =>
    have hlt : (⟨x, y⟩ : Point) < ⟨x + run.length, y⟩ :=
      point_lt_of_pos (hpos run List.mem_cons_self)
    have hrest : ∀ r ∈ runs, 0 < r.length := fun r hr => hpos r (List.mem_cons_of_mem _ hr)
    rcases h.scanRow_cons y x run runs with ⟨-, hstarted, -⟩ | ⟨hkind, heq⟩
    · rw [hcommand] at hstarted
      exact Bool.noConfusion hstarted
    · rw [heq]
      by_cases hnone : run.value.markKind = .none
      · rw [hnone]
        refine hlt.trans (ih (h.mono hlt.le) hrest ?_)
        obtain ⟨kind, hmem, hne⟩ := hmarked
        rcases List.mem_cons.mp hmem with rfl | hmem
        · exact absurd hnone hne
        · exact ⟨kind, hmem, hne⟩
      · obtain ⟨hvisit, hreach⟩ := h.visit hlt hkind
        rw [← hreach hnone] at hlt
        exact hlt.trans_le (hvisit.scanRow hrest).2

end MarkScan

theorem ROW.length_runs_pos (r : ROW) : ∀ run ∈ r.runs, 0 < run.length :=
  (Run.compact_encode r.attr).length_pos

namespace TextBuffer

variable {b : TextBuffer} {s : MarkScan} {y : ℤ} {count : ℕ} {r n n' : ℕ}

open MarkScan (kinds Answer)

/-- The kinds of the runs in `count` rows from `y` on. -/
def rowsKinds (b : TextBuffer) : ℕ → ℤ → List MarkKind
  | 0, _ => []
  | count + 1, y => kinds (b.row y).runs ++ b.rowsKinds count (y + 1)

theorem scanRows_inOrder (count : ℕ) (h : s.InOrder ⟨0, y⟩) :
    (b.scanRows count y s).InOrder ⟨0, y + count⟩ ∧ s.reach ≤ (b.scanRows count y s).reach := by
  induction count generalizing y s with
  | zero =>
    rw [Int.natCast_zero, Int.add_zero]
    exact ⟨h, le_rfl⟩
  | succ count ih =>
    obtain ⟨hrow, hreach⟩ := h.scanRow (b.row y).length_runs_pos
    have hnext : (⟨0 + Run.total (b.row y).runs, y⟩ : Point) ≤ ⟨0, y + 1⟩ :=
      Point.le_def.mpr (.inl (Int.lt_succ y))
    obtain ⟨hrest, hmono⟩ := ih (hrow.mono hnext)
    rw [scanRows, Nat.cast_succ, Int.add_comm (count : ℤ), ← Int.add_assoc]
    exact ⟨hrest, hreach.trans hmono⟩

theorem inOrder_scanRow (h : s.InOrder ⟨0, y⟩) :
    (MarkScan.scanRow y 0 (b.row y).runs s).InOrder ⟨0, y + 1⟩ :=
  (scanRows_inOrder (b := b) 1 h).1

theorem startedCommand_scanRows (h : s.InOrder ⟨0, y⟩) :
    (b.scanRows count y s).startedCommand = true ↔
      s.startedCommand = true ∨
        (s.startedPrompt = true ∧ ∃ kind ∈ b.rowsKinds count y, Answer kind) ∨
        Followed (· = .prompt) Answer (b.rowsKinds count y) := by
  induction count generalizing y s with
  | zero => simp [scanRows, rowsKinds, not_followed_nil]
  | succ count ih =>
    have hpos := (b.row y).length_runs_pos
    rw [scanRows, ih (inOrder_scanRow h), h.startedCommand_scanRow hpos, (h.start_scanRow hpos).1,
      rowsKinds, followed_append]
    simp only [List.mem_append, or_and_right, exists_or, exists_eq_right]
    grind

theorem start_scanRows (count : ℕ) (h : s.InOrder ⟨0, y⟩) :
    ((b.scanRows count y s).startedPrompt = true ↔
        s.startedPrompt = true ∨ .prompt ∈ b.rowsKinds count y) ∧
      (s.startedPrompt = true → (b.scanRows count y s).mark.start = s.mark.start) ∧
      (s.startedPrompt = false → .prompt ∈ b.rowsKinds count y →
        ⟨0, y⟩ ≤ (b.scanRows count y s).mark.start) := by
  induction count generalizing y s with
  | zero => simp [scanRows, rowsKinds]
  | succ count ih =>
    obtain ⟨hrow, hsame, hfirst⟩ := h.start_scanRow (b.row y).length_runs_pos
    obtain ⟨hrest, hsame', hfirst'⟩ := ih (inOrder_scanRow (b := b) h)
    rw [scanRows, rowsKinds, List.mem_append]
    refine ⟨by rw [hrest, hrow, or_assoc], fun hprompt => ?_, fun houtside hmem => ?_⟩
    · rw [hsame' (hrow.mpr (.inl hprompt)), hsame hprompt]
    · by_cases hhere : .prompt ∈ kinds (b.row y).runs
      · rw [hsame' (hrow.mpr (.inr hhere))]
        exact hfirst houtside hhere
      · have hnot : (MarkScan.scanRow y 0 (b.row y).runs s).startedPrompt = false := by
          rw [Bool.eq_false_iff, Ne, hrow, houtside]
          simpa using hhere
        refine le_trans ?_ (hfirst' hnot (hmem.resolve_left hhere))
        exact Point.le_def.mpr (.inl (Int.lt_succ y))

theorem scanRows_of_none (s : MarkScan) (hnone : ∀ kind ∈ b.rowsKinds count y, kind = .none) :
    b.scanRows count y s = s := by
  induction count generalizing y with
  | zero => rfl
  | succ count ih =>
    rw [rowsKinds, List.forall_mem_append] at hnone
    rw [scanRows, MarkScan.scanRow_of_none _ _ _ hnone.1, ih hnone.2]

theorem lt_reach_scanRows (h : s.InOrder ⟨0, y⟩) (hcommand : s.startedCommand = false)
    (hmarked : ∃ kind ∈ b.rowsKinds count y, kind ≠ .none) :
    ⟨0, y⟩ < (b.scanRows count y s).reach := by
  induction count generalizing y with
  | zero =>
    obtain ⟨kind, hmem, -⟩ := hmarked
    exact absurd hmem List.not_mem_nil
  | succ count ih =>
    rw [scanRows]
    by_cases hhere : ∃ kind ∈ kinds (b.row y).runs, kind ≠ .none
    · exact (h.lt_reach_scanRow (b.row y).length_runs_pos hcommand hhere).trans_le
        (scanRows_inOrder _ (inOrder_scanRow h)).2
    · have hnext : (⟨0, y⟩ : Point) < ⟨0, y + 1⟩ := Point.lt_def.mpr (.inl (Int.lt_succ y))
      push Not at hhere
      rw [MarkScan.scanRow_of_none _ _ _ hhere]
      refine hnext.trans (ih (h.mono hnext.le) ?_)
      obtain ⟨kind, hmem, hne⟩ := hmarked
      rcases List.mem_append.mp hmem with hmem | hmem
      · exact absurd (hhere kind hmem) hne
      · exact ⟨kind, hmem, hne⟩

theorem scanRows_add (j : ℕ) :
    b.scanRows (j + count) y s = b.scanRows count (y + j) (b.scanRows j y s) := by
  induction j generalizing y s with
  | zero => rw [Nat.zero_add, Int.natCast_zero, Int.add_zero, scanRows]
  | succ j ih =>
    rw [Nat.succ_add, scanRows, ih, scanRows, Nat.cast_succ, Int.add_assoc, Int.add_comm 1]

/-! ### Where a mark ends -/

/-- The kinds from the row `r` on, up to the first run of a kind in the row `n`. -/
def kindsBefore (b : TextBuffer) (kind : MarkKind) (r n : ℕ) : List MarkKind :=
  b.rowsKinds (n - r) r ++ (kinds (b.row n).runs).takeWhile fun k => k ≠ kind

/-- The mark of the row `r` ends before the mark of the row `n`, whose scan goes to the row `n'`.
When there is a prompt in the row `n`, the one before it was answered. Otherwise the later mark
starts in a row below, or it starts nowhere and the earlier one is empty. -/
def MarkEndsBefore (b : TextBuffer) (r n n' : ℕ) : Prop :=
  if .prompt ∈ kinds (b.row n).runs then
    Followed (· = .prompt) Answer (b.kindsBefore .prompt r n)
  else .prompt ∈ b.rowsKinds (n' - n) (n + 1) ∨
    r = 0 ∧ ∀ kind ∈ b.rowsKinds (n + 1) 0, kind = .none

theorem finish_start (s : MarkScan) : s.finish.start = s.mark.start := by
  unfold MarkScan.finish
  split_ifs <;> rfl

theorem inOrder_markScan (b : TextBuffer) (r : ℕ) : (b.markScan r).InOrder ⟨0, r⟩ := by
  refine .outside ?_ le_rfl
  rw [Point.le_def]
  dsimp only
  omega

theorem scanRows_last {r n : ℕ} (hrn : r ≤ n) (s : MarkScan) :
    b.scanRows (n + 1 - r) r s =
      MarkScan.scanRow n 0 (b.row n).runs (b.scanRows (n - r) r s) := by
  have hrows : (r : ℤ) + (n - r : ℕ) = n := by omega
  rw [show n + 1 - r = n - r + 1 by omega, scanRows_add, hrows]
  rfl

theorem scanRows_first {n n' : ℕ} (hn : n ≤ n') (s : MarkScan) :
    b.scanRows (n' + 1 - n) n s =
      b.scanRows (n' - n) (n + 1) (MarkScan.scanRow n 0 (b.row n).runs s) := by
  rw [show n' + 1 - n = n' - n + 1 by omega]
  rfl

theorem exists_first_prompt {runs : List (Run TextAttribute)} (h : .prompt ∈ kinds runs) :
    ∃ pre run post, runs = pre ++ run :: post ∧ run.value.markKind = .prompt ∧
      .prompt ∉ kinds pre ∧ ((kinds runs).takeWhile fun k => k ≠ .prompt) = kinds pre := by
  induction runs with
  | nil => exact absurd h List.not_mem_nil
  | cons run runs ih =>
    by_cases hprompt : run.value.markKind = .prompt
    · refine ⟨[], run, runs, rfl, hprompt, List.not_mem_nil, ?_⟩
      rw [MarkScan.kinds_cons, List.takeWhile_cons_of_neg (by simpa using hprompt)]
      rfl
    · obtain ⟨pre, first, post, rfl, hfirst, hpre, htake⟩ :=
        ih ((List.mem_cons.mp h).resolve_left (Ne.symm hprompt))
      refine ⟨run :: pre, first, post, rfl, hfirst, ?_, ?_⟩
      · rw [MarkScan.kinds_cons, List.mem_cons, not_or]
        exact ⟨Ne.symm hprompt, hpre⟩
      · rw [MarkScan.kinds_cons, List.takeWhile_cons_of_pos (by simpa using hprompt), htake,
          MarkScan.kinds_cons]

section FirstPrompt

variable {n : ℕ} {pre post : List (Run TextAttribute)} {run : Run TextAttribute}

theorem scanRow_prompt (h : s.InOrder ⟨0, n⟩) (hpos : ∀ r ∈ pre ++ run :: post, 0 < r.length)
    (hkind : run.value.markKind = .prompt) (hpre : .prompt ∉ kinds pre) :
    (MarkScan.scanRow n 0 pre s).InOrder ⟨0 + Run.total pre, n⟩ ∧
      ((MarkScan.scanRow n 0 pre s).startedCommand = true →
        (MarkScan.scanRow n 0 (pre ++ run :: post) s).reach =
          (MarkScan.scanRow n 0 pre s).reach) ∧
      ((MarkScan.scanRow n 0 pre s).startedCommand = false →
        ⟨0 + Run.total pre, n⟩ < (MarkScan.scanRow n 0 (pre ++ run :: post) s).reach) ∧
      (s.startedPrompt = false →
        (MarkScan.scanRow n 0 (pre ++ run :: post) s).mark.start = ⟨0 + Run.total pre, n⟩) := by
  have hposPost : ∀ x ∈ post, 0 < x.length := fun x hx =>
    hpos x (List.mem_append_right _ (List.mem_cons_of_mem _ hx))
  have hposPre : ∀ x ∈ pre, 0 < x.length := fun x hx => hpos x (List.mem_append_left _ hx)
  have hlt : (⟨0 + Run.total pre, n⟩ : Point) < ⟨0 + Run.total pre + run.length, n⟩ :=
    MarkScan.point_lt_of_pos (hpos run (List.mem_append_right _ List.mem_cons_self))
  obtain ⟨hscan, -⟩ := h.scanRow hposPre
  have houtside : s.startedPrompt = false →
      (MarkScan.scanRow n 0 pre s).startedPrompt = false := by
    intro houtside
    rw [Bool.eq_false_iff, Ne, (h.start_scanRow hposPre).1, houtside]
    rintro (hfalse | hmem)
    · exact Bool.false_ne_true hfalse
    · exact hpre hmem
  rw [MarkScan.scanRow_append n 0 s hpre]
  rcases hscan.scanRow_cons n (0 + Run.total pre) run post with ⟨-, hcommand, heq⟩ | ⟨hcommand, heq⟩
  · rw [heq]
    refine ⟨hscan, fun _ => MarkScan.reach_lastMarkedText hcommand, fun hfalse => ?_, fun h => ?_⟩
    · rw [hcommand] at hfalse
      exact Bool.noConfusion hfalse
    · have hprompt := hscan.startedPrompt_of_command hcommand
      rw [houtside h] at hprompt
      exact Bool.noConfusion hprompt
  · obtain ⟨hvisit, hreach⟩ := hscan.visit hlt hcommand
    have hstarted := (hscan.startedPrompt_visit _ (q := ⟨0 + Run.total pre + run.length, n⟩)).mpr
      (.inr hkind)
    have hend := (hvisit.scanRow hposPost).2
    rw [hreach (by rw [hkind]; rintro ⟨⟩)] at hend
    rw [heq]
    refine ⟨hscan, fun htrue => ?_, fun _ => hlt.trans_le hend, fun h => ?_⟩
    · rw [hcommand hkind] at htrue
      exact Bool.noConfusion htrue
    · rw [(hvisit.start_scanRow hposPost).2.1 hstarted, hscan.start_visit,
        if_pos ⟨houtside h, hkind⟩]

end FirstPrompt

theorem scanRows_markScan {r n : ℕ} (hrn : r ≤ n) :
    (b.scanRows (n - r) r (b.markScan r)).InOrder ⟨0, n⟩ := by
  have hcast : (r : ℤ) + (n - r : ℕ) = n := by omega
  obtain ⟨hrows, -⟩ := scanRows_inOrder (b := b) (n - r) (b.inOrder_markScan r)
  rwa [hcast] at hrows

theorem getExtent_le_start_of_prompt (hrn : r < n) (hn : n ≤ n')
    (hprompt : .prompt ∈ kinds (b.row n).runs) :
    (b.scrollMarkExtentForRow r n).getExtent.2 ≤ (b.scrollMarkExtentForRow n n').start ↔
      Followed (· = .prompt) Answer (b.kindsBefore .prompt r n) := by
  have hfirst := b.inOrder_markScan r
  have hnext := b.inOrder_markScan n
  have hrows := scanRows_markScan (b := b) hrn.le
  have hpos := (b.row n).length_runs_pos
  have hstarted := (hnext.start_scanRow hpos).1.mpr (.inr hprompt)
  have hstart := (start_scanRows (b := b) (n' - n) (inOrder_scanRow hnext)).2.1 hstarted
  obtain ⟨pre, run, post, hruns, hkind, hpre, htake⟩ := exists_first_prompt hprompt
  have hposPre : ∀ x ∈ pre, 0 < x.length := fun x hx =>
    hpos x (by rw [hruns]; exact List.mem_append_left _ hx)
  rw [scrollMarkExtentForRow, scrollMarkExtentForRow, finish_start, scanRows_first hn,
    scanRows_last hrn.le, ← MarkScan.reach, hstart]
  -- whether the earlier mark was answered before the first prompt of the row
  have hanswered :
      (MarkScan.scanRow n 0 pre (b.scanRows (n - r) r (b.markScan r))).startedCommand = true ↔
        Followed (· = .prompt) Answer (b.kindsBefore .prompt r n) := by
    rw [hrows.startedCommand_scanRow hposPre, startedCommand_scanRows hfirst,
      (start_scanRows _ hfirst).1, kindsBefore, htake, followed_append]
    simp only [markScan, Bool.false_eq_true, false_or, false_and, exists_eq_right]
    exact or_congr Iff.rfl or_comm
  rw [hruns] at hpos ⊢
  obtain ⟨hscan, hstop, hgo, -⟩ := scanRow_prompt hrows hpos hkind hpre
  obtain ⟨-, -, -, hstart'⟩ := scanRow_prompt hnext hpos hkind hpre
  rw [hstart' rfl, ← hanswered]
  constructor
  · intro hle
    by_contra hfalse
    exact absurd hle (not_le.mpr (hgo (Bool.eq_false_iff.mpr hfalse)))
  · intro hcommand
    rw [hstop hcommand]
    exact hscan.reach_le

theorem getExtent_le_start_of_no_prompt (hrn : r < n) (hn : n ≤ n')
    (hprompt : .prompt ∉ kinds (b.row n).runs) :
    (b.scrollMarkExtentForRow r n).getExtent.2 ≤ (b.scrollMarkExtentForRow n n').start ↔
      .prompt ∈ b.rowsKinds (n' - n) (n + 1) ∨
        r = 0 ∧ ∀ kind ∈ b.rowsKinds (n + 1) 0, kind = .none := by
  have hfirst := b.inOrder_markScan r
  have hnext := b.inOrder_markScan n
  obtain ⟨hrows, hgrow⟩ := scanRows_inOrder (b := b) (n + 1 - r) hfirst
  have hcast : (r : ℤ) + (n + 1 - r : ℕ) = n + 1 := by omega
  rw [hcast] at hrows
  have houtside : (MarkScan.scanRow n 0 (b.row n).runs (b.markScan n)).startedPrompt = false := by
    rw [Bool.eq_false_iff, Ne, (hnext.start_scanRow (b.row n).length_runs_pos).1]
    rintro (hfalse | hmem)
    · exact Bool.false_ne_true hfalse
    · exact hprompt hmem
  have hbelow := inOrder_scanRow (b := b) hnext
  obtain ⟨hstarted, -, hstart⟩ := start_scanRows (b := b) (n' - n) hbelow
  rw [scrollMarkExtentForRow, scrollMarkExtentForRow, finish_start, scanRows_first hn,
    ← MarkScan.reach]
  by_cases hmem : .prompt ∈ b.rowsKinds (n' - n) (n + 1)
  · exact iff_of_true (hrows.reach_le.trans (hstart houtside hmem)) (.inl hmem)
  · have hnowhere : (b.scanRows (n' - n) (n + 1)
        (MarkScan.scanRow n 0 (b.row n).runs (b.markScan n))).mark.start = ⟨0, 0⟩ := by
      refine (scanRows_inOrder _ hbelow).1.start_of_outside ?_
      rw [Bool.eq_false_iff, Ne, hstarted, houtside]
      rintro (hfalse | h)
      · exact Bool.false_ne_true hfalse
      · exact hmem h
    rw [hnowhere, or_iff_right hmem]
    constructor
    · intro hle
      have hr : r = 0 := by
        have hzero : (⟨0, r⟩ : Point) ≤ ⟨0, 0⟩ := hgrow.trans hle
        rw [Point.le_def] at hzero
        dsimp only at hzero
        omega
      subst hr
      refine ⟨rfl, ?_⟩
      by_contra! hmarked
      exact absurd hle (not_le.mpr (lt_reach_scanRows hfirst rfl hmarked))
    · rintro ⟨rfl, hnone⟩
      rw [Nat.sub_zero, Nat.cast_zero, scanRows_of_none _ hnone]
      exact hfirst.reach_le

theorem getExtent_le_start_iff (hrn : r < n) (hn : n ≤ n') :
    (b.scrollMarkExtentForRow r n).getExtent.2 ≤ (b.scrollMarkExtentForRow n n').start ↔
      b.MarkEndsBefore r n n' := by
  unfold MarkEndsBefore
  split_ifs with hprompt
  · exact getExtent_le_start_of_prompt hrn hn hprompt
  · exact getExtent_le_start_of_no_prompt hrn hn hprompt

end TextBuffer

end IntelligentTerminal.Buffer
