import IntelligentTerminal.Buffer.CopyProgress
import IntelligentTerminal.Buffer.ReflowCopy
import IntelligentTerminal.Data.Checked

/-!
# Progress of the copy loops of Reflow

The loop of `TextBuffer::Reflow` that copies a row goes on until `oldX` reaches the limit of the row.
An iteration copies nothing when no glyph fits into the columns that are left of the new row, and the
loop then wraps. At the start of a row there are as many columns as there ever are. So the loops make
progress if and only if no iteration at the start of a row meets a glyph that is wider than the new
buffer.

Source: `src/buffer/out/textBuffer.cpp`, lines 2718-2912.
-/

namespace IntelligentTerminal.Buffer

open Glyph

theorem ROW.measureRight_le (r : ROW) : r.measureRight ≤ r.columnCount := by
  unfold ROW.measureRight ROW.getLastNonSpaceColumn ROW.getReadableColumnCount
  split_ifs <;> omega

/-! ### The rows of a buffer -/

namespace TextBuffer

/-- All rows of a buffer, committed or not, are of a kind. -/
structure AllRows (P : ROW → Prop) (b : TextBuffer) : Prop where
  blank : P b.blankRow
  rows : ∀ r ∈ b.rows, P r

namespace AllRows

variable {P Q : ROW → Prop} {b : TextBuffer}

theorem and (h : b.AllRows P) (h' : b.AllRows Q) : b.AllRows fun r => P r ∧ Q r :=
  ⟨⟨h.blank, h'.blank⟩, fun r hr => ⟨h.rows r hr, h'.rows r hr⟩⟩

theorem row (h : b.AllRows P) (y : ℤ) : P (b.row y) := by
  rw [TextBuffer.row]
  rcases Nat.lt_or_ge (b.rowIndex y + 1) b.rows.length with hlt | hge
  · rw [List.getD_eq_getElem _ _ hlt]
    exact h.rows _ (List.getElem_mem hlt)
  · rw [List.getD_eq_default _ _ hge]
    exact h.blank

theorem commit (h : b.AllRows P) (offset : ℕ) : (b.commit offset).AllRows P := by
  constructor
  · rw [(b.commit_sameShape offset).blankRow]
    exact h.blank
  · intro r hr
    unfold TextBuffer.commit at hr
    split_ifs at hr
    · exact h.rows r hr
    · rcases List.mem_append.mp hr with hr | hr
      · exact h.rows r hr
      · rw [List.eq_of_mem_replicate hr]
        exact h.blank

theorem getRow (h : b.AllRows P) (y : ℤ) : P (b.getRow y).1 ∧ (b.getRow y).2.AllRows P :=
  ⟨(h.commit _).row y, h.commit _⟩

theorem setRow (h : b.AllRows P) (y : ℤ) {r : ROW} (hr : P r) : (b.setRow y r).AllRows P := by
  refine ⟨h.blank, fun r' hr' => ?_⟩
  rcases List.mem_or_eq_of_mem_set hr' with hmem | rfl
  · exact h.rows r' hmem
  · exact hr

end AllRows

end TextBuffer

/-! ### The iterations -/

namespace ReflowState

/-- An iteration of the loop that copies `oldRow`; `none` when the loop is left for the row of the
cursor. -/
def copyBody (s : ReflowState) (oldRow : ROW) (oldRowLimit : ℤ) (oldCursorPos : Point) :
    Except ReflowError (Option ReflowState) :=
  let s := s.wrap
  if s.newY ≥ s.newBuffer.height ∧ s.newX = 0 ∧ s.newY ≥ s.newYLimit then .ok none
  else
    let s :=
      if s.newY ≥ s.newBuffer.height ∧ s.newX = 0 then
        s.setNewRow (s.newRow.reset s.newBuffer.initialAttributes)
      else s
    (s.copyText oldRow oldRowLimit oldCursorPos).map some

theorem copyLoop_succ (oldRow : ROW) (oldRowLimit : ℤ) (oldCursorPos : Point) (fuel : ℕ)
    (s : ReflowState) : copyLoop oldRow oldRowLimit oldCursorPos (fuel + 1) s =
      (s.copyBody oldRow oldRowLimit oldCursorPos).bind fun next =>
        next.elim (.ok s.wrap) fun s' =>
          if s'.oldX < oldRowLimit then copyLoop oldRow oldRowLimit oldCursorPos fuel s'
          else .ok s' := by
  rw [copyLoop, copyBody]
  dsimp only
  split_ifs
  · rfl
  · cases copyText _ oldRow oldRowLimit oldCursorPos <;> rfl
  · cases copyText _ oldRow oldRowLimit oldCursorPos <;> rfl

end ReflowState

/-- An iteration that copies: the states before and after it. -/
structure Iteration where
  oldRow : ROW
  oldRowLimit : ℤ
  before : ReflowState
  after : ReflowState

namespace ReflowState

/-- The iterations of the loop that copies `oldRow`, with as much fuel as it has. -/
def iterations (oldRow : ROW) (oldRowLimit : ℤ) (oldCursorPos : Point) :
    ℕ → ReflowState → List Iteration
  | 0, _ => []
  | fuel + 1, s =>
    match s.copyBody oldRow oldRowLimit oldCursorPos with
    | .ok (some s') =>
      ⟨oldRow, oldRowLimit, s, s'⟩ ::
        if s'.oldX < oldRowLimit then iterations oldRow oldRowLimit oldCursorPos fuel s' else []
    | .ok none => []
    | .error _ => []

def rowIterations (fuel : ℕ) (s : ReflowState) (oldCursorPos : Point) : List Iteration :=
  let (oldRow, oldBuffer) := s.oldBuffer.getRow s.oldY
  let s := { s with oldBuffer }
  if oldRow.lineRendition = .singleWidth then
    iterations oldRow (s.oldRowLimit oldRow oldCursorPos) oldCursorPos fuel
      { s.copyMark oldRow with oldX := 0 }
  else []

/-- The iterations for `count` old rows. -/
def rowsIterations (fuel : ℕ) (oldCursorPos : Point) : ℕ → ReflowState → List Iteration
  | 0, _ => []
  | count + 1, s =>
    if s.newY < s.newYLimit then
      s.rowIterations fuel oldCursorPos ++
        match s.copyRow fuel oldCursorPos with
        | .ok s => rowsIterations fuel oldCursorPos count s
        | .error _ => []
    else []

end ReflowState

/-- The iterations of `TextBuffer::Reflow`, when the loop of each row has `fuel`. -/
def TextBuffer.reflowIterations (fuel : ℕ) (oldBuffer newBuffer : TextBuffer)
    (lastCharacterViewport : Option Viewport) (positionInfo : Option PositionInformation) :
    List Iteration :=
  let oldCursorPos : Point :=
    { x := clampInt oldBuffer.cursor.position.x 0 (oldBuffer.width - 1)
      y := clampInt oldBuffer.cursor.position.y 0 (oldBuffer.height - 1) }
  let (lastCharacter, oldBuffer) := oldBuffer.getLastNonSpaceCharacter lastCharacterViewport
  let oldHeight := max lastCharacter.y oldCursorPos.y + 1
  ReflowState.rowsIterations fuel oldCursorPos oldHeight.toNat
    { oldBuffer, newBuffer, positionInfo
      mutableViewportTop := (positionInfo.map (·.mutableViewportTop)).getD coordTypeMax
      visibleViewportTop := (positionInfo.map (·.visibleViewportTop)).getD coordTypeMax }

namespace Iteration

variable (it : Iteration)

/-- The iteration writes to the start of a row. -/
def AtRowStart : Prop := it.before.newX = 0 ∨ it.before.newX ≥ it.before.newBuffer.width

/-- The iteration advances `oldX`. -/
def Advances : Prop := it.before.oldX < it.after.oldX

/-- The next iteration moves to a new row. -/
def MovesOn : Prop := it.after.newX ≥ it.after.newBuffer.width

/-- An iteration at the start of a row has to advance. Another one may move on to a new row instead,
and the next iteration is then at the start of a row. -/
def Progresses : Prop := it.Advances ∨ ¬ it.AtRowStart ∧ it.MovesOn

instance : Decidable it.AtRowStart :=
  inferInstanceAs (Decidable (it.before.newX = 0 ∨ it.before.newX ≥ it.before.newBuffer.width))

instance : Decidable it.Advances := inferInstanceAs (Decidable (it.before.oldX < it.after.oldX))

instance : Decidable it.MovesOn :=
  inferInstanceAs (Decidable (it.after.newX ≥ it.after.newBuffer.width))

instance : Decidable it.Progresses :=
  inferInstanceAs (Decidable (it.Advances ∨ ¬ it.AtRowStart ∧ it.MovesOn))

/-- The iteration meets a glyph that is wider than the new buffer, and has a whole row for it. -/
def Sticks : Prop :=
  it.AtRowStart ∧ it.oldRow.Sticks it.before.oldX.toNat
    (it.oldRow.clampedColumnInclusive it.oldRowLimit) it.before.newBuffer.width

end Iteration

/-- The loops make progress: each iteration does, their number is bounded by the size of the old
buffer, and `TextBuffer::Reflow` comes to an end. -/
structure TextBuffer.MakesProgress (oldBuffer newBuffer : TextBuffer)
    (lastCharacterViewport : Option Viewport) (positionInfo : Option PositionInformation) :
    Prop where
  progresses : ∀ fuel, ∀ it ∈ oldBuffer.reflowIterations fuel newBuffer lastCharacterViewport
    positionInfo, it.Progresses
  bounded : ∀ fuel, (oldBuffer.reflowIterations fuel newBuffer lastCharacterViewport
    positionInfo).length ≤ 2 * oldBuffer.width * oldBuffer.height
  ends : ∀ fuel, 2 * oldBuffer.width < fuel →
    TextBuffer.reflow fuel oldBuffer newBuffer lastCharacterViewport positionInfo ≠ .error .outOfFuel

/-! ### One iteration -/

namespace ReflowState

variable {P : ROW → Prop} {n W : ℕ} {s s' : ReflowState} {oldRow : ROW} {oldRowLimit : ℤ}
  {oldCursorPos : Point}

/-- The old rows are of a kind, and the new rows have the width of their buffer. -/
structure Sized (P : ROW → Prop) (W : ℕ) (s : ReflowState) : Prop where
  old : s.oldBuffer.AllRows P
  width : s.newBuffer.width = W
  new : s.newBuffer.AllRows fun r => r.columnCount = W
  newX : 0 ≤ s.newX

namespace Sized

theorem newRow (h : s.Sized P W) : s.newRow.columnCount = W := (h.new.getRow s.newY).1

theorem setNewRow (h : s.Sized P W) {r : ROW} (hr : r.columnCount = W) : (s.setNewRow r).Sized P W :=
  ⟨h.old, (s.newBuffer.store_sameShape s.newY r).width.trans h.width,
    (h.new.getRow s.newY).2.setRow s.newY hr, h.newX⟩

theorem newline (h : s.Sized P W) : s.newline.Sized P W := ⟨h.old, h.width, h.new, le_rfl⟩

theorem wrap (h : s.Sized P W) : s.wrap.Sized P W := by
  unfold ReflowState.wrap
  split_ifs
  · exact (h.setNewRow (r := s.newRow.setWrapForced true) h.newRow).newline
  · exact h

theorem notePosition (h : s.Sized P W) : s.notePosition.Sized P W := by
  obtain ⟨m, v, p, heq⟩ := notePosition_eq s
  rw [heq]
  exact ⟨h.old, h.width, h.new, h.newX⟩

theorem noteCursor (h : s.Sized P W) (newRow : ROW) (oldCursorPos : Point) :
    (s.noteCursor newRow oldCursorPos).Sized P W := by
  obtain ⟨c, l, -, heq⟩ := noteCursor_eq s newRow oldCursorPos
  rw [heq]
  exact ⟨h.old, h.width, h.new, h.newX⟩

end Sized

theorem copyText_progress (h : s.Sized P W) (hcount : oldRow.columnCount = n)
    (hwords : oldRow.charOffsets.length = n + 1) (hW : W < 0x10000) {c x : ℕ} (hoX : s.oldX = c)
    (hc : c < n) (hX : s.newX = x) (hx : x < W)
    (hcopy : s.copyText oldRow oldRowLimit oldCursorPos = .ok s') :
    s'.Sized P W ∧ 0 ≤ s'.oldX ∧
      (oldRow.Sticks c (oldRow.clampedColumnInclusive oldRowLimit) (W - x) →
        s'.oldX = s.oldX ∧ s'.newX = W) ∧
      (¬ oldRow.Sticks c (oldRow.clampedColumnInclusive oldRowLimit) (W - x) →
        s.oldX < s'.oldX) := by
  unfold copyText at hcopy
  rw [hoX, hX] at hcopy
  cases htext : s.newRow.copyTextFrom oldRow false
      { columnBegin := x, sourceColumnBegin := c, sourceColumnLimit := oldRowLimit } with
  | error _ =>
    rw [htext] at hcopy
    cases hcopy
  | ok copied =>
    obtain ⟨newRow, state⟩ := copied
    rw [htext] at hcopy
    dsimp only at hcopy
    have hnew := h.newRow
    have hcount' := ROW.copyTextFrom_columnCount htext
    have hprogress := ROW.copyTextFrom_progress (by rw [hnew]; exact hW) (by rw [hnew]; exact hx)
      (by rw [hcount]; exact hwords) (by rw [hcount]; exact hc) rfl htext
    rw [hnew] at hcount' hprogress
    have hrow : (if (c : ℤ) = 0 then { newRow with imageSlice := oldRow.imageSlice }
        else newRow).columnCount = W := by
      split_ifs
      · exact hcount'
      · exact hcount'
    generalize (if (c : ℤ) = 0 then { newRow with imageSlice := oldRow.imageSlice } else newRow) =
      row at hcopy hrow
    cases hattr : s.copyAttributes oldRow row with
    | none =>
      rw [hattr] at hcopy
      cases hcopy
    | some attr =>
      rw [hattr] at hcopy
      have hstored := ((h.setNewRow (r := { row with attr }) hrow).noteCursor { row with attr }
        oldCursorPos).notePosition
      rw [← Except.ok.inj hcopy]
      refine ⟨⟨hstored.old, hstored.width, hstored.new, Int.natCast_nonneg _⟩,
        Int.natCast_nonneg _, fun hsticks => ?_, fun hsticks => ?_⟩
      · obtain ⟨hend, hfull⟩ := hprogress.1 hsticks
        exact ⟨by rw [hoX, ← hend], by rw [← hfull]⟩
      · rw [hoX]
        change (c : ℤ) < (state.sourceColumnEnd : ℤ)
        exact_mod_cast hprogress.2 hsticks

theorem wrap_newX (h : s.newBuffer.width = W) : s.wrap.newX = if s.newX ≥ W then 0 else s.newX := by
  unfold wrap
  rw [h]
  split_ifs <;> rfl

theorem wrap_oldX (s : ReflowState) : s.wrap.oldX = s.oldX := by
  unfold wrap
  split_ifs <;> rfl

theorem copyBody_progress (h : s.Sized P W) (hcount : oldRow.columnCount = n)
    (hwords : oldRow.charOffsets.length = n + 1) (hpos : 0 < W) (hW : W < 0x10000)
    (hoX : 0 ≤ s.oldX) (hoX' : s.oldX < n)
    (hcopy : s.copyBody oldRow oldRowLimit oldCursorPos = .ok (some s')) :
    s'.Sized P W ∧ 0 ≤ s'.oldX ∧
      ((⟨oldRow, oldRowLimit, s, s'⟩ : Iteration).Sticks → s'.oldX = s.oldX) ∧
      (s.newX = 0 ∨ s.newX ≥ W → ¬ (⟨oldRow, oldRowLimit, s, s'⟩ : Iteration).Sticks →
        s.oldX < s'.oldX) ∧
      (s.oldX < s'.oldX ∨ s'.oldX = s.oldX ∧ s'.newX = W) := by
  obtain ⟨c, hc⟩ := Int.eq_ofNat_of_zero_le hoX
  obtain ⟨x, hx⟩ := Int.eq_ofNat_of_zero_le h.wrap.newX
  have hnewX := wrap_newX h.width
  have hxlt : x < W := by
    split_ifs at hnewX <;> omega
  -- the row at which the text is copied has been reset or not
  obtain ⟨t, ht, htX, htoX, htext⟩ : ∃ t : ReflowState, t.Sized P W ∧ t.newX = x ∧ t.oldX = c ∧
      t.copyText oldRow oldRowLimit oldCursorPos = .ok s' := by
    unfold copyBody at hcopy
    dsimp only at hcopy
    have hwrapped : s.wrap.oldX = c := by rw [wrap_oldX, hc]
    split_ifs at hcopy with hbreak hreset
    · cases hcopy
    · refine ⟨_, h.wrap.setNewRow
        (r := s.wrap.newRow.reset s.wrap.newBuffer.initialAttributes) h.wrap.newRow, hx,
        hwrapped, ?_⟩
      obtain ⟨t, ht, heq⟩ := map_eq_ok.mp hcopy
      rw [ht, Option.some.inj heq]
    · refine ⟨s.wrap, h.wrap, hx, hwrapped, ?_⟩
      obtain ⟨t, ht, heq⟩ := map_eq_ok.mp hcopy
      rw [ht, Option.some.inj heq]
  obtain ⟨hs', hoX'', hsticks, hadvances⟩ :=
    copyText_progress ht hcount hwords hW htoX (by omega) htX hxlt htext
  rw [htoX, ← hc] at hsticks hadvances
  have hstart : s.newX = 0 ∨ s.newX ≥ W → x = 0 := by
    intro hstart
    split_ifs at hnewX <;> omega
  have hstuck : (⟨oldRow, oldRowLimit, s, s'⟩ : Iteration).Sticks → x = 0 ∧
      oldRow.Sticks c (oldRow.clampedColumnInclusive oldRowLimit) (W - x) := by
    rintro ⟨hrow, hglyph⟩
    simp only [Iteration.AtRowStart, h.width] at hrow hglyph
    rw [hc, Int.toNat_natCast] at hglyph
    have hx0 := hstart hrow
    exact ⟨hx0, by rwa [hx0, Nat.sub_zero]⟩
  refine ⟨hs', hoX'', fun hit => (hsticks (hstuck hit).2).1, fun hrow hit => hadvances ?_, ?_⟩
  · intro hglyph
    refine hit ⟨?_, ?_⟩
    · rw [Iteration.AtRowStart, h.width]
      exact hrow
    · rw [hstart hrow, Nat.sub_zero] at hglyph
      simp only [h.width, hc, Int.toNat_natCast]
      exact hglyph
  · by_cases hglyph : oldRow.Sticks c (oldRow.clampedColumnInclusive oldRowLimit) (W - x)
    · exact .inr (hsticks hglyph)
    · exact .inl (hadvances hglyph)

theorem progresses_iff (h : s.Sized P W) (hcount : oldRow.columnCount = n)
    (hwords : oldRow.charOffsets.length = n + 1) (hpos : 0 < W) (hW : W < 0x10000)
    (hoX : 0 ≤ s.oldX) (hoX' : s.oldX < n)
    (hcopy : s.copyBody oldRow oldRowLimit oldCursorPos = .ok (some s')) :
    (⟨oldRow, oldRowLimit, s, s'⟩ : Iteration).Progresses ↔
      ¬ (⟨oldRow, oldRowLimit, s, s'⟩ : Iteration).Sticks := by
  obtain ⟨hs', -, hsticks, hstart, hadvances⟩ :=
    copyBody_progress h hcount hwords hpos hW hoX hoX' hcopy
  constructor
  · rintro (hadv | ⟨hrow, -⟩) hit
    · have hsame := hsticks hit
      have hlt : s.oldX < s'.oldX := hadv
      omega
    · exact hrow hit.1
  · intro hit
    by_cases hrow : (⟨oldRow, oldRowLimit, s, s'⟩ : Iteration).AtRowStart
    · exact .inl (hstart (by rwa [Iteration.AtRowStart, h.width] at hrow) hit)
    · rcases hadvances with hadv | ⟨-, hfull⟩
      · exact .inl hadv
      · refine .inr ⟨hrow, ?_⟩
        rw [Iteration.MovesOn, hs'.width]
        exact hfull.ge

/-! ### The loop over a row -/

/-- What the loop over `oldRow` can rely on. -/
structure RowOk (P : ROW → Prop) (n : ℕ) (oldRow : ROW) (oldRowLimit : ℤ) : Prop where
  kind : P oldRow
  count : oldRow.columnCount = n
  words : oldRow.charOffsets.length = n + 1
  limit : oldRowLimit ≤ n

structure IterationOk (P : ROW → Prop) (W : ℕ) (it : Iteration) : Prop where
  kind : P it.oldRow
  width : it.before.newBuffer.width = W
  progresses_iff : it.Progresses ↔ ¬ it.Sticks

theorem iterations_succ (fuel : ℕ)
    (hcopy : s.copyBody oldRow oldRowLimit oldCursorPos = .ok (some s')) :
    iterations oldRow oldRowLimit oldCursorPos (fuel + 1) s = ⟨oldRow, oldRowLimit, s, s'⟩ ::
      if s'.oldX < oldRowLimit then iterations oldRow oldRowLimit oldCursorPos fuel s' else [] := by
  rw [iterations, hcopy]

theorem iterations_eq_nil (fuel : ℕ)
    (hcopy : ∀ s', s.copyBody oldRow oldRowLimit oldCursorPos ≠ .ok (some s')) :
    iterations oldRow oldRowLimit oldCursorPos fuel s = [] := by
  cases fuel with
  | zero => rfl
  | succ fuel =>
    rw [iterations]
    cases hbody : s.copyBody oldRow oldRowLimit oldCursorPos with
    | error e => rfl
    | ok next =>
      cases next with
      | none => rfl
      | some s' => exact absurd hbody (hcopy s')

theorem iterations_ok (hpos : 0 < W) (hW : W < 0x10000) (hrow : RowOk P n oldRow oldRowLimit)
    (fuel : ℕ) (h : s.Sized P W) (hoX : 0 ≤ s.oldX) (hoX' : s.oldX < n) :
    ∀ it ∈ iterations oldRow oldRowLimit oldCursorPos fuel s, IterationOk P W it := by
  induction fuel generalizing s with
  | zero => exact fun it hit => absurd hit List.not_mem_nil
  | succ fuel ih =>
    by_cases hcopy : ∃ s', s.copyBody oldRow oldRowLimit oldCursorPos = .ok (some s')
    · obtain ⟨s', hcopy⟩ := hcopy
      obtain ⟨hs', hoX'', -⟩ :=
        copyBody_progress h hrow.count hrow.words hpos hW hoX hoX' hcopy
      rw [iterations_succ fuel hcopy]
      intro it hit
      rcases List.mem_cons.mp hit with rfl | hit
      · exact ⟨hrow.kind, h.width,
          progresses_iff h hrow.count hrow.words hpos hW hoX hoX' hcopy⟩
      · split_ifs at hit with hlt
        · exact ih hs' hoX'' (hlt.trans_le hrow.limit) it hit
        · exact absurd hit List.not_mem_nil
    · rw [iterations_eq_nil _ fun s' hs' => hcopy ⟨s', hs'⟩]
      exact fun it hit => absurd hit List.not_mem_nil

/-- How many iterations a row still takes: two for a column, and one less at the start of a row. -/
def iterationsLeft (n : ℕ) (s : ReflowState) : ℤ :=
  2 * (n - s.oldX) - if s.newX ≥ s.newBuffer.width then 1 else 0

theorem iterationsLeft_le (n : ℕ) (hoX : s.oldX = 0) : s.iterationsLeft n ≤ 2 * n := by
  unfold iterationsLeft
  rw [hoX]
  split_ifs <;> omega

theorem length_iterations_le (hpos : 0 < W) (hW : W < 0x10000) (hrow : RowOk P n oldRow oldRowLimit)
    (fuel : ℕ) (h : s.Sized P W) (hoX : 0 ≤ s.oldX) (hoX' : s.oldX < n)
    (hprogress : ∀ it ∈ iterations oldRow oldRowLimit oldCursorPos fuel s, it.Progresses) :
    ((iterations oldRow oldRowLimit oldCursorPos fuel s).length : ℤ) ≤ s.iterationsLeft n := by
  have hleft : 1 ≤ s.iterationsLeft n := by
    unfold iterationsLeft
    split_ifs <;> omega
  induction fuel generalizing s with
  | zero =>
    rw [iterations, List.length_nil]
    omega
  | succ fuel ih =>
    by_cases hcopy : ∃ s', s.copyBody oldRow oldRowLimit oldCursorPos = .ok (some s')
    · obtain ⟨s', hcopy⟩ := hcopy
      obtain ⟨hs', hoX'', hsticks, hstart, hadvances⟩ :=
        copyBody_progress h hrow.count hrow.words hpos hW hoX hoX' hcopy
      rw [iterations_succ fuel hcopy] at hprogress ⊢
      have hfirst := hprogress _ List.mem_cons_self
      rw [List.length_cons]
      split_ifs at hprogress ⊢ with hlt
      · have hlt' : s'.oldX < n := hlt.trans_le hrow.limit
        have hleft' : 1 ≤ s'.iterationsLeft n := by
          unfold iterationsLeft
          split_ifs <;> omega
        have hrest := ih hs' hoX'' hlt'
          (fun it hit => hprogress it (List.mem_cons_of_mem _ hit)) hleft'
        have hdecrease : s'.iterationsLeft n + 1 ≤ s.iterationsLeft n := by
          unfold iterationsLeft
          rcases hfirst with hadv | ⟨hnot, hmoves⟩
          · have hlt : s.oldX < s'.oldX := hadv
            split_ifs <;> omega
          · rw [Iteration.AtRowStart, not_or] at hnot
            have hmoves' : s'.newX ≥ s'.newBuffer.width := hmoves
            have hle : s.oldX ≤ s'.oldX := by
              rcases hadvances with hadv | ⟨hsame, -⟩ <;> omega
            rw [if_pos hmoves', if_neg hnot.2]
            omega
        push_cast
        omega
      · rw [List.length_nil]
        omega
    · rw [iterations_eq_nil _ fun s' hs' => hcopy ⟨s', hs'⟩, List.length_nil]
      omega

theorem copyBody_ne_outOfFuel (s : ReflowState) (oldRow : ROW) (oldRowLimit : ℤ)
    (oldCursorPos : Point) : s.copyBody oldRow oldRowLimit oldCursorPos ≠ .error .outOfFuel := by
  have htext (t : ReflowState) :
      (t.copyText oldRow oldRowLimit oldCursorPos).map some ≠ .error .outOfFuel := by
    unfold copyText
    split
    · simp [Except.map]
    · dsimp only
      split <;> simp [Except.map]
  unfold copyBody
  dsimp only
  split_ifs
  · simp
  · exact htext _
  · exact htext _

theorem copyLoop_ne_outOfFuel (fuel : ℕ)
    (hlength : (iterations oldRow oldRowLimit oldCursorPos fuel s).length < fuel) :
    copyLoop oldRow oldRowLimit oldCursorPos fuel s ≠ .error .outOfFuel := by
  induction fuel generalizing s with
  | zero => exact absurd hlength (Nat.not_lt_zero _)
  | succ fuel ih =>
    rw [copyLoop_succ]
    cases hcopy : s.copyBody oldRow oldRowLimit oldCursorPos with
    | error e =>
      intro h
      rw [Except.bind, Except.error.injEq] at h
      exact copyBody_ne_outOfFuel s oldRow oldRowLimit oldCursorPos (h ▸ hcopy)
    | ok next =>
      cases next with
      | none => simp [Except.bind]
      | some s' =>
        rw [iterations_succ fuel hcopy, List.length_cons] at hlength
        simp only [Except.bind, Option.elim]
        split_ifs at hlength ⊢
        · exact ih (Nat.lt_of_succ_lt_succ hlength)
        · simp

theorem copyLoop_sized (hpos : 0 < W) (hW : W < 0x10000) (hrow : RowOk P n oldRow oldRowLimit)
    (fuel : ℕ) (h : s.Sized P W) (hoX : 0 ≤ s.oldX) (hoX' : s.oldX < n)
    (hloop : copyLoop oldRow oldRowLimit oldCursorPos fuel s = .ok s') : s'.Sized P W := by
  induction fuel generalizing s with
  | zero => cases hloop
  | succ fuel ih =>
    rw [copyLoop_succ] at hloop
    cases hcopy : s.copyBody oldRow oldRowLimit oldCursorPos with
    | error e =>
      rw [hcopy] at hloop
      cases hloop
    | ok next =>
      rw [hcopy] at hloop
      cases next with
      | none =>
        rw [← Except.ok.inj hloop]
        exact h.wrap
      | some t =>
        obtain ⟨ht, hoX'', -⟩ := copyBody_progress h hrow.count hrow.words hpos hW hoX hoX' hcopy
        simp only [Except.bind, Option.elim] at hloop
        split_ifs at hloop with hlt
        · exact ih ht hoX'' (hlt.trans_le hrow.limit) hloop
        · exact Except.ok.inj hloop ▸ ht

/-! ### The loop over the rows -/

theorem Sized.rowOk (hP : ∀ r, P r → r.columnCount = n ∧ r.charOffsets.length = n + 1)
    (h : s.Sized P W) (hcursor : oldCursorPos.x < n) :
    RowOk P n (s.oldBuffer.getRow s.oldY).1
      (s.oldRowLimit (s.oldBuffer.getRow s.oldY).1 oldCursorPos) := by
  have hkind := (h.old.getRow s.oldY).1
  obtain ⟨hcount, hwords⟩ := hP _ hkind
  have hright := (s.oldBuffer.getRow s.oldY).1.measureRight_le
  refine ⟨hkind, hcount, hwords, ?_⟩
  rw [hcount] at hright
  unfold oldRowLimit
  split_ifs <;> omega

theorem copyMark_sized (h : s.Sized P W) (oldRow : ROW) : (s.copyMark oldRow).Sized P W := by
  unfold copyMark
  split_ifs
  · exact h.setNewRow (r := s.newRow.setScrollbarData oldRow.promptData) h.newRow
  · exact h

theorem startRow_sized (h : s.Sized P W) (oldRow : ROW) :
    ({ ({ s with oldBuffer := (s.oldBuffer.getRow s.oldY).2 } : ReflowState).copyMark oldRow with
      oldX := 0 } : ReflowState).Sized P W := by
  have hold : ({ s with oldBuffer := (s.oldBuffer.getRow s.oldY).2 } : ReflowState).Sized P W :=
    ⟨(h.old.getRow s.oldY).2, h.width, h.new, h.newX⟩
  have hmark := copyMark_sized hold oldRow
  exact ⟨hmark.old, hmark.width, hmark.new, hmark.newX⟩

theorem copyFrom_columnCount {r source r' : ROW} {isSelf : Bool}
    (h : r.copyFrom source isSelf = .ok r') : r'.columnCount = r.columnCount := by
  rw [ROW.copyFrom] at h
  cases hcopy : ROW.copyTextFrom
      { r with lineRendition := source.lineRendition, wrapForced := source.wrapForced } source isSelf
      { sourceColumnLimit := source.getReadableColumnCount } with
  | error e =>
    rw [hcopy] at h
    cases h
  | ok copied =>
    obtain ⟨row, state⟩ := copied
    rw [hcopy] at h
    rw [← Except.ok.inj h]
    exact (ROW.copyTextFrom_columnCount hcopy).trans rfl

theorem copyWholeRow_sized (h : s.Sized P W) (hrow : s.copyWholeRow oldRow oldCursorPos = .ok s') :
    s'.Sized P W := by
  unfold copyWholeRow at hrow
  dsimp only at hrow
  -- the row at which the old row is copied
  obtain ⟨t, ht, hcopy⟩ : ∃ t : ReflowState, t.Sized P W ∧
      (if s.newX ≠ 0 then s.newline else s) = t := by
    split_ifs
    · exact ⟨_, h.newline, rfl⟩
    · exact ⟨_, h, rfl⟩
  rw [hcopy] at hrow
  generalize hnew : (if t.newY ≥ t.newBuffer.height then t.newRow.reset t.newBuffer.initialAttributes
    else t.newRow) = newRow at hrow
  have hcount : newRow.columnCount = W := by
    rw [← hnew]
    split_ifs
    · exact ht.newRow
    · exact ht.newRow
  split at hrow
  · cases hrow
  · next copied hcopied =>
    have hcount' := (copyFrom_columnCount hcopied).trans hcount
    have hstored := ht.setNewRow (r := copied.setWrapForced false) hcount'
    rw [← Except.ok.inj hrow]
    split_ifs
    · have hnoted : ({ t.setNewRow (copied.setWrapForced false) with
          newCursorPos := { x := copied.adjustToGlyphStart oldCursorPos.x, y := t.newY } } :
            ReflowState).Sized P W :=
        ⟨hstored.old, hstored.width, hstored.new, hstored.newX⟩
      exact ⟨hnoted.notePosition.old, hnoted.notePosition.width, hnoted.notePosition.new,
        hnoted.notePosition.newX⟩
    · exact ⟨hstored.notePosition.old, hstored.notePosition.width, hstored.notePosition.new,
        hstored.notePosition.newX⟩

theorem copyWholeRow_ne_outOfFuel (s : ReflowState) (oldRow : ROW) (oldCursorPos : Point) :
    s.copyWholeRow oldRow oldCursorPos ≠ .error .outOfFuel := by
  unfold copyWholeRow
  dsimp only
  split
  · simp
  · simp

theorem copyRow_sized (hP : ∀ r, P r → r.columnCount = n ∧ r.charOffsets.length = n + 1)
    (hpos : 0 < W) (hW : W < 0x10000) (hn : 0 < n) (fuel : ℕ) (h : s.Sized P W)
    (hcursor : oldCursorPos.x < n) (hrow : s.copyRow fuel oldCursorPos = .ok s') : s'.Sized P W := by
  have hold : ({ s with oldBuffer := (s.oldBuffer.getRow s.oldY).2 } : ReflowState).Sized P W :=
    ⟨(h.old.getRow s.oldY).2, h.width, h.new, h.newX⟩
  unfold copyRow at hrow
  dsimp only at hrow
  obtain ⟨t, ht, rfl⟩ := map_eq_ok.mp hrow
  have hsized : t.Sized P W := by
    split_ifs at ht
    · obtain ⟨u, hu, rfl⟩ := map_eq_ok.mp ht
      have hloop := copyLoop_sized hpos hW (h.rowOk hP hcursor) fuel (startRow_sized h _) le_rfl
        (Int.natCast_pos.mpr hn) hu
      split_ifs
      · exact hloop
      · exact hloop.newline
    · exact copyWholeRow_sized hold ht
  exact ⟨hsized.old, hsized.width, hsized.new, hsized.newX⟩

theorem copyRow_ne_outOfFuel (fuel : ℕ) (s : ReflowState) (oldCursorPos : Point)
    (hlength : (s.rowIterations fuel oldCursorPos).length < fuel) :
    s.copyRow fuel oldCursorPos ≠ .error .outOfFuel := by
  unfold copyRow
  unfold rowIterations at hlength
  dsimp only at hlength ⊢
  intro h
  have h := map_eq_error.mp h
  split_ifs at h hlength
  · exact copyLoop_ne_outOfFuel fuel hlength (map_eq_error.mp h)
  · exact copyWholeRow_ne_outOfFuel _ _ _ h

theorem rowIterations_ok (hP : ∀ r, P r → r.columnCount = n ∧ r.charOffsets.length = n + 1)
    (hpos : 0 < W) (hW : W < 0x10000) (hn : 0 < n) (fuel : ℕ)
    (h : s.Sized P W) (hcursor : oldCursorPos.x < n) :
    ∀ it ∈ s.rowIterations fuel oldCursorPos, IterationOk P W it := by
  unfold rowIterations
  dsimp only
  split_ifs
  · exact iterations_ok hpos hW (h.rowOk hP hcursor) fuel (startRow_sized h _) le_rfl
      (Int.natCast_pos.mpr hn)
  · exact fun it hit => absurd hit List.not_mem_nil

theorem length_rowIterations_le (hP : ∀ r, P r → r.columnCount = n ∧ r.charOffsets.length = n + 1)
    (hpos : 0 < W) (hW : W < 0x10000) (hn : 0 < n) (fuel : ℕ)
    (h : s.Sized P W) (hcursor : oldCursorPos.x < n)
    (hprogress : ∀ it ∈ s.rowIterations fuel oldCursorPos, it.Progresses) :
    (s.rowIterations fuel oldCursorPos).length ≤ 2 * n := by
  unfold rowIterations at hprogress ⊢
  dsimp only at hprogress ⊢
  split_ifs at hprogress ⊢
  · have hlength := length_iterations_le hpos hW (h.rowOk hP hcursor) fuel (startRow_sized h _)
      le_rfl (Int.natCast_pos.mpr hn) hprogress
    have hle := hlength.trans (iterationsLeft_le n (s := _) rfl)
    exact_mod_cast hle
  · exact Nat.zero_le _

theorem rowsIterations_succ (fuel count : ℕ) (s : ReflowState) (oldCursorPos : Point) :
    ∃ rest, s.rowsIterations fuel oldCursorPos (count + 1) =
        (if s.newY < s.newYLimit then s.rowIterations fuel oldCursorPos ++ rest else []) ∧
      (rest = [] ∨ ∃ s', s.copyRow fuel oldCursorPos = .ok s' ∧
        rest = s'.rowsIterations fuel oldCursorPos count) := by
  rw [rowsIterations]
  cases hrow : s.copyRow fuel oldCursorPos with
  | error e => exact ⟨[], rfl, .inl rfl⟩
  | ok s' => exact ⟨_, rfl, .inr ⟨s', rfl, rfl⟩⟩

theorem rowsIterations_ok (hP : ∀ r, P r → r.columnCount = n ∧ r.charOffsets.length = n + 1)
    (hpos : 0 < W) (hW : W < 0x10000) (hn : 0 < n) (fuel count : ℕ)
    (h : s.Sized P W) (hcursor : oldCursorPos.x < n) :
    ∀ it ∈ s.rowsIterations fuel oldCursorPos count, IterationOk P W it := by
  induction count generalizing s with
  | zero => exact fun it hit => absurd hit List.not_mem_nil
  | succ count ih =>
    obtain ⟨rest, heq, hrest⟩ := rowsIterations_succ fuel count s oldCursorPos
    intro it hit
    rw [heq] at hit
    split_ifs at hit
    · rcases List.mem_append.mp hit with hit | hit
      · exact rowIterations_ok hP hpos hW hn fuel h hcursor it hit
      · rcases hrest with rfl | ⟨s', hrow, rfl⟩
        · exact absurd hit List.not_mem_nil
        · exact ih (copyRow_sized hP hpos hW hn fuel h hcursor hrow) it hit
    · exact absurd hit List.not_mem_nil

theorem length_rowsIterations_le (hP : ∀ r, P r → r.columnCount = n ∧ r.charOffsets.length = n + 1)
    (hpos : 0 < W) (hW : W < 0x10000) (hn : 0 < n) (fuel count : ℕ)
    (h : s.Sized P W) (hcursor : oldCursorPos.x < n)
    (hprogress : ∀ it ∈ s.rowsIterations fuel oldCursorPos count, it.Progresses) :
    (s.rowsIterations fuel oldCursorPos count).length ≤ 2 * n * count := by
  induction count generalizing s with
  | zero => exact Nat.zero_le _
  | succ count ih =>
    obtain ⟨rest, heq, hrest⟩ := rowsIterations_succ fuel count s oldCursorPos
    rw [heq] at hprogress ⊢
    split_ifs at hprogress ⊢
    · have hrow := length_rowIterations_le hP hpos hW hn fuel h hcursor
        fun it hit => hprogress it (List.mem_append_left _ hit)
      have hlength : rest.length ≤ 2 * n * count := by
        rcases hrest with rfl | ⟨s', hrow, rfl⟩
        · exact Nat.zero_le _
        · exact ih (copyRow_sized hP hpos hW hn fuel h hcursor hrow)
            fun it hit => hprogress it (List.mem_append_right _ hit)
      rw [List.length_append, Nat.mul_succ]
      omega
    · exact Nat.zero_le _

theorem copyRows_ne_outOfFuel (hP : ∀ r, P r → r.columnCount = n ∧ r.charOffsets.length = n + 1)
    (hpos : 0 < W) (hW : W < 0x10000) (hn : 0 < n) (fuel count : ℕ)
    (hfuel : 2 * n < fuel) (h : s.Sized P W) (hcursor : oldCursorPos.x < n)
    (hprogress : ∀ it ∈ s.rowsIterations fuel oldCursorPos count, it.Progresses) :
    copyRows fuel oldCursorPos count s ≠ .error .outOfFuel := by
  induction count generalizing s with
  | zero => simp [copyRows]
  | succ count ih =>
    rw [rowsIterations] at hprogress
    rw [copyRows]
    split_ifs at hprogress ⊢
    · have hlength := length_rowIterations_le hP hpos hW hn fuel h hcursor
        fun it hit => hprogress it (List.mem_append_left _ hit)
      have hends := copyRow_ne_outOfFuel fuel s oldCursorPos (hlength.trans_lt hfuel)
      cases hrow : s.copyRow fuel oldCursorPos with
      | error e =>
        rw [hrow] at hends
        exact hends
      | ok s' =>
        rw [hrow] at hprogress
        exact ih (copyRow_sized hP hpos hW hn fuel h hcursor hrow)
          fun it hit => hprogress it (List.mem_append_right _ hit)
    · simp

end ReflowState

/-! ### The whole of Reflow -/

namespace TextBuffer

/-- The rows of a buffer, of which no more are committed than there are, have its width. -/
structure WellSized (b : TextBuffer) : Prop where
  width_pos : 0 < b.width
  height_pos : 0 < b.height
  rows : b.AllRows fun r => r.columnCount = b.width ∧ r.charOffsets.length = b.width + 1
  length_rows : b.rows.length ≤ b.height + 1

theorem wellSized_new (width height : ℕ) (attributes : TextAttribute) (cursorSize : ℕ) :
    (new width height attributes cursorSize).WellSized where
  width_pos := Nat.lt_of_lt_of_le Nat.one_pos (Nat.le_max_right width 1)
  height_pos := Nat.lt_of_lt_of_le Nat.one_pos (Nat.le_max_right height 1)
  rows := ⟨⟨rfl, length_iotaN _ _⟩, fun _ hr => absurd hr List.not_mem_nil⟩
  length_rows := Nat.zero_le _

variable {P : ROW → Prop} {b : TextBuffer}

theorem lastNonSpaceLoop_allRows (viewportTop : ℤ) (fuel : ℕ) {x y : ℤ} (h : b.AllRows P) :
    (lastNonSpaceLoop viewportTop fuel x y b).1.y ≤ y ∧
      (lastNonSpaceLoop viewportTop fuel x y b).2.AllRows P := by
  induction fuel generalizing x y b with
  | zero => exact ⟨le_rfl, h⟩
  | succ fuel ih =>
    rw [lastNonSpaceLoop]
    split_ifs
    · obtain ⟨hle, hrows⟩ := ih (x := (b.getRow (y - 1)).1.measureRight - 1) (y := y - 1)
        (h.getRow (y - 1)).2
      exact ⟨hle.trans (by omega), hrows⟩
    · exact ⟨le_rfl, h⟩

theorem getLastNonSpaceCharacter_allRows (h : b.AllRows P) (hheight : 0 < b.height)
    (hlength : b.rows.length ≤ b.height + 1) (viewOptional : Option Viewport) :
    (b.getLastNonSpaceCharacter viewOptional).1.y < b.height ∧
      (b.getLastNonSpaceCharacter viewOptional).2.AllRows P := by
  unfold getLastNonSpaceCharacter estimateOffsetOfLastCommittedRow
  dsimp only
  obtain ⟨hle, hrows⟩ := lastNonSpaceLoop_allRows ((viewOptional.getD b.getSize).top)
    ((min (viewOptional.getD b.getSize).bottomInclusive (b.rows.length - 2 : ℕ) -
      (viewOptional.getD b.getSize).top).toNat)
    (x := (b.getRow (min (viewOptional.getD b.getSize).bottomInclusive
      (b.rows.length - 2 : ℕ))).1.measureRight - 1)
    (y := min (viewOptional.getD b.getSize).bottomInclusive (b.rows.length - 2 : ℕ))
    (h.getRow (min (viewOptional.getD b.getSize).bottomInclusive (b.rows.length - 2 : ℕ))).2
  refine ⟨?_, hrows⟩
  omega

section Reflow

variable {old : TextBuffer} {w h : ℕ} {attributes : TextAttribute} {cursorSize : ℕ}
  {lastCharacterViewport : Option Viewport} {positionInfo : Option PositionInformation}

theorem reflowIterations_ok (hold : old.WellSized) (hkind : old.AllRows P) (hw : w < 0x10000)
    (h : ℕ) (attributes : TextAttribute) (cursorSize : ℕ) (lastCharacterViewport : Option Viewport)
    (positionInfo : Option PositionInformation) :
    (∀ fuel, ∀ it ∈ old.reflowIterations fuel (new w h attributes cursorSize) lastCharacterViewport
        positionInfo, ReflowState.IterationOk P (max w 1) it) ∧
      ((∀ fuel, ∀ it ∈ old.reflowIterations fuel (new w h attributes cursorSize)
          lastCharacterViewport positionInfo, it.Progresses) →
        old.MakesProgress (new w h attributes cursorSize) lastCharacterViewport positionInfo) := by
  have hpos : 0 < max w 1 := by omega
  have hW : max w 1 < 0x10000 := by omega
  have hP : ∀ r, (P r ∧ r.columnCount = old.width ∧ r.charOffsets.length = old.width + 1) →
      r.columnCount = old.width ∧ r.charOffsets.length = old.width + 1 := fun _ hr => hr.2
  have hlast := getLastNonSpaceCharacter_allRows (hkind.and hold.rows) hold.height_pos
    hold.length_rows lastCharacterViewport
  let oldCursorPos : Point :=
    { x := clampInt old.cursor.position.x 0 (old.width - 1)
      y := clampInt old.cursor.position.y 0 (old.height - 1) }
  let start : ReflowState :=
    { oldBuffer := (old.getLastNonSpaceCharacter lastCharacterViewport).2
      newBuffer := new w h attributes cursorSize
      positionInfo
      mutableViewportTop := (positionInfo.map (·.mutableViewportTop)).getD coordTypeMax
      visibleViewportTop := (positionInfo.map (·.visibleViewportTop)).getD coordTypeMax }
  have hstart : start.Sized (fun r => P r ∧ r.columnCount = old.width ∧
      r.charOffsets.length = old.width + 1) (max w 1) :=
    ⟨hlast.2, rfl, ⟨rfl, fun _ hr => absurd hr List.not_mem_nil⟩, le_rfl⟩
  have hcursorX : oldCursorPos.x < old.width := by
    have := hold.width_pos
    simp only [oldCursorPos, clampInt]
    split_ifs <;> omega
  have hcursorY : oldCursorPos.y < old.height := by
    have := hold.height_pos
    simp only [oldCursorPos, clampInt]
    split_ifs <;> omega
  let count :=
    (max (old.getLastNonSpaceCharacter lastCharacterViewport).1.y oldCursorPos.y + 1).toNat
  have hcount : count ≤ old.height := by
    have := hlast.1
    simp only [count]
    omega
  refine ⟨fun fuel it hit => ?_, fun hprogress =>
    ⟨hprogress, fun fuel => ?_, fun fuel hfuel herror => ?_⟩⟩
  · have hok := ReflowState.rowsIterations_ok hP hpos hW hold.width_pos fuel count hstart hcursorX
      it hit
    exact ⟨hok.kind.1, hok.width, hok.progresses_iff⟩
  · exact (ReflowState.length_rowsIterations_le hP hpos hW hold.width_pos fuel count hstart hcursorX
      (hprogress fuel)).trans (Nat.mul_le_mul_left _ hcount)
  · exact ReflowState.copyRows_ne_outOfFuel hP hpos hW hold.width_pos fuel count hfuel hstart
      hcursorX (hprogress fuel) (map_eq_error.mp herror)

/-- `TextBuffer::Reflow` makes progress if and only if no iteration at the start of a row meets a
glyph that is wider than the new buffer. -/
theorem reflow_makesProgress_iff (hold : old.WellSized) (hw : w < 0x10000) :
    old.MakesProgress (new w h attributes cursorSize) lastCharacterViewport positionInfo ↔
      ∀ fuel, ∀ it ∈ old.reflowIterations fuel (new w h attributes cursorSize) lastCharacterViewport
        positionInfo, ¬ it.Sticks := by
  obtain ⟨hok, hends⟩ := reflowIterations_ok hold hold.rows hw h attributes cursorSize
    lastCharacterViewport positionInfo
  constructor
  · intro hprogress fuel it hit
    exact (hok fuel it hit).progresses_iff.mp (hprogress.progresses fuel it hit)
  · intro hsticks
    exact hends fun fuel it hit => (hok fuel it hit).progresses_iff.mpr (hsticks fuel it hit)

/-- An empty buffer is reflowed into a single column. -/
theorem reflow_makesProgress_blank :
    (new 3 2 {} 25).MakesProgress (new 1 4 {} 25) none none := by
  have hold := wellSized_new 3 2 {} 25
  have hkind : (new 3 2 {} 25).AllRows fun r => r = ROW.construct 3 {} :=
    ⟨rfl, fun _ hr => absurd hr List.not_mem_nil⟩
  refine (reflow_makesProgress_iff hold (by decide)).mpr fun fuel it hit => ?_
  obtain ⟨hok, -⟩ := reflowIterations_ok (w := 1) hold hkind (by decide) 4 {} 25 none none
  rintro ⟨-, hlt, -, -, htrailers⟩
  have hwidth := (hok fuel it hit).width
  rw [(hok fuel it hit).kind] at hlt htrailers
  have hlimit := (ROW.construct 3 {}).clampedColumnInclusive_le it.oldRowLimit
  have htrailer := htrailers 1 Nat.one_pos (by omega) (by omega)
  have hblank : ∀ c < 3, (ROW.construct 3 {}).uncheckedIsTrailer (c + 1) = false := by decide
  have hcount : (ROW.construct 3 {}).columnCount = 3 := rfl
  exact Bool.false_ne_true ((hblank _ (by omega)).symm.trans htrailer)

/-- A wide glyph and a single column: the loop copies nothing, and goes on with the next row. -/
theorem not_reflow_makesProgress_wide :
    let old : TextBuffer :=
      { rows := [ROW.construct 2 {},
          { chars := [0x3042, space], charOffsets := [0, 0x8000, 1], attr := [{}, {}]
            columnCount := 2 }]
        width := 2, height := 1 }
    old.WellSized ∧ ¬ old.MakesProgress (new 1 2 {} 25) none none := by
  intro old
  have hsized : old.WellSized := by
    refine ⟨by decide, by decide, ⟨by decide, fun r hr => ?_⟩, by decide⟩
    rcases List.mem_cons.mp hr with rfl | hr
    · exact ⟨rfl, rfl⟩
    · rw [List.mem_singleton.mp hr]
      exact ⟨rfl, rfl⟩
  refine ⟨hsized, fun h => absurd (h.progresses 1) ?_⟩
  decide +kernel

end Reflow

end TextBuffer

end IntelligentTerminal.Buffer
