import Mathlib.Data.List.DropRight
import IntelligentTerminal.Data.Glyph

/-!
# Lines of text on rows of cells

A row of text is a sequence of glyphs and a flag that says whether the row is wrapped, that is,
whether the next row continues its line. The logical lines of a list of rows are read off the
stream of its glyphs and line breaks; blanks at the end of a line and empty lines at the end do
not count.

`Layout` fills rows of `W` cells from the left. A full row is wrapped only when there is more to
put on its line, be it another glyph or the beginning of another row of the input. Laying rows
out at another width keeps their stream (`stream_layout`), and so their lines.
-/

namespace IntelligentTerminal

open Glyph

variable {α : Type*}

/-- The glyphs of a row and whether its line continues on the next row. -/
abbrev TextRow (α : Type*) := List (Glyph α) × Bool

/-- The glyphs of rows, with a line break after each row that is not wrapped. -/
def stream (rows : List (TextRow α)) : List (Option (Glyph α)) :=
  rows.flatMap fun r => r.1.map some ++ if r.2 then [] else [none]

@[simp] theorem stream_nil : stream ([] : List (TextRow α)) = [] := rfl

theorem stream_cons (r : TextRow α) (rows : List (TextRow α)) :
    stream (r :: rows) = r.1.map some ++ (if r.2 then [] else [none]) ++ stream rows := rfl

theorem stream_append (rows rows' : List (TextRow α)) :
    stream (rows ++ rows') = stream rows ++ stream rows' :=
  List.flatMap_append

/-- The lines of a stream. -/
def linesOf : List (Option (Glyph α)) → List (List (Glyph α))
  | [] => []
  | none :: s => [] :: linesOf s
  | some g :: s =>
    match linesOf s with
    | [] => [[g]]
    | l :: ls => (g :: l) :: ls

variable [DecidableEq α] (sp : α)

/-- Lines without the blanks at their end, and without the empty lines at the end. -/
def trim (ls : List (List (Glyph α))) : List (List (Glyph α)) :=
  (ls.map (List.rdropWhile (· = blank sp))).rdropWhile (· = [])

/-- The logical lines of rows. -/
def logicalLines (rows : List (TextRow α)) : List (List (Glyph α)) :=
  trim sp (linesOf (stream rows))

/-! ### Trimmed lines, from the right -/

theorem rdropWhile_cons {β : Type*} (p : β → Bool) (a : β) (l : List β) :
    (a :: l).rdropWhile p = if l.rdropWhile p = [] ∧ p a then [] else a :: l.rdropWhile p := by
  induction l using List.reverseRecOn with
  | nil =>
    rw [List.rdropWhile_singleton, List.rdropWhile_nil]
    simp
  | append_singleton l b ih =>
    rw [← List.cons_append, List.rdropWhile_concat, List.rdropWhile_concat]
    split_ifs with hb <;> simp_all

/-- What a glyph or a line break in front of trimmed lines makes of them. -/
def trimStep : Option (Glyph α) → List (List (Glyph α)) → List (List (Glyph α))
  | none, [] => []
  | none, l :: ls => [] :: l :: ls
  | some g, [] => if g = blank sp then [] else [[g]]
  | some g, l :: ls => (if l = [] ∧ g = blank sp then [] else g :: l) :: ls

variable {sp}

theorem trim_cons (l : List (Glyph α)) (ls : List (List (Glyph α))) :
    trim sp (l :: ls) =
      if trim sp ls = [] ∧ l.rdropWhile (· = blank sp) = [] then []
      else l.rdropWhile (· = blank sp) :: trim sp ls := by
  rw [trim, List.map_cons, rdropWhile_cons]
  simp only [trim, decide_eq_true_eq]
  congr

theorem trim_linesOf_cons (x : Option (Glyph α)) (s : List (Option (Glyph α))) :
    trim sp (linesOf (x :: s)) = trimStep sp x (trim sp (linesOf s)) := by
  cases x with
  | none =>
    rw [linesOf, trim_cons, List.rdropWhile_nil]
    cases trim sp (linesOf s) <;> simp [trimStep]
  | some g =>
    rw [linesOf]
    cases hs : linesOf s with
    | nil =>
      simp only
      rw [trim_cons, List.rdropWhile_singleton]
      by_cases hg : g = blank sp <;> simp [hg, trim, trimStep]
    | cons l ls =>
      simp only
      rw [trim_cons, trim_cons, rdropWhile_cons]
      by_cases hls : trim sp ls = [] <;> by_cases hl : l.rdropWhile (· = blank sp) = [] <;>
        by_cases hg : g = blank sp <;> simp [hls, hl, hg, trimStep]

theorem trim_linesOf_append (s t : List (Option (Glyph α))) :
    trim sp (linesOf (s ++ t)) = s.foldr (trimStep sp) (trim sp (linesOf t)) := by
  induction s with
  | nil => rfl
  | cons x s ih => rw [List.cons_append, trim_linesOf_cons, ih, List.foldr_cons]

theorem trim_blanks_break (k : ℕ) (s : List (Option (Glyph α))) :
    ((blanks sp k).map some).foldr (trimStep sp) (trim sp (linesOf (none :: s))) =
      trim sp (linesOf (none :: s)) := by
  have hstep : trimStep sp (some (blank sp)) (trim sp (linesOf (none :: s))) =
      trim sp (linesOf (none :: s)) := by
    rw [trim_linesOf_cons]
    cases trim sp (linesOf s) <;> simp [trimStep]
  induction k with
  | zero => rfl
  | succ k ih =>
    rw [blanks, List.replicate_succ, List.map_cons, List.foldr_cons]
    rw [blanks] at ih
    rw [ih, hstep]

theorem trim_eq_nil {s : List (Option (Glyph α))} (h : ∀ x ∈ s, x = none ∨ x = some (blank sp)) :
    trim sp (linesOf s) = [] := by
  induction s with
  | nil => rfl
  | cons x s ih =>
    rw [trim_linesOf_cons, ih fun y hy => h y (List.mem_cons_of_mem x hy)]
    rcases h x List.mem_cons_self with rfl | rfl
    · rfl
    · simp [trimStep]

theorem trim_append_of_blank (s : List (Option (Glyph α))) {t : List (Option (Glyph α))}
    (h : ∀ x ∈ t, x = none ∨ x = some (blank sp)) :
    trim sp (linesOf (s ++ t)) = trim sp (linesOf s) := by
  rw [trim_linesOf_append, trim_eq_nil h]
  have h' : trim sp (linesOf (s ++ [])) = s.foldr (trimStep sp) (trim sp (linesOf [])) :=
    trim_linesOf_append s []
  rw [List.append_nil] at h'
  exact h'.symm

/-- The rows agree up to blanks at the end of a line. -/
def SameRow (sp : α) (r r' : TextRow α) : Prop :=
  r.2 = r'.2 ∧ (r.1 = r'.1 ∨ r.2 = false ∧ ∃ t k k', r.1 = t ++ blanks sp k ∧
    r'.1 = t ++ blanks sp k')

theorem SameRow.trim_eq {r r' : TextRow α} (h : SameRow sp r r') (s : List (Option (Glyph α))) :
    trim sp (linesOf (r.1.map some ++ (if r.2 then [] else [none]) ++ s)) =
      trim sp (linesOf (r'.1.map some ++ (if r'.2 then [] else [none]) ++ s)) := by
  obtain ⟨hwrap, heq | ⟨hw, t, k, k', heq, heq'⟩⟩ := h
  · rw [heq, hwrap]
  · rw [← hwrap, hw, heq, heq']
    simp only [Bool.false_eq_true, if_false, List.map_append, List.append_assoc,
      List.singleton_append]
    rw [trim_linesOf_append, trim_linesOf_append, trim_blanks_break, trim_linesOf_append,
      trim_linesOf_append, trim_blanks_break]

theorem logicalLines_congr {rows rows' : List (TextRow α)}
    (h : List.Forall₂ (SameRow sp) rows rows') : logicalLines sp rows = logicalLines sp rows' := by
  suffices hs : ∀ t, trim sp (linesOf (stream rows ++ t)) = trim sp (linesOf (stream rows' ++ t)) by
    have := hs []
    rwa [List.append_nil, List.append_nil] at this
  induction h with
  | nil =>
    intro t
    rfl
  | cons hr _ ih =>
    intro t
    rw [stream_cons, stream_cons, List.append_assoc _ (stream _) t, hr.trim_eq,
      List.append_assoc _ (stream _) t, trim_linesOf_append, ih, ← trim_linesOf_append]

theorem logicalLines_append_blank (rows : List (TextRow α)) {rows' : List (TextRow α)}
    (h : ∀ r ∈ rows', ∀ g ∈ r.1, g = blank sp) :
    logicalLines sp (rows ++ rows') = logicalLines sp rows := by
  rw [logicalLines, stream_append]
  refine trim_append_of_blank _ fun x hx => ?_
  obtain ⟨r, hr, hx⟩ := List.mem_flatMap.mp hx
  rcases List.mem_append.mp hx with hx | hx
  · obtain ⟨g, hg, rfl⟩ := List.mem_map.mp hx
    exact Or.inr (congrArg some (h r hr g hg))
  · left
    split_ifs at hx
    · simp at hx
    · simpa using hx

/-! ### Filling rows -/

omit [DecidableEq α]

/-- Rows that have been filled, the row that is being filled, and whether there is one. -/
structure Layout (α : Type*) where
  done : List (TextRow α) := []
  cur : List (Glyph α) := []
  opened : Bool := false

namespace Layout

/-- Wraps the row that is being filled. -/
def wrap (L : Layout α) : Layout α := { L with done := L.done ++ [(L.cur, true)], cur := [] }

/-- Puts a glyph on the line. -/
def put (W : ℕ) (L : Layout α) (g : Glyph α) : Layout α :=
  if cols L.cur + g.width ≤ W then { L with cur := L.cur ++ [g] }
  else { L.wrap with cur := [g] }

/-- Begins a row of the input. -/
def begin (W : ℕ) (L : Layout α) : Layout α :=
  { (if cols L.cur < W then L else L.wrap) with opened := true }

/-- Ends a row of the input; the line ends unless the row is wrapped. -/
def endRow (L : Layout α) (wraps : Bool) : Layout α :=
  if wraps then L else { done := L.done ++ [(L.cur, false)] }

/-- Lays a row of the input out. -/
def row (W : ℕ) (L : Layout α) (r : TextRow α) : Layout α :=
  (r.1.foldl (put W) (L.begin W)).endRow r.2

/-- All rows, with the row that is being filled. -/
def close (L : Layout α) : List (TextRow α) :=
  if L.opened then L.done ++ [(L.cur, false)] else L.done

end Layout

/-- The rows of `W` cells that the rows of the input take. -/
def layout (W : ℕ) (rows : List (TextRow α)) : List (TextRow α) :=
  (rows.foldl (Layout.row W) {}).close

namespace Layout

variable {W : ℕ} {L : Layout α}

/-! ### The stream -/

/-- The stream of all rows, without an end of the last line. -/
def toStream (L : Layout α) : List (Option (Glyph α)) := stream L.done ++ L.cur.map some

theorem toStream_wrap (L : Layout α) : L.wrap.toStream = L.toStream := by
  simp [toStream, wrap, stream_append, stream_cons]

theorem toStream_put (L : Layout α) (g : Glyph α) :
    (L.put W g).toStream = L.toStream ++ [some g] := by
  unfold put
  split_ifs
  · simp [toStream]
  · have := L.toStream_wrap
    simp only [toStream, wrap, List.map_nil, List.append_nil] at this
    simp only [toStream, wrap, this]
    simp

theorem toStream_foldl_put (L : Layout α) (t : List (Glyph α)) :
    (t.foldl (put W) L).toStream = L.toStream ++ t.map some := by
  induction t generalizing L with
  | nil => simp
  | cons g t ih => rw [List.foldl_cons, ih, toStream_put, List.append_assoc, List.map_cons]; rfl

theorem toStream_begin (L : Layout α) : (L.begin W).toStream = L.toStream := by
  unfold begin
  split_ifs
  · rfl
  · exact L.toStream_wrap

theorem toStream_endRow (L : Layout α) (wraps : Bool) :
    (L.endRow wraps).toStream = L.toStream ++ if wraps then [] else [none] := by
  unfold endRow
  cases wraps <;> simp [toStream, stream_append, stream_cons]

theorem toStream_row (L : Layout α) (r : TextRow α) :
    (L.row W r).toStream = L.toStream ++ stream [r] := by
  rw [row, toStream_endRow, toStream_foldl_put, toStream_begin, stream_cons]
  simp

theorem toStream_foldl_row (L : Layout α) (rows : List (TextRow α)) :
    (rows.foldl (row W) L).toStream = L.toStream ++ stream rows := by
  induction rows generalizing L with
  | nil => simp
  | cons r rows ih =>
    rw [List.foldl_cons, ih, toStream_row, List.append_assoc, ← stream_append, List.singleton_append]

/-! ### Rows that are not being filled -/

theorem opened_foldl_put (L : Layout α) (t : List (Glyph α)) :
    (t.foldl (put W) L).opened = L.opened := by
  induction t generalizing L with
  | nil => rfl
  | cons g t ih =>
    rw [List.foldl_cons, ih]
    unfold put
    split_ifs <;> rfl

/-- Between rows of the input, the last row is being filled or there is none. -/
def Tidy (L : Layout α) : Prop := L.opened = false → L.cur = []

theorem tidy_row (L : Layout α) (r : TextRow α) : (L.row W r).Tidy := by
  unfold Tidy row endRow
  split_ifs
  · rw [opened_foldl_put]
    exact fun h => by simp [begin] at h
  · exact fun _ => rfl

theorem tidy_foldl_row (hL : L.Tidy) (rows : List (TextRow α)) : (rows.foldl (row W) L).Tidy := by
  induction rows generalizing L with
  | nil => exact hL
  | cons r rows ih => exact ih (L.tidy_row r)

/-! ### Full rows -/

/-- No row has more than `W` cells, and a wrapped row has at most one free cell. -/
structure Full (W : ℕ) (L : Layout α) : Prop where
  cols_le : ∀ r ∈ L.done, cols r.1 ≤ W
  le_cols : ∀ r ∈ L.done, r.2 = true → W ≤ cols r.1 + 1
  cols_cur_le : cols L.cur ≤ W

theorem full_wrap (hL : L.Full W) (h : W ≤ cols L.cur + 1) (cur : List (Glyph α))
    (hcur : cols cur ≤ W) (opened : Bool) : ({ L.wrap with cur, opened } : Layout α).Full W where
  cols_le r hr := by
    rcases List.mem_append.mp hr with hr | hr
    · exact hL.cols_le r hr
    · rw [List.mem_singleton.mp hr]
      exact hL.cols_cur_le
  le_cols r hr hw := by
    rcases List.mem_append.mp hr with hr | hr
    · exact hL.le_cols r hr hw
    · rw [List.mem_singleton.mp hr]
      exact h
  cols_cur_le := hcur

theorem full_put (hW : 2 ≤ W) (hL : L.Full W) (g : Glyph α) : (L.put W g).Full W := by
  have hg := g.width_le
  unfold put
  split_ifs with h
  · exact ⟨hL.cols_le, hL.le_cols, by simpa using h⟩
  · exact full_wrap hL (by omega) [g] (by simpa using hg.trans hW) L.opened

theorem full_begin (hL : L.Full W) : (L.begin W).Full W := by
  unfold begin
  split_ifs with h
  · exact ⟨hL.cols_le, hL.le_cols, hL.cols_cur_le⟩
  · exact full_wrap hL (by omega) [] (Nat.zero_le W) true

theorem full_foldl_put (hW : 2 ≤ W) (hL : L.Full W) (t : List (Glyph α)) :
    (t.foldl (put W) L).Full W := by
  induction t generalizing L with
  | nil => exact hL
  | cons g t ih => exact ih (full_put hW hL g)

theorem full_row (hW : 2 ≤ W) (hL : L.Full W) (r : TextRow α) : (L.row W r).Full W := by
  have h := full_foldl_put hW (full_begin hL) r.1
  unfold row endRow
  split_ifs
  · exact h
  · refine ⟨fun p hp => ?_, fun p hp hw => ?_, Nat.zero_le W⟩
    · rcases List.mem_append.mp hp with hp | hp
      · exact h.cols_le p hp
      · rw [List.mem_singleton.mp hp]
        exact h.cols_cur_le
    · rcases List.mem_append.mp hp with hp | hp
      · exact h.le_cols p hp hw
      · rw [List.mem_singleton.mp hp] at hw
        cases hw

/-! ### Taking glyphs by the row -/

theorem foldl_put_fitting (L : Layout α) (t : List (Glyph α)) :
    (fitting (W - cols L.cur) t).foldl (put W) L =
      { L with cur := L.cur ++ fitting (W - cols L.cur) t } := by
  induction t generalizing L with
  | nil => simp [fitting]
  | cons g t ih =>
    rw [fitting]
    split_ifs with h
    · have hpos := g.width_pos
      have hput : L.put W g = { L with cur := L.cur ++ [g] } := if_pos (by omega)
      have hsub : W - cols L.cur - g.width = W - cols (L.cur ++ [g]) := by
        simp only [cols_append, cols_cons, cols_nil]
        omega
      have := ih { L with cur := L.cur ++ [g] }
      rw [List.foldl_cons, hput, hsub, this]
      simp
    · simp

theorem put_of_not_fit (hW : 2 ≤ W) {g : Glyph α} (h : W < cols L.cur + g.width) :
    L.put W g = L.wrap.put W g := by
  have hg := g.width_le
  have hcur : cols L.wrap.cur + g.width ≤ W := by
    rw [show L.wrap.cur = [] from rfl, cols_nil]
    omega
  rw [put, if_neg (by omega), put, if_pos hcur]
  rfl

end Layout

/-! ### Rows that were filled stay -/

/-- The rows `rows'` have been filled on from `rows`. -/
structure Grows (rows rows' : List (TextRow α)) : Prop where
  length_le : rows.length ≤ rows'.length
  isPrefix : ∀ r ∈ rows, ∃ r' ∈ rows', r.1 <+: r'.1

namespace Grows

variable {rows rows' rows'' : List (TextRow α)}

theorem refl (rows : List (TextRow α)) : Grows rows rows :=
  ⟨le_rfl, fun r hr => ⟨r, hr, List.prefix_rfl⟩⟩

theorem trans (h : Grows rows rows') (h' : Grows rows' rows'') : Grows rows rows'' := by
  refine ⟨h.length_le.trans h'.length_le, fun r hr => ?_⟩
  obtain ⟨r', hr', hpre⟩ := h.isPrefix r hr
  obtain ⟨r'', hr'', hpre'⟩ := h'.isPrefix r' hr'
  exact ⟨r'', hr'', hpre.trans hpre'⟩

theorem append (done : List (TextRow α)) {t t' : List (Glyph α)} (h : t <+: t') (w w' : Bool)
    (more : List (TextRow α)) : Grows (done ++ [(t, w)]) (done ++ (t', w') :: more) := by
  refine ⟨by simp, fun r hr => ?_⟩
  rcases List.mem_append.mp hr with hr | hr
  · exact ⟨r, List.mem_append_left _ hr, List.prefix_rfl⟩
  · rw [List.mem_singleton.mp hr]
    exact ⟨(t', w'), List.mem_append_right _ List.mem_cons_self, h⟩

theorem append_right (rows more : List (TextRow α)) : Grows rows (rows ++ more) :=
  ⟨by simp, fun r hr => ⟨r, List.mem_append_left _ hr, List.prefix_rfl⟩⟩

end Grows

namespace Layout

variable {W : ℕ} {L : Layout α}

theorem close_of_opened (h : L.opened = true) : L.close = L.done ++ [(L.cur, false)] := if_pos h

theorem grows_put (h : L.opened = true) (g : Glyph α) : Grows L.close (L.put W g).close := by
  rw [close_of_opened h]
  unfold put
  split_ifs
  · rw [close_of_opened (L := { L with cur := L.cur ++ [g] }) h]
    exact .append _ (List.prefix_append _ _) _ _ []
  · rw [close_of_opened (by exact h), wrap]
    simp only [List.append_assoc, List.singleton_append]
    exact .append _ List.prefix_rfl _ _ _

theorem grows_foldl_put (h : L.opened = true) (t : List (Glyph α)) :
    Grows L.close (t.foldl (put W) L).close := by
  induction t generalizing L with
  | nil => exact .refl _
  | cons g t ih =>
    have hg : (L.put W g).opened = true := by
      have := opened_foldl_put (W := W) L [g]
      rwa [h] at this
    exact (grows_put h g).trans (ih hg)

theorem close_begin (W : ℕ) (L : Layout α) : (L.begin W).close =
    if cols L.cur < W then L.done ++ [(L.cur, false)]
    else L.done ++ (L.cur, true) :: [([], false)] := by
  unfold begin
  split_ifs
  · rfl
  · simp [close, wrap]

theorem grows_begin (W : ℕ) (L : Layout α) : Grows L.close (L.begin W).close := by
  rw [close_begin]
  unfold close
  split_ifs
  · exact .refl _
  · exact .append _ List.prefix_rfl _ _ _
  · exact .append_right _ _
  · exact .append_right _ _

theorem grows_endRow (h : L.opened = true) (wraps : Bool) :
    Grows L.close (L.endRow wraps).close := by
  unfold endRow
  split_ifs
  · exact .refl _
  · rw [close_of_opened h]
    exact .refl _

theorem grows_row (L : Layout α) (r : TextRow α) :
    Grows L.close (L.row W r).close := by
  have hopen : (L.begin W).opened = true := rfl
  refine (grows_begin W L).trans ((grows_foldl_put hopen r.1).trans (grows_endRow ?_ r.2))
  rw [opened_foldl_put]
  exact hopen

theorem grows_foldl_row (L : Layout α) (rows : List (TextRow α)) :
    Grows L.close (rows.foldl (row W) L).close := by
  induction rows generalizing L with
  | nil => exact .refl _
  | cons r rows ih => exact (L.grows_row r).trans (ih _)

end Layout

/-! ### Lines -/

variable [DecidableEq α] {sp : α}

theorem logicalLines_layout (W : ℕ) (rows : List (TextRow α)) :
    logicalLines sp (layout W rows) = logicalLines sp rows := by
  have hstream := Layout.toStream_foldl_row (W := W) {} rows
  have htidy : (rows.foldl (Layout.row W) {}).Tidy := Layout.tidy_foldl_row (fun _ => rfl) rows
  rw [layout, logicalLines, logicalLines]
  generalize rows.foldl (Layout.row W) {} = L at hstream htidy ⊢
  have hrows : stream rows = L.toStream := hstream.symm
  unfold Layout.close
  split_ifs with hopen
  · have hclose : stream (L.done ++ [(L.cur, false)]) = stream rows ++ [none] := by
      rw [hrows, Layout.toStream, stream_append, stream_cons]
      simp
    rw [hclose]
    exact trim_append_of_blank _ fun x hx => Or.inl (List.mem_singleton.mp hx)
  · rw [hrows, Layout.toStream, htidy (by simpa using hopen)]
    simp

end IntelligentTerminal
