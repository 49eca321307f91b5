import IntelligentTerminal.Buffer.Row

/-!
# What the writers do to a line of cells

The writers of `ROW`, as they act on the glyphs of the row: each replaces a range of cells
(`CellWrite`). `replaceText` cuts its text into clusters, takes those that fit and, where the
text continues the glyph in front of it, starts with that glyph. The ASCII fast path takes each
unit by itself, without looking at the unit behind the last column.

Source: `src/buffer/out/Row.cpp`, lines 572-861.
-/

namespace IntelligentTerminal.Buffer

open Glyph

/-- A column clamped to a line of `count` cells, the end included. -/
def clampColumn (count : ℕ) (v : ℤ) : ℕ := (clampInt v 0 count).toNat

theorem clampColumn_le (count : ℕ) (v : ℤ) : clampColumn count v ≤ count := by
  unfold clampColumn clampInt
  split_ifs <;> omega

theorem clampColumn_natCast {count c : ℕ} (h : c ≤ count) : clampColumn count c = c := by
  unfold clampColumn clampInt
  split_ifs <;> omega

def glyphOf (text : List WChar) (width : ℕ) : List (Glyph WChar) :=
  if h : text ≠ [] ∧ 0 < width ∧ width ≤ 2 then [⟨text, width, h.1, h.2.1, h.2.2⟩] else []

variable {t : List WChar} {text : List WChar} {gs : List (Glyph WChar)} {b l : ℕ}

theorem exists_glyphOf {width : ℕ} (h : text ≠ []) (hpos : 0 < width)
    (hle : width ≤ 2) : ∃ g, glyphOf text width = [g] ∧ g.text = text ∧ g.width = width :=
  ⟨_, dif_pos ⟨h, hpos, hle⟩, rfl, rfl⟩

/-- A write to a line of cells: the glyphs `new` from `start` on, and blanks up to `stop`. -/
structure CellWrite where
  start : ℕ
  new : List (Glyph WChar)
  stop : ℕ

/-- The line after a write. -/
def CellWrite.apply (w : CellWrite) (gs : List (Glyph WChar)) : List (Glyph WChar) :=
  splice space gs w.start (w.new ++ blanks space (w.stop - (w.start + cols w.new))) w.stop

/-! ### The writes -/

/-- The write of `ReplaceCharacters` at column `b`. -/
def replaceCharactersWrite (gs : List (Glyph WChar)) (b width : ℕ) (chars : List WChar) :
    CellWrite :=
  if b + width ≤ cols gs then { start := b, new := glyphOf chars width, stop := b + width }
  else { start := b, new := [], stop := cols gs }

/-- `ROW::ReplaceCharacters` on a line of cells. -/
def replaceCharactersCells (gs : List (Glyph WChar)) (columnBegin : ℤ) (width : ℕ)
    (chars : List WChar) : List (Glyph WChar) :=
  let b := clampColumn (cols gs) columnBegin
  if b < cols gs ∧ chars ≠ [] then (replaceCharactersWrite gs b width chars).apply gs else gs

/-- The glyphs that `ReplaceText` writes into `k` columns when its text continues no glyph, and
whether it ran out of columns. The clusters are looked for from the unit before the first one
that is not ASCII. -/
def textGlyphs (cwd : CodepointWidthDetector) (k : ℕ) (t : List WChar) : List (Glyph WChar) × Bool :=
  let ascii := WriteHelper.asciiCount k t
  if ascii < min t.length k then
    let rest := cwd.clusters (t.drop (ascii - 1))
    let fit := fitting (k - (ascii - 1)) rest
    ((t.take (ascii - 1)).map single ++ fit, decide (fit ≠ rest))
  else ((t.take ascii).map single, false)

/-- The glyph in front of a column: where it starts, the text that is tried for a cluster with
the new text, and the text it keeps. Where the column cuts the glyph, only the first unit is
tried and a space is kept. -/
structure PrevGlyph where
  col : ℕ := 0
  chars : List WChar := []
  kept : List WChar := []

/-- The glyph in front of column `b`. -/
def prevGlyph : List (Glyph WChar) → ℕ → PrevGlyph
  | [], _ => {}
  | g :: gs, b =>
    if b = 0 then {}
    else if b < g.width then { chars := g.text.take 1, kept := [space] }
    else if b = g.width then { chars := g.text, kept := g.text }
    else
      let p := prevGlyph gs (b - g.width)
      { p with col := g.width + p.col }

/-- Whether a text at column `b` continues the glyph in front of it. Only a text that does not
start with ASCII is tried. -/
def joins (cwd : CodepointWidthDetector) (gs : List (Glyph WChar)) (b : ℕ) (text : List WChar) :
    Bool :=
  !(text.head?.all isAscii) && decide (0 < b) && decide (0 < (cwd.join (prevGlyph gs b).chars text).1)

/-- The write of `ReplaceText` to the columns from `b` to `l`. -/
def replaceTextWrite (cwd : CodepointWidthDetector) (gs : List (Glyph WChar)) (b l : ℕ)
    (text : List WChar) : CellWrite :=
  if joins cwd gs b text then
    let p := prevGlyph gs b
    let state := cwd.join p.chars text
    let width := max 1 state.2
    let rest := cwd.clusters (text.drop state.1)
    let fit := fitting (l - (p.col + width)) rest
    { start := p.col
      new := glyphOf (p.kept ++ text.take state.1) width ++ fit
      stop := if fit = rest then p.col + width + cols fit else l }
  else
    let (new, limited) := textGlyphs cwd (l - b) text
    { start := b, new, stop := if limited then l else b + cols new }

/-- The write of a text that continues the glyph in front of column `b`. -/
def joinedWrite (cwd : CodepointWidthDetector) (gs : List (Glyph WChar)) (b l : ℕ)
    (text : List WChar) : CellWrite :=
  let p := prevGlyph gs b
  let state := cwd.join p.chars text
  let width := max 1 state.2
  let rest := cwd.clusters (text.drop state.1)
  let fit := fitting (l - (p.col + width)) rest
  { start := p.col
    new := glyphOf (p.kept ++ text.take state.1) width ++ fit
    stop := if fit = rest then p.col + width + cols fit else l }

theorem replaceTextWrite_of_joins {cwd : CodepointWidthDetector}
    (hj : joins cwd gs b text = true) :
    replaceTextWrite cwd gs b l text = joinedWrite cwd gs b l text := if_pos hj

/-- `ROW::ReplaceText` on a line of cells. -/
def replaceTextCells (cwd : CodepointWidthDetector) (gs : List (Glyph WChar))
    (state : RowWriteState) : List (Glyph WChar) :=
  let b := clampColumn (cols gs) state.columnBegin
  let l := clampColumn (cols gs) state.columnLimit
  if b < l ∧ state.text ≠ [] then (replaceTextWrite cwd gs b l state.text).apply gs else gs

/-- The write of `CopyTextFrom` to the columns from `b` to `l`, from at most `k` columns of the
glyphs `src`. -/
def copyTextWrite (b l k : ℕ) (src : List (Glyph WChar)) : CellWrite :=
  { start := b, new := fitting (min (l - b) k) src, stop := b + min (l - b) k }

/-- `ROW::CopyTextFrom` on a line of cells. It copies nothing from a source range that starts
inside a wide glyph or that no glyph fits into. -/
def copyTextCells (gs src : List (Glyph WChar)) (isSelf : Bool) (state : RowCopyTextFromState) :
    List (Glyph WChar) :=
  let b := clampColumn (cols gs) state.columnBegin
  let l := clampColumn (cols gs) state.columnLimit
  let sb := clampColumn (cols src) state.sourceColumnBegin
  let sl := clampColumn (cols src) state.sourceColumnLimit
  let rest := src.drop (fitting sb src).length
  if b < l ∧ fitting (sl - sb) rest ≠ [] ∧ isSelf = false ∧ cols (fitting sb src) = sb then
    (copyTextWrite b l (sl - sb) rest).apply gs
  else gs

/-! ### The ASCII fast path -/

theorem textOf_textGlyphs (cwd : CodepointWidthDetector) (k : ℕ) (t : List WChar) :
    (textOf (textGlyphs cwd k t).1).IsPrefix t := by
  unfold textGlyphs
  set ascii := WriteHelper.asciiCount k t
  simp only
  split_ifs with h
  · have hpre := textOf_isPrefix (fitting_isPrefix (k - (ascii - 1))
      (cwd.clusters (t.drop (ascii - 1))))
    rw [cwd.textOf_clusters] at hpre
    obtain ⟨rest, hrest⟩ := hpre
    refine ⟨rest, ?_⟩
    rw [textOf_append, textOf_map_single, List.append_assoc, hrest, List.take_append_drop]
  · rw [textOf_map_single]
    exact List.take_prefix _ _

theorem clusters_ascii_cons (cwd : CodepointWidthDetector) {c : WChar}
    (hc : isAscii c) (ht : (cwd.next (c :: t)).1 = 1) :
    cwd.clusters (c :: t) = single c :: cwd.clusters t := by
  have hw := cwd.next_ascii_width c t hc ht
  rw [cwd.clusters_eq_cons (List.cons_ne_nil c t), ht, List.drop_one, List.tail_cons]
  congr 1
  simp only [CodepointWidthDetector.cluster, ht, single, Glyph.mk.injEq]
  exact ⟨by simp, by omega⟩

theorem clusters_ascii_append (cwd : CodepointWidthDetector) {a : List WChar}
    (ha : ∀ c ∈ a, isAscii c)
    (hlast : ∀ c ∈ a.getLast?, (cwd.next (c :: t)).1 = 1) :
    cwd.clusters (a ++ t) = a.map single ++ cwd.clusters t := by
  induction a with
  | nil => rfl
  | cons c a ih =>
    have hc : isAscii c := ha c List.mem_cons_self
    have htail : ∀ d ∈ a, isAscii d := fun d hd => ha d (List.mem_cons_of_mem c hd)
    cases a with
    | nil => exact clusters_ascii_cons cwd hc (hlast c rfl)
    | cons d a =>
      have hlen : (cwd.next (c :: (d :: a ++ t))).1 = 1 := by
        refine cwd.next_ascii_len c _ hc fun e he => htail e ?_
        rw [List.cons_append, List.head?_cons, Option.mem_some_iff] at he
        exact he ▸ List.mem_cons_self
      have hrest : ∀ e ∈ (d :: a).getLast?, (cwd.next (e :: t)).1 = 1 := by
        intro e he
        exact hlast e (by rwa [List.getLast?_cons_cons])
      rw [List.cons_append, clusters_ascii_cons cwd hc hlen, ih htail hrest]
      rfl

theorem clusters_ascii (cwd : CodepointWidthDetector)
    (ht : ∀ c ∈ t, isAscii c) : cwd.clusters t = t.map single := by
  have h := clusters_ascii_append cwd ht (t := [])
    fun c hc => cwd.next_ascii_len c [] (ht c (List.mem_of_getLast? hc)) (by simp)
  simpa using h

theorem asciiCount_le (k : ℕ) (t : List WChar) :
    WriteHelper.asciiCount k t ≤ min t.length k := by
  have h := (List.takeWhile_prefix (l := t.take k) isAscii).length_le
  rwa [List.length_take, Nat.min_comm] at h

theorem isAscii_of_mem_take {k j : ℕ} (hj : j ≤ WriteHelper.asciiCount k t) :
    ∀ c ∈ t.take j, isAscii c := by
  intro c hc
  have hle : ((t.take k).takeWhile isAscii).length ≤ k :=
    (asciiCount_le k t).trans (Nat.min_le_right _ _)
  have hpre : (t.take k).takeWhile isAscii = t.take ((t.take k).takeWhile isAscii).length := by
    have h := List.prefix_iff_eq_take.mp (List.takeWhile_prefix (l := t.take k) isAscii)
    rwa [List.take_take, Nat.min_eq_left hle] at h
  have hall : ((t.take k).takeWhile isAscii).all isAscii := List.all_takeWhile
  rw [List.all_eq_true, hpre] at hall
  exact hall c (List.take_subset_take_left t hj hc)

theorem clusters_take_ascii (cwd : CodepointWidthDetector) {n : ℕ}
    (hascii : ∀ c ∈ t.take n, isAscii c) (hn : n ≤ t.length) :
    cwd.clusters t = (t.take (n - 1)).map single ++ cwd.clusters (t.drop (n - 1)) := by
  conv_lhs => rw [← List.take_append_drop (n - 1) t]
  refine clusters_ascii_append cwd
    (fun c hc => hascii c (List.take_subset_take_left t (Nat.sub_le n 1) hc)) ?_
  intro c hc
  have hmem := List.mem_of_getLast? hc
  have hc' := hascii c (List.take_subset_take_left t (Nat.sub_le n 1) hmem)
  refine cwd.next_ascii_len c _ hc' fun d hd => ?_
  have hpos : 0 < n - 1 := by
    by_contra h0
    rw [Nat.eq_zero_of_not_pos h0] at hmem
    simp at hmem
  refine hascii d ?_
  rw [List.head?_drop, Option.mem_def] at hd
  exact List.mem_take_iff_getElem.mpr ⟨n - 1, by omega,
    by rw [← Option.some_inj, ← hd]; exact (List.getElem?_eq_getElem _).symm⟩

theorem textGlyphs_eq_fitting (cwd : CodepointWidthDetector) {k : ℕ}
    (hk : 0 < k)
    (hend : (∀ c ∈ t.take k, isAscii c) → k < t.length → (cwd.next (t.drop (k - 1))).1 = 1) :
    (textGlyphs cwd k t).1 = fitting k (cwd.clusters t) ∧
      (if (textGlyphs cwd k t).2 then k else cols (textGlyphs cwd k t).1) =
        if fitting k (cwd.clusters t) = cwd.clusters t then cols (cwd.clusters t) else k := by
  have hpassed : ∀ j ≤ WriteHelper.asciiCount k t, ∀ c ∈ t.take j, isAscii c :=
    fun j hj => isAscii_of_mem_take hj
  have hle := asciiCount_le k t
  unfold textGlyphs
  simp only
  set ascii := WriteHelper.asciiCount k t
  by_cases hlt : ascii < min t.length k
  · -- the unit behind the backed-up one is looked at by the cluster loop
    have hsplit := clusters_take_ascii cwd (hpassed ascii le_rfl) (t := t) (by omega)
    have hcols : cols ((t.take (ascii - 1)).map single) = ascii - 1 := by
      rw [cols_map_single, List.length_take]
      omega
    have hfit : fitting k (cwd.clusters t) = (t.take (ascii - 1)).map single ++
        fitting (k - (ascii - 1)) (cwd.clusters (t.drop (ascii - 1))) := by
      rw [hsplit, fitting_append (by omega), hcols]
    rw [if_pos hlt, hfit, hsplit]
    refine ⟨rfl, ?_⟩
    by_cases heq : fitting (k - (ascii - 1)) (cwd.clusters (t.drop (ascii - 1))) =
        cwd.clusters (t.drop (ascii - 1))
    · simp [heq]
    · simp [heq]
  · rw [if_neg hlt]
    have hall : ∀ c ∈ t.take k, isAscii c := by
      have h : t.take k = t.take ascii := by
        rcases Nat.le_total t.length k with h | h
        · rw [List.take_of_length_le h, List.take_of_length_le (by omega)]
        · congr 1
          omega
      rw [h]
      exact hpassed ascii le_rfl
    rcases Nat.lt_or_ge k t.length with hlen | hlen
    · obtain hk' : ascii = k := by omega
      have hsplit : cwd.clusters t = (t.take k).map single ++ cwd.clusters (t.drop k) := by
        conv_lhs => rw [← List.take_append_drop k t]
        refine clusters_ascii_append cwd hall fun c hc => ?_
        have hdrop : c :: t.drop k = t.drop (k - 1) := by
          rw [List.getLast?_take, if_neg (by omega), List.getElem?_eq_getElem (by omega)] at hc
          simp only [Option.some_or, Option.mem_some_iff] at hc
          rw [← hc, List.drop_eq_getElem_cons (by omega : k - 1 < t.length)]
          congr 2
          omega
        rw [hdrop]
        exact hend hall hlen
      have hcols : cols ((t.take k).map single) = k := by
        rw [cols_map_single, List.length_take]
        omega
      have hfit : fitting k (cwd.clusters t) = (t.take k).map single := by
        rw [hsplit, fitting_append (by omega), hcols, Nat.sub_self, fitting_zero, List.append_nil]
      have hne : cwd.clusters (t.drop k) ≠ [] := by
        refine cwd.clusters_ne_nil ?_
        rw [ne_eq, List.drop_eq_nil_iff]
        omega
      rw [hfit, hk']
      refine ⟨rfl, ?_⟩
      rw [hsplit, hcols, if_neg Bool.false_ne_true, if_neg (by simpa using hne)]
    · rw [List.take_of_length_le hlen] at hall
      have hcl := clusters_ascii cwd hall
      have hascii' : t.take ascii = t := List.take_of_length_le (by omega)
      have hfit : fitting k (cwd.clusters t) = cwd.clusters t := by
        rw [fitting_eq_self_iff, hcl, cols_map_single]
        exact hlen
      rw [hascii', hfit, hcl]
      simp

theorem replaceTextWrite_of_not_joins (cwd : CodepointWidthDetector) (hlt : b < l)
    (hj : joins cwd gs b text = false)
    (hend : (∀ c ∈ text.take (l - b), isAscii c) → l - b < text.length →
      (cwd.next (text.drop (l - b - 1))).1 = 1)
    {new : List (Glyph WChar)} (hnew : new = fitting (l - b) (cwd.clusters text)) :
    replaceTextWrite cwd gs b l text =
      { start := b, new, stop := if new = cwd.clusters text then b + cols new else l } := by
  obtain ⟨hglyphs, hstop⟩ := textGlyphs_eq_fitting cwd (by omega : 0 < l - b) hend
  rw [← hnew] at hglyphs hstop
  rw [replaceTextWrite, if_neg (by rw [hj]; exact Bool.false_ne_true)]
  generalize textGlyphs cwd (l - b) text = T at hglyphs hstop ⊢
  have hstop' : (if T.2 then l else b + cols T.1) =
      b + if T.2 then l - b else cols T.1 := by
    split_ifs <;> omega
  simp only [CellWrite.mk.injEq, true_and]
  refine ⟨hglyphs, ?_⟩
  rw [hstop', hstop]
  by_cases heq : new = cwd.clusters text
  · rw [if_pos heq, if_pos heq, heq]
  · rw [if_neg heq, if_neg heq]
    omega

end IntelligentTerminal.Buffer
