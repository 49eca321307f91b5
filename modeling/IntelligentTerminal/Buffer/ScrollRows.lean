import Mathlib.Tactic.Ring
import IntelligentTerminal.Buffer.TextBuffer

/-!
# Copying whole rows

`ROW::CopyFrom` copies the columns of the source that can be read. The columns behind them and
`_doubleBytePadded` are not copied, so the copy is faithful only if they agree already, and
`TextBuffer::ScrollRows` is a memmove of whole rows only if this is so for each of the rows that
it moves.

Source: `src/buffer/out/Row.cpp`, lines 207-218, 356-369 and 765-906;
`src/buffer/out/textBuffer.cpp`, lines 806-882.
-/

namespace IntelligentTerminal.Buffer

open Glyph

/-! ### Which columns are copied -/

/-- The number of columns that `ROW::CopyFrom` copies from a row of the same width: those that
can be read, unless no glyph fits into them. -/
def ROW.copiedColumns (source : ROW) : ℕ :=
  let limit := source.clampedColumnInclusive source.getReadableColumnCount
  if source.adjustBackward limit = 0 then 0 else limit

/-- The row `r` agrees with `source` where `ROW::CopyFrom` does not copy. -/
def ROW.CopiesFrom (r source : ROW) : Prop :=
  source.copiedColumns = source.columnCount ∨
    source.uncheckedIsTrailer source.copiedColumns = false ∧
    rightOf space r.glyphs source.copiedColumns = rightOf space source.glyphs source.copiedColumns ∧
    (if r.adjustForward source.copiedColumns = r.columnCount then true else r.doubleBytePadded) =
      source.doubleBytePadded

/-- A row of `n` columns that represents glyphs, with an attribute for each column. -/
structure ROW.OfWidth (n : ℕ) (r : ROW) : Prop where
  represents : r.Represents r.glyphs
  columnCount : r.columnCount = n
  length_attr : r.attr.length = n

/-- A copy of `source` succeeds with a row that no query tells apart from it. -/
def ROW.Faithful (source : ROW) (out : Except ROW ROW) : Prop :=
  ∃ r', out = .ok r' ∧ r'.WellFormed ∧ r'.SameAs source

namespace ROW.Represents

variable {r s : ROW} {gs src : List (Glyph WChar)} {k : ℕ}

theorem isTrailer_fitting (hs : s.Represents src) (hk : k ≤ cols src) :
    s.uncheckedIsTrailer k = false ↔ k = cols (fitting k src) := by
  obtain ⟨B, hsrc, hcase⟩ := exists_fitting_append hk
  rw [hsrc] at hs
  rcases hcase with hcols | ⟨g, B', rfl, hg, hcols⟩
  · refine ⟨fun _ => hcols, fun _ => ?_⟩
    rw [hcols]
    exact hs.isTrailer_boundary
  · constructor
    · intro h
      rw [hcols, hs.isTrailer_cut hg] at h
      cases h
    · intro h
      omega

theorem adjustBackward_fitting (hs : s.Represents src) (hk : k ≤ cols src) :
    s.adjustBackward k = cols (fitting k src) := by
  obtain ⟨B, hsrc, hcase⟩ := exists_fitting_append hk
  rw [hsrc] at hs
  rcases hcase with hcols | ⟨g, B', rfl, hg, hcols⟩
  · conv_lhs => rw [hcols]
    exact hs.adjustBackward_boundary
  · conv_lhs => rw [hcols]
    exact hs.adjustBackward_cut hg

theorem doubleBytePadded_of_readable (hs : s.Represents src) (hpos : 0 < s.columnCount)
    (h : clampColumn (cols src) s.getReadableColumnCount = cols src) :
    s.doubleBytePadded = false := by
  have hcount := hs.count
  cases hp : s.doubleBytePadded with
  | false => rfl
  | true =>
    unfold clampColumn clampInt ROW.getReadableColumnCount at h
    simp only [hp, Bool.toNat_true] at h
    split_ifs at h <;> omega

theorem copied_eq_iff (hk : k ≤ cols src) :
    fitting k src ++ (blanks space (k - cols (fitting k src)) ++ rightOf space gs k) = src ↔
      k = cols (fitting k src) ∧ rightOf space gs k = rightOf space src k := by
  obtain ⟨B, hsrc, hcase⟩ := exists_fitting_append hk
  have hright : k = cols (fitting k src) → rightOf space src k = B := by
    intro h
    have hB : rightOf space (fitting k src ++ B) (cols (fitting k src)) = B := rightOf_append _ _ _
    rwa [← hsrc, ← h] at hB
  constructor
  · intro h
    have hB : blanks space (k - cols (fitting k src)) ++ rightOf space gs k = B :=
      List.append_cancel_left (h.trans hsrc)
    rcases hcase with hfit | ⟨g, B', rfl, hg, hfit⟩
    · rw [← hfit, Nat.sub_self] at hB
      exact ⟨hfit, hB.trans (hright hfit).symm⟩
    · -- a blank is not wide
      have hone : k - cols (fitting k src) = 1 := by omega
      rw [hone] at hB
      have := congrArg Glyph.width (List.cons.inj hB).1
      rw [hg] at this
      exact absurd this (by decide)
  · rintro ⟨hfit, hr⟩
    rw [← hfit, Nat.sub_self, hr, hright hfit]
    exact hsrc.symm

theorem copyTextWrite_apply (hk : k ≤ cols gs) :
    (copyTextWrite 0 (cols gs) k src).apply gs =
      fitting k src ++ (blanks space (k - cols (fitting k src)) ++ rightOf space gs k) := by
  rw [CellWrite.apply, copyTextWrite, splice]
  simp only [leftOf_zero, Nat.sub_zero, Nat.zero_add, Nat.min_eq_right hk, List.nil_append,
    List.append_assoc]

theorem copyFrom_of_fitting_eq_nil (hr : r.Represents gs) (hs : s.Represents src)
    (hk : k = clampColumn (cols src) s.getReadableColumnCount) (hnil : fitting k src = []) :
    r.copyFrom s false = .ok { r with
      lineRendition := s.lineRendition, wrapForced := s.wrapForced
      attr := s.attr.resizeTrailingExtent r.columnCount } := by
  have hr' : ROW.Represents { r with
      lineRendition := s.lineRendition, wrapForced := s.wrapForced } gs :=
    hr.of_text_eq rfl rfl rfl
  obtain ⟨state, hstate⟩ : ∃ state : RowCopyTextFromState,
      state = { sourceColumnLimit := s.getReadableColumnCount } := ⟨_, rfl⟩
  have hsb : 0 = clampColumn (cols src) state.sourceColumnBegin := by
    rw [hstate]
    exact (clampColumn_natCast (Nat.zero_le _)).symm
  have hsl : k = clampColumn (cols src) state.sourceColumnLimit := by rw [hk, hstate]
  have hcopy := hr'.copyTextFrom_of_not hs false state rfl rfl hsb hsl (by
    rw [fitting_zero, List.length_nil, List.drop_zero, Nat.sub_zero, hnil]
    simp)
  rw [ROW.copyFrom, ← hstate, hcopy]
  rfl

theorem copyFrom_of_fitting_ne_nil (hr : r.Represents gs) (hs : s.Represents src)
    (hcols : cols gs = cols src)
    (hk : k = clampColumn (cols src) s.getReadableColumnCount) (hne : fitting k src ≠ [])
    {line : List (Glyph WChar)}
    (hline : line =
      fitting k src ++ (blanks space (k - cols (fitting k src)) ++ rightOf space gs k)) :
    (units line < 0x8000 → ∃ r', r.copyFrom s false = .ok r' ∧ r'.Represents line ∧
      r' = { r with
        lineRendition := s.lineRendition
        wrapForced := s.wrapForced
        attr := s.attr.resizeTrailingExtent r.columnCount
        chars := r'.chars
        charOffsets := r'.charOffsets
        doubleBytePadded :=
          if r.adjustForward k = r.columnCount then decide (cols (fitting k src) < r.columnCount)
          else r.doubleBytePadded }) ∧
    (0x8000 ≤ units line → ∀ r', r.copyFrom s false = .ok r' →
      r'.uncheckedIsTrailer r.columnCount = true) := by
  have hr' : ROW.Represents { r with
      lineRendition := s.lineRendition, wrapForced := s.wrapForced } gs :=
    hr.of_text_eq rfl rfl rfl
  have hkle : k ≤ cols gs := by
    rw [hcols, hk]
    exact clampColumn_le _ _
  have hpos : 0 < cols gs := by
    by_contra h
    rw [show k = 0 by omega, fitting_zero] at hne
    exact hne rfl
  obtain ⟨state, hstate⟩ : ∃ state : RowCopyTextFromState,
      state = { sourceColumnLimit := s.getReadableColumnCount } := ⟨_, rfl⟩
  have hb : 0 = clampColumn (cols gs) state.columnBegin := by
    rw [hstate]
    exact (clampColumn_natCast (Nat.zero_le _)).symm
  have hl : cols gs = clampColumn (cols gs) state.columnLimit := by
    have := hr.cols_le
    rw [hstate]
    unfold clampColumn clampInt coordTypeMax
    simp only
    split_ifs <;> omega
  have hsb : clampColumn (cols ([] ++ src)) state.sourceColumnBegin = cols ([] : List (Glyph WChar)) := by
    rw [hstate]
    exact clampColumn_natCast (Nat.zero_le _)
  have hsl : k = clampColumn (cols ([] ++ src)) state.sourceColumnLimit := by
    rw [hk, hstate]
    rfl
  obtain ⟨hok, -, hover⟩ := hr'.copyTextFrom_spec (S := []) hs state hb hl hsb hsl hpos
    (by rw [cols_nil, Nat.sub_zero]; exact hne) rfl
  rw [cols_nil, Nat.sub_zero, copyTextWrite_apply hkle, ← hline] at hok hover
  rw [ROW.copyFrom, ← hstate]
  constructor
  · intro hlt
    obtain ⟨r', hcopy, hrep, hrest⟩ := hok hlt
    rw [hcopy]
    refine ⟨_, rfl, hrep.of_text_eq rfl rfl rfl, ?_⟩
    rw [hrest]
    simp only [copyTextWrite, Nat.sub_zero, Nat.zero_add, Nat.min_eq_right hkle]
    rfl
  · intro hge r' hcopy
    generalize hout : ROW.copyTextFrom _ s false state = out at hcopy
    cases out with
    | error e => cases hcopy
    | ok p =>
      rw [← Except.ok.inj hcopy]
      exact hover hge p hout

end ROW.Represents

variable {gs src : List (Glyph WChar)} {r s : ROW}

theorem ROW.Represents.sameAs_iff
    (hr : r.Represents gs) (hs : s.Represents src) (hcount : r.columnCount = s.columnCount)
    (hattr : r.attr = s.attr) (hline : r.lineRendition = s.lineRendition)
    (hwrap : r.wrapForced = s.wrapForced) :
    r.SameAs s ↔ gs = src ∧ r.doubleBytePadded = s.doubleBytePadded := by
  constructor
  · intro h
    exact ⟨hr.eq_of_cells hs hcount h.cells, h.doubleBytePadded⟩
  · rintro ⟨rfl, hpad⟩
    exact ⟨hcount, fun c hc => hr.cells_eq hs hc, fun c _ => by rw [hattr], hline, hwrap, hpad⟩

theorem ROW.Represents.copied_iff
    (hr : r.Represents gs) (hs : s.Represents src) (hcount : r.columnCount = s.columnCount)
    (hpos : 0 < s.columnCount) {k : ℕ}
    (hk : k = clampColumn (cols src) s.getReadableColumnCount) :
    (k = s.columnCount ∨ s.uncheckedIsTrailer k = false ∧
      rightOf space gs k = rightOf space src k ∧
      (if r.adjustForward k = r.columnCount then true else r.doubleBytePadded) =
        s.doubleBytePadded) ↔
    fitting k src ++ (blanks space (k - cols (fitting k src)) ++ rightOf space gs k) = src ∧
      (if r.adjustForward k = r.columnCount then decide (cols (fitting k src) < r.columnCount)
        else r.doubleBytePadded) = s.doubleBytePadded := by
  have hcols := hr.count
  have hscols := hs.count
  have hkle : k ≤ cols src := hk ▸ clampColumn_le _ _
  rw [ROW.Represents.copied_eq_iff hkle, hs.isTrailer_fitting hkle, and_assoc]
  by_cases hkn : k = s.columnCount
  · have hfit : fitting k src = src := fitting_eq_self_iff.mpr (by omega)
    have hpad := hs.doubleBytePadded_of_readable hpos (by rw [← hk, hkn, hscols])
    have hright : ∀ hs : List (Glyph WChar), cols hs = k → rightOf space hs k = [] := by
      intro hs h
      have hnil : rightOf space (hs ++ []) (cols hs) = [] := rightOf_append _ _ _
      rwa [List.append_nil, h] at hnil
    have hfwd : r.adjustForward k = r.columnCount := by
      have h := ROW.Represents.adjustForward_boundary (r := r) (A := gs) (B := [])
        (by rwa [List.append_nil])
      rw [hcols, hcount, ← hkn] at h
      omega
    refine iff_of_true (Or.inl hkn) ⟨by rw [hfit]; omega, ?_, ?_⟩
    · rw [hright gs (by omega), hright src (by omega)]
    · rw [if_pos hfwd, hfit, hpad]
      exact decide_eq_false (by omega)
  · rw [or_iff_right hkn]
    refine and_congr_right fun hfit => and_congr_right fun _ => ?_
    rw [← hfit, decide_eq_true (by omega : k < r.columnCount)]

theorem ROW.OfWidth.copyFrom_iff {n : ℕ} (hn : 0 < n) (hr : r.OfWidth n)
    (hs : s.OfWidth n) : s.Faithful (r.copyFrom s false) ↔ r.CopiesFrom s := by
  have hrep := hr.represents
  have hsrep := hs.represents
  have hcount : r.columnCount = s.columnCount := hr.columnCount.trans hs.columnCount.symm
  have hpos : 0 < s.columnCount := by rwa [hs.columnCount]
  have hcols : cols r.glyphs = cols s.glyphs := by rw [hrep.count, hsrep.count, hcount]
  have hattr : s.attr.resizeTrailingExtent r.columnCount = s.attr := by
    rw [hr.columnCount, ← hs.length_attr, RowAttributes.resizeTrailingExtent_length_self]
  obtain ⟨k, hk⟩ : ∃ k, k = clampColumn (cols s.glyphs) s.getReadableColumnCount := ⟨_, rfl⟩
  have hkle : k ≤ cols s.glyphs := hk ▸ clampColumn_le _ _
  have hcopied : s.copiedColumns = if fitting k s.glyphs = [] then 0 else k := by
    rw [ROW.copiedColumns, hsrep.clampedColumnInclusive_eq, ← hk,
      hsrep.adjustBackward_fitting hkle]
    simp only [cols_eq_zero_iff]
  unfold ROW.CopiesFrom
  by_cases hnil : fitting k s.glyphs = []
  · rw [if_pos hnil] at hcopied
    have hcopy := hrep.copyFrom_of_fitting_eq_nil hsrep hk hnil
    have hrep' : ROW.Represents { r with
        lineRendition := s.lineRendition, wrapForced := s.wrapForced
        attr := s.attr.resizeTrailingExtent r.columnCount } r.glyphs :=
      hrep.of_text_eq rfl rfl rfl
    have hsame := hrep'.sameAs_iff hsrep hcount hattr rfl rfl
    have hfwd : r.adjustForward 0 = 0 := hrep.adjustForward_boundary (A := [])
    have htrail : s.uncheckedIsTrailer 0 = false := hsrep.isTrailer_boundary (A := [])
    rw [hcopied, rightOf_zero, rightOf_zero, hfwd, if_neg (by omega), htrail, or_iff_right (by omega)]
    constructor
    · rintro ⟨r', hr', -, h⟩
      rw [hcopy, Except.ok.injEq] at hr'
      rw [← hr'] at h
      exact ⟨rfl, hsame.mp h⟩
    · rintro ⟨-, h⟩
      exact ⟨_, hcopy, hrep'.wellFormed (hcount ▸ hpos), hsame.mpr h⟩
  · rw [if_neg hnil] at hcopied
    rw [hcopied, hrep.copied_iff hsrep hcount hpos hk]
    obtain ⟨hok, hover⟩ := hrep.copyFrom_of_fitting_ne_nil hsrep hcols hk hnil rfl
    constructor
    · rintro ⟨r', hr', hwf, hsame⟩
      rcases Nat.lt_or_ge (units (fitting k s.glyphs ++
        (blanks space (k - cols (fitting k s.glyphs)) ++ rightOf space r.glyphs k))) 0x8000
        with hlt | hge
      · obtain ⟨r'', hr'', hrep', hrest⟩ := hok hlt
        obtain rfl : r' = r'' := Except.ok.inj (hr'.symm.trans hr'')
        obtain ⟨hline, hpad⟩ := (hrep'.sameAs_iff hsrep hsame.columnCount (by rw [hrest]; exact hattr)
          (by rw [hrest]) (by rw [hrest])).mp hsame
        rw [hrest] at hpad
        exact ⟨hline, hpad⟩
      · -- the copy has a flag in its last word
        have hlast := hwf.last
        rw [hsame.columnCount, ← hcount, hover hge r' hr'] at hlast
        cases hlast
    · rintro ⟨hline, hpad⟩
      obtain ⟨r', hr', hrep', hrest⟩ := hok (by rw [hline]; exact hsrep.units_lt)
      have hcount' : r'.columnCount = r.columnCount := by rw [hrest]
      refine ⟨r', hr', hrep'.wellFormed (by omega), ?_⟩
      refine (hrep'.sameAs_iff hsrep (hcount'.trans hcount) (by rw [hrest]; exact hattr)
        (by rw [hrest]) (by rw [hrest])).mpr ⟨hline, ?_⟩
      rw [hrest]
      exact hpad

/-! ### ScrollRows -/

namespace TextBuffer

theorem copyRow_spec (b : TextBuffer) (hh : 0 < b.height) (src dst : ℤ) :
    ∃ b₁ : TextBuffer, b₁.SameShape b ∧ b.rowIndex dst + 1 < b₁.rows.length ∧
      (b.rows.length ≤ b.height + 1 → b₁.rows.length ≤ b.height + 1) ∧
      (∀ z, b₁.row z = b.row z) ∧
      (∀ r, (b.row dst).copyFrom (b.row src) (decide (b.rowIndex src = b.rowIndex dst)) = .error r →
        b.copyRow src dst = .error (b₁.setRow dst r)) ∧
      (∀ r, (b.row dst).copyFrom (b.row src) (decide (b.rowIndex src = b.rowIndex dst)) = .ok r →
        b.copyRow src dst =
          .ok (b₁.setRow dst { r with imageSlice := (b.row src).imageSlice })) := by
  have hshape := b.commit_sameShape (b.rowIndex dst + 1)
  have hshape' := (b.commit (b.rowIndex dst + 1)).commit_sameShape (b.rowIndex src + 1)
  refine ⟨(b.commit (b.rowIndex dst + 1)).commit (b.rowIndex src + 1), hshape'.trans hshape, ?_,
    fun h => ?_, fun z => by rw [row_commit, row_commit], fun r hr => ?_, fun r hr => ?_⟩
  · exact Nat.lt_of_lt_of_le (b.lt_length_commit (b.rowIndex_lt hh dst))
      (length_le_length_commit _ _)
  · have hlength := length_commit_le b h (b.rowIndex dst + 1)
    exact hshape.height ▸ length_commit_le _ (hshape.height.symm ▸ hlength) _
  · unfold copyRow getRow
    simp only [hshape.rowIndex, hshape'.rowIndex, row_commit, hr]
  · unfold copyRow getRow
    simp only [hshape.rowIndex, hshape'.rowIndex, row_commit, hr]

theorem copyRow_eq (b : TextBuffer) (hh : 0 < b.height) {src dst : ℤ}
    (hne : b.rowIndex src ≠ b.rowIndex dst) :
    ∃ b₁ : TextBuffer, b₁.SameShape b ∧ b.rowIndex dst + 1 < b₁.rows.length ∧
      (∀ z, b₁.row z = b.row z) ∧
      (∀ r, (b.row dst).copyFrom (b.row src) false = .error r →
        b.copyRow src dst = .error (b₁.setRow dst r)) ∧
      (∀ r, (b.row dst).copyFrom (b.row src) false = .ok r →
        b.copyRow src dst =
          .ok (b₁.setRow dst { r with imageSlice := (b.row src).imageSlice })) := by
  obtain ⟨b₁, hshape, hlen, -, hrow, hcopy⟩ := b.copyRow_spec hh src dst
  rw [decide_eq_false hne] at hcopy
  exact ⟨b₁, hshape, hlen, hrow, hcopy⟩

theorem copyRow_ok {b : TextBuffer} (hh : 0 < b.height) {src dst : ℤ}
    (hne : b.rowIndex src ≠ b.rowIndex dst) {r : ROW}
    (h : (b.row dst).copyFrom (b.row src) false = .ok r) :
    ∃ b', b.copyRow src dst = .ok b' ∧ b'.SameShape b ∧ ∀ z, b'.row z =
      if b.rowIndex z = b.rowIndex dst then { r with imageSlice := (b.row src).imageSlice }
      else b.row z := by
  obtain ⟨b₁, hshape, hlen, hrow, -, hcopy⟩ := b.copyRow_eq hh hne
  refine ⟨_, hcopy r h, (b₁.setRow_sameShape _ _).trans hshape, fun z => ?_⟩
  rw [b₁.row_setRow (by rw [hshape.rowIndex]; exact hlen), hshape.rowIndex, hshape.rowIndex, hrow]

/-- The rows that the loop of `ScrollRows` is at when it runs away from its target. -/
structure Runs (delta step : ℤ) (height : ℕ) (count : ℕ) (y : ℤ) : Prop where
  dir : delta < 0 ∧ step = 1 ∨ 0 < delta ∧ step = -1
  source : ∀ i < count, 0 ≤ y + i * step ∧ y + i * step < height
  target : ∀ i < count, 0 ≤ y + i * step + delta ∧ y + i * step + delta < height

namespace Runs

variable {delta step : ℤ} {height count : ℕ} {y : ℤ}

theorem next (h : Runs delta step height (count + 1) y) :
    Runs delta step height count (y + step) := by
  have hi : ∀ i : ℕ, y + step + i * step = y + (i + 1 : ℕ) * step := by
    intro i
    push_cast
    ring
  refine ⟨h.dir, fun i hi' => ?_, fun i hi' => ?_⟩
  · rw [hi]
    exact h.source (i + 1) (by omega)
  · rw [hi]
    exact h.target (i + 1) (by omega)

theorem ne_target (h : Runs delta step height (count + 1) y) (i : ℕ) :
    y + step + i * step ≠ y + delta ∧ y + step + i * step + delta ≠ y + delta := by
  rcases h.dir with ⟨hd, rfl⟩ | ⟨hd, rfl⟩ <;> constructor <;> omega

theorem first (h : Runs delta step height (count + 1) y) :
    (0 ≤ y ∧ y < height) ∧ 0 ≤ y + delta ∧ y + delta < height := by
  have h₁ := h.source 0 (Nat.succ_pos count)
  have h₂ := h.target 0 (Nat.succ_pos count)
  simp only [Nat.cast_zero, zero_mul, add_zero] at h₁ h₂
  exact ⟨h₁, h₂⟩

end Runs

variable {count : ℕ}

theorem scrollLoop_error {delta step y : ℤ} {b b₁ : TextBuffer}
    (h : b.copyRow y (y + delta) = .error b₁) :
    scrollLoop delta step (count + 1) y b = .error b₁ := by
  rw [scrollLoop, h]
  rfl

theorem scrollLoop_ok {delta step y : ℤ} {b b₁ : TextBuffer}
    (h : b.copyRow y (y + delta) = .ok b₁) :
    scrollLoop delta step (count + 1) y b = scrollLoop delta step count (y + step) b₁ := by
  rw [scrollLoop, h]
  rfl

theorem scrollLoop_eq {delta step : ℤ} : ∀ {count : ℕ} {y : ℤ} {b : TextBuffer},
    Runs delta step b.height count y →
    (∃ b', scrollLoop delta step count y b = .ok b' ∧ b'.SameShape b ∧
      (∀ i < count, ∃ r, (b.row (y + i * step + delta)).copyFrom (b.row (y + i * step)) false =
          .ok r ∧
        b'.row (y + i * step + delta) =
          { r with imageSlice := (b.row (y + i * step)).imageSlice }) ∧
      ∀ z : ℤ, 0 ≤ z → z < b.height → (∀ i < count, z ≠ y + i * step + delta) → b'.row z = b.row z) ∨
    (∃ b', scrollLoop delta step count y b = .error b') ∧
      ∃ i < count, ∃ r, (b.row (y + i * step + delta)).copyFrom (b.row (y + i * step)) false =
        .error r := by
  intro count
  induction count with
  | zero =>
    intro y b _
    exact Or.inl ⟨b, rfl, .refl b, fun i hi => absurd hi (Nat.not_lt_zero i), fun _ _ _ _ => rfl⟩
  | succ count ih =>
    intro y b hruns
    obtain ⟨hy, hy'⟩ := hruns.first
    have hdelta : delta ≠ 0 := by rcases hruns.dir with ⟨h, -⟩ | ⟨h, -⟩ <;> omega
    have hne : b.rowIndex y ≠ b.rowIndex (y + delta) := by
      rw [ne_eq, b.rowIndex_inj hy.1 hy.2 hy'.1 hy'.2]
      omega
    have hh : 0 < b.height := by omega
    have hzero : y + (0 : ℕ) * step = y := by simp
    have hi : ∀ i : ℕ, y + step + i * step = y + (i + 1 : ℕ) * step := by
      intro i
      push_cast
      ring
    generalize hcopy : (b.row (y + delta)).copyFrom (b.row y) false = out
    cases out with
    | error r =>
      obtain ⟨b₁, -, -, -, heq, -⟩ := b.copyRow_eq hh hne
      exact Or.inr ⟨⟨_, scrollLoop_error (heq r hcopy)⟩, 0, Nat.succ_pos count, r,
        by rw [hzero]; exact hcopy⟩
    | ok r =>
      obtain ⟨b₁, heq, hshape, hrow⟩ := copyRow_ok hh hne hcopy
      have hkeep : ∀ z : ℤ, 0 ≤ z → z < b.height → z ≠ y + delta → b₁.row z = b.row z := by
        intro z hz hz' hzne
        rw [hrow, if_neg (by rw [b.rowIndex_inj hz hz' hy'.1 hy'.2]; exact hzne)]
      -- the rows that are still to be copied, from and to
      have hsource : ∀ i < count, b₁.row (y + step + i * step) = b.row (y + (i + 1 : ℕ) * step) ∧
          b₁.row (y + step + i * step + delta) = b.row (y + (i + 1 : ℕ) * step + delta) := by
        intro i hi'
        have h₁ := hruns.source (i + 1) (by omega)
        have h₂ := hruns.target (i + 1) (by omega)
        have h₃ := hruns.ne_target i
        rw [hi] at h₃ ⊢
        exact ⟨hkeep _ h₁.1 h₁.2 h₃.1, hkeep _ h₂.1 h₂.2 h₃.2⟩
      have hnext : Runs delta step b₁.height count (y + step) := hshape.height ▸ hruns.next
      rcases ih hnext with ⟨b', hloop, hshape', hdone, hrest⟩ | ⟨⟨b', hloop⟩, i, hi', r', hr'⟩
      · refine Or.inl ⟨b', (scrollLoop_ok heq).trans hloop, hshape'.trans hshape, ?_, ?_⟩
        · intro i hi'
          cases i with
          | zero =>
            refine ⟨r, by rw [hzero, hcopy], ?_⟩
            rw [hzero, hrest _ hy'.1 (by rw [hshape.height]; exact hy'.2)
              (fun i _ => (hruns.ne_target i).2.symm), hrow, if_pos rfl]
          | succ i =>
            obtain ⟨r', hr', hrow'⟩ := hdone i (by omega)
            rw [(hsource i (by omega)).1, (hsource i (by omega)).2] at hr'
            rw [(hsource i (by omega)).1, hi] at hrow'
            exact ⟨r', hr', hrow'⟩
        · intro z hz hz' hout
          have hz₀ := hout 0 (Nat.succ_pos count)
          rw [hzero] at hz₀
          rw [hrest z hz (by rw [hshape.height]; exact hz') (fun i hi' => by
            rw [hi]; exact hout (i + 1) (by omega)), hkeep z hz hz' hz₀]
      · refine Or.inr ⟨⟨b', (scrollLoop_ok heq).trans hloop⟩, i + 1, by omega, r', ?_⟩
        rwa [(hsource i hi').1, (hsource i hi').2] at hr'

/-- A memmove of `size` whole rows from `firstRow` on by `delta`. -/
def Moves (b : TextBuffer) (firstRow size delta : ℤ) (out : Except TextBuffer TextBuffer) : Prop :=
  ∃ b', out = .ok b' ∧ b'.SameShape b ∧ ∀ y : ℤ, 0 ≤ y → y < b.height →
    if firstRow + delta ≤ y ∧ y < firstRow + size + delta then
      (b'.row y).WellFormed ∧ (b'.row y).SameAs (b.row (y - delta)) ∧
        (b'.row y).imageSlice = (b.row (y - delta)).imageSlice
    else b'.row y = b.row y

theorem setImageSlice_iff {r s : ROW} {imageSlice : Option ImageSlice} :
    ROW.WellFormed { r with imageSlice } ∧ ROW.SameAs { r with imageSlice } s ↔
      r.WellFormed ∧ r.SameAs s := by
  constructor
  · rintro ⟨⟨h₁, h₂, h₃, h₄, h₅, h₆, h₇, h₈, h₉⟩, ⟨k₁, k₂, k₃, k₄, k₅, k₆⟩⟩
    exact ⟨⟨h₁, h₂, h₃, h₄, h₅, h₆, h₇, h₈, h₉⟩, ⟨k₁, k₂, k₃, k₄, k₅, k₆⟩⟩
  · rintro ⟨⟨h₁, h₂, h₃, h₄, h₅, h₆, h₇, h₈, h₉⟩, ⟨k₁, k₂, k₃, k₄, k₅, k₆⟩⟩
    exact ⟨⟨h₁, h₂, h₃, h₄, h₅, h₆, h₇, h₈, h₉⟩, ⟨k₁, k₂, k₃, k₄, k₅, k₆⟩⟩

theorem scrollLoop_moves_iff {b : TextBuffer} {delta step y firstRow size : ℤ}
    (hruns : Runs delta step b.height count y)
    (hrows : ∀ z : ℤ, firstRow ≤ z ∧ z < firstRow + size ↔ ∃ i < count, z = y + i * step) :
    b.Moves firstRow size delta (scrollLoop delta step count y b) ↔
      ∀ z, firstRow ≤ z → z < firstRow + size →
        (b.row z).Faithful ((b.row (z + delta)).copyFrom (b.row z) false) := by
  have hrange : ∀ z : ℤ, (firstRow + delta ≤ z ∧ z < firstRow + size + delta) ↔
      (firstRow ≤ z - delta ∧ z - delta < firstRow + size) := by
    intro z
    constructor <;> rintro ⟨h₁, h₂⟩ <;> constructor <;> omega
  have hsub : ∀ z : ℤ, z + delta - delta = z := fun z => by omega
  constructor
  · rintro ⟨b', hb', -, hrow⟩ z hz hz'
    obtain ⟨i, hi, rfl⟩ := (hrows z).mp ⟨hz, hz'⟩
    rcases scrollLoop_eq hruns with ⟨b'', hb'', -, hdone, -⟩ | ⟨⟨b'', hb''⟩, -⟩
    · obtain rfl : b' = b'' := Except.ok.inj (hb'.symm.trans hb'')
      obtain ⟨r, hr, hr'⟩ := hdone i hi
      have htarget := hruns.target i hi
      have h := hrow _ htarget.1 htarget.2
      rw [if_pos ((hrange _).mpr (by rw [hsub]; exact ⟨hz, hz'⟩)), hsub, hr', ← and_assoc,
        setImageSlice_iff] at h
      exact ⟨r, hr, h.1⟩
    · rw [hb'] at hb''
      cases hb''
  · intro hfaith
    have hok : ∀ i < count, ∃ r,
        (b.row (y + i * step + delta)).copyFrom (b.row (y + i * step)) false = .ok r ∧
          r.WellFormed ∧ r.SameAs (b.row (y + i * step)) := by
      intro i hi
      obtain ⟨h₁, h₂⟩ := (hrows _).mpr ⟨i, hi, rfl⟩
      exact hfaith _ h₁ h₂
    rcases scrollLoop_eq hruns with ⟨b', hb', hshape, hdone, hrest⟩ | ⟨-, i, hi, r, hr⟩
    · refine ⟨b', hb', hshape, fun z hz hz' => ?_⟩
      split_ifs with hin
      · obtain ⟨i, hi, heq⟩ := (hrows _).mp ((hrange z).mp hin)
        obtain ⟨r, hr, hr'⟩ := hdone i hi
        obtain ⟨r', hr'', hgood⟩ := hok i hi
        obtain rfl : r = r' := Except.ok.inj (hr.symm.trans hr'')
        have hz'' : z = y + i * step + delta := by omega
        rw [heq, hz'', hr', ← and_assoc, setImageSlice_iff]
        exact ⟨hgood, rfl⟩
      · refine hrest z hz hz' fun i hi heq => hin ((hrange z).mpr ?_)
        exact (hrows _).mpr ⟨i, hi, by omega⟩
    · obtain ⟨r', hr', -⟩ := hok i hi
      rw [hr] at hr'
      cases hr'

end TextBuffer

/-- `ROW::CopyFrom` is faithful, and `TextBuffer::ScrollRows` is a memmove of whole rows, if and
only if each row agrees with the row copied to it where `ROW::CopyFrom` does not copy. -/
theorem scrollRows_memmove_iff {b : TextBuffer} :
    (∀ {n : ℕ} {r s : ROW}, 0 < n → r.OfWidth n → s.OfWidth n →
      (s.Faithful (r.copyFrom s false) ↔ r.CopiesFrom s)) ∧
    ∀ {firstRow size delta : ℤ}, 0 < b.width →
      (∀ y : ℤ, 0 ≤ y → y < b.height → (b.row y).OfWidth b.width) →
      0 ≤ firstRow → firstRow + size ≤ b.height →
      0 ≤ firstRow + delta → firstRow + size + delta ≤ b.height →
      (b.Moves firstRow size delta (b.scrollRows firstRow size delta) ↔
        delta = 0 ∨ ∀ y, firstRow ≤ y → y < firstRow + size →
          (b.row (y + delta)).CopiesFrom (b.row y)) := by
  refine ⟨fun hn hr hs => hr.copyFrom_iff hn hs, ?_⟩
  intro firstRow size delta hw hrows h₁ h₂ h₃ h₄
  by_cases hd : delta = 0
  · refine iff_of_true ⟨b, by rw [TextBuffer.scrollRows, if_pos hd], .refl b, ?_⟩ (Or.inl hd)
    intro y hy hy'
    subst hd
    split_ifs with hin
    · have hrow := hrows y hy hy'
      rw [Int.sub_zero]
      exact ⟨hrow.represents.wellFormed (by rw [hrow.columnCount]; exact hw),
        ⟨rfl, fun _ _ => ⟨rfl, rfl⟩, fun _ _ => rfl, rfl, rfl, rfl⟩, rfl⟩
    · rfl
  · have hcopies : (∀ y, firstRow ≤ y → y < firstRow + size →
        (b.row y).Faithful ((b.row (y + delta)).copyFrom (b.row y) false)) ↔
        ∀ y, firstRow ≤ y → y < firstRow + size → (b.row (y + delta)).CopiesFrom (b.row y) := by
      refine forall_congr' fun y => forall_congr' fun hy => forall_congr' fun hy' => ?_
      exact (hrows (y + delta) (by omega) (by omega)).copyFrom_iff hw
        (hrows y (by omega) (by omega))
    rw [or_iff_right hd, ← hcopies, TextBuffer.scrollRows, if_neg hd]
    simp only
    split_ifs with hneg
    · refine TextBuffer.scrollLoop_moves_iff
        ⟨Or.inl ⟨hneg, rfl⟩, fun i hi => by omega, fun i hi => by omega⟩ fun z => ?_
      constructor
      · rintro ⟨hz, hz'⟩
        exact ⟨(z - firstRow).toNat, by omega, by omega⟩
      · rintro ⟨i, hi, rfl⟩
        omega
    · refine TextBuffer.scrollLoop_moves_iff
        ⟨Or.inr ⟨by omega, rfl⟩, fun i hi => by omega, fun i hi => by omega⟩ fun z => ?_
      constructor
      · rintro ⟨hz, hz'⟩
        exact ⟨(firstRow + size - 1 - z).toNat, by omega, by omega⟩
      · rintro ⟨i, hi, rfl⟩
        omega

/-- Two rows of text, the first of which is moved down. -/
theorem scrollRows_memmove_text :
    let b : TextBuffer := { width := 2, height := 2, rows := [ROW.construct 2 {},
      { ROW.construct 2 {} with chars := [0x61, 0x62] },
      { ROW.construct 2 {} with chars := [0x63, 0x64], wrapForced := true }] }
    b.Moves 0 1 1 (b.scrollRows 0 1 1) := by
  intro b
  have hrow : ∀ y : ℤ, 0 ≤ y → y < b.height → (b.row y).OfWidth b.width := by
    intro y hy hy'
    have hcase : y = 0 ∨ y = 1 := by
      have : (b.height : ℤ) = 2 := rfl
      omega
    rcases hcase with rfl | rfl
    · exact ⟨⟨by decide, by decide, by decide, by decide, by decide, by decide⟩, rfl, rfl⟩
    · exact ⟨⟨by decide, by decide, by decide, by decide, by decide, by decide⟩, rfl, rfl⟩
  refine (scrollRows_memmove_iff.2 (by decide) hrow (by decide) (by decide) (by decide)
    (by decide)).mpr (Or.inr fun y hy hy' => ?_)
  obtain rfl : y = 0 := by omega
  exact Or.inl (by decide)

/-- A row with padding, as `ROW::ReplaceText` leaves it, copied over a row of text: the last
column keeps its old text, and the row is not marked as padded. -/
theorem copyFrom_padded_stale :
    let src : ROW := { ROW.construct 4 {} with
      chars := [0x61, 0x62, 0x63, space], doubleBytePadded := true }
    let dst : ROW := { ROW.construct 4 {} with chars := [0x77, 0x78, 0x79, 0x7a] }
    let b : TextBuffer := { width := 4, height := 2, rows := [ROW.construct 4 {}, src, dst] }
    ((ROW.construct 4 {}).replaceText CodepointWidthDetector.ofMarks
        { text := [0x61, 0x62, 0x63, 0x4e2d], columnLimit := 4 }).map Prod.fst = .ok src ∧
      src.glyphAt 3 = [space] ∧
      (dst.copyFrom src false).map (fun r => (r.glyphAt 3, r.doubleBytePadded)) =
        .ok ([0x7a], false) ∧
      (b.scrollRows 0 1 1).toOption.map
        (fun b => ((b.row 1).glyphAt 3, (b.row 1).doubleBytePadded)) = some ([0x7a], false) := by
  decide

end IntelligentTerminal.Buffer
