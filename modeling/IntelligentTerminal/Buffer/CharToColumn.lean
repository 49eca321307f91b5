import IntelligentTerminal.Buffer.RowInvariant

/-!
# Columns of offsets in the text

`CharToColumnMapper` looks for the column of an offset, from the column that it has found before.
It goes forward by the offsets without their flag, and then backward by the whole words: the flag
makes a word larger than any offset that is looked for, so that the second loop does not end on
the trailing half of a glyph.

A search that would leave the words of the row returns nothing.

Source: `src/buffer/out/Row.cpp`, lines 83-158, 1136-1144 and 1236-1246.
-/

namespace IntelligentTerminal.Buffer

structure CharToColumnMapper where
  charOffsets : List ℕ
  charsLength : ℕ
  currentColumn : ℕ
  columnCount : ℕ

/-- The first loop of `GetLeadingColumnAt`, on the words from a column on. -/
def forwardSearch (targetOffset : ℤ) : List ℕ → ℕ → Option ℕ
  | [], _ => none
  | word :: words, col =>
    if targetOffset > offsetOf word then forwardSearch targetOffset words (col + 1) else some col

/-- The second loop of `GetLeadingColumnAt`. -/
def backwardSearch (targetOffset : ℤ) (words : List ℕ) : ℕ → Option ℕ
  | 0 => if targetOffset < words.getD 0 0 then none else some 0
  | col + 1 =>
    if targetOffset < words.getD (col + 1) 0 then backwardSearch targetOffset words col
    else some (col + 1)

/-- The loop of `GetTrailingColumnAt`, on the words behind a column. -/
def skipTrailers : List ℕ → ℕ → Option ℕ
  | [], _ => none
  | word :: words, col => if isTrailer word then skipTrailers words (col + 1) else some col

namespace CharToColumnMapper

def getLeadingColumnAt (m : CharToColumnMapper) (targetOffset : ℤ) :
    Option (ℕ × CharToColumnMapper) := do
  let targetOffset := clampInt targetOffset 0 m.charsLength
  let col ← forwardSearch targetOffset (m.charOffsets.drop m.currentColumn) m.currentColumn
  let col ← backwardSearch targetOffset m.charOffsets col
  some (col, { m with currentColumn := col })

def getTrailingColumnAt (m : CharToColumnMapper) (offset : ℤ) :
    Option (ℕ × CharToColumnMapper) := do
  let (col, m) ← m.getLeadingColumnAt offset
  let last ← if col < m.columnCount then skipTrailers (m.charOffsets.drop (col + 1)) col else col
  some (last, m)

/-- A query of a mapper. -/
inductive Query
  | leading (offset : ℤ)
  | trailing (offset : ℤ)

def ask (m : CharToColumnMapper) : Query → Option (ℕ × CharToColumnMapper)
  | .leading offset => m.getLeadingColumnAt offset
  | .trailing offset => m.getTrailingColumnAt offset

/-- The answers to queries of one mapper. -/
def askAll (m : CharToColumnMapper) : List Query → Option (List ℕ)
  | [] => some []
  | q :: queries => do
    let (col, m) ← m.ask q
    let cols ← m.askAll queries
    some (col :: cols)

end CharToColumnMapper

namespace ROW

/-- A mapper of the row that starts at a column. -/
def mapperAt (r : ROW) (col : ℕ) : CharToColumnMapper :=
  ⟨r.charOffsets, r.charSize, col, r.columnCount⟩

def createCharToColumnMapper (r : ROW) (offset : ℤ) : CharToColumnMapper :=
  r.mapperAt (clampInt offset 0 r.columnCount).toNat

/-- The answer of a mapper that is created for one query: `ROW::GetLeadingColumnAtCharOffset` and
`ROW::GetTrailingColumnAtCharOffset`. -/
def columnAtCharOffset (r : ROW) : CharToColumnMapper.Query → Option ℕ
  | .leading offset =>
    ((r.createCharToColumnMapper offset).getLeadingColumnAt offset).map Prod.fst
  | .trailing offset =>
    ((r.createCharToColumnMapper offset).getTrailingColumnAt offset).map Prod.fst

/-- The column is the first one of the glyph with the text at an offset, or one past the last
column for the end of the text. -/
def IsLeadingColumn (r : ROW) (offset : ℤ) (col : ℕ) : Prop :=
  r.uncheckedIsTrailer col = false ∧ r.uncheckedCharOffset col ≤ offset ∧
    (col < r.columnCount ∧ offset < r.uncheckedCharOffset (r.adjustForward (col + 1)) ∨
      col = r.columnCount ∧ offset = r.charSize)

/-- The last column of the glyph that begins at a column. -/
def lastColumn (r : ROW) (col : ℕ) : ℕ :=
  if col < r.columnCount then r.adjustForward (col + 1) - 1 else col

namespace WellFormed

variable {r : ROW} {offset : ℤ} {c d : ℕ} {col c : ℕ}

/-! ### Words and offsets -/

theorem word_eq (hwords : ∀ w ∈ r.charOffsets, w < 0x10000) {c : ℕ}
    (hc : c < r.charOffsets.length) :
    r.word c = r.uncheckedCharOffset c + (if r.uncheckedIsTrailer c then 0x8000 else 0) ∧
      r.uncheckedCharOffset c < 0x8000 := by
  have hlt : r.word c < 0x10000 := by
    rw [word, List.getD_eq_getElem _ _ hc]
    exact hwords _ (List.getElem_mem hc)
  rw [uncheckedCharOffset, uncheckedIsTrailer, offsetOf_eq_mod]
  by_cases hflag : r.word c < 0x8000
  · rw [isTrailer_of_lt hflag]
    simp only [Bool.false_eq_true, if_false]
    omega
  · rw [isTrailer_of_ge (by omega) (by omega)]
    simp only [if_true]
    omega

theorem offset_mono (hr : r.WellFormed) (hcd : c ≤ d) (hd : d ≤ r.columnCount) :
    r.uncheckedCharOffset c ≤ r.uncheckedCharOffset d := by
  induction d, hcd using Nat.le_induction with
  | base => exact le_rfl
  | succ m hm ih => exact (ih (by omega)).trans (hr.offset_le m (by omega))

theorem offset_lt (hr : r.WellFormed) (hcd : c < d) (hd : d ≤ r.columnCount)
    (hlead : r.uncheckedIsTrailer d = false) :
    r.uncheckedCharOffset c < r.uncheckedCharOffset d := by
  obtain ⟨d, rfl⟩ : ∃ k, d = k + 1 := ⟨d - 1, by omega⟩
  have hle := hr.offset_mono (Nat.le_of_lt_succ hcd) (by omega)
  have hne : r.uncheckedCharOffset (d + 1) ≠ r.uncheckedCharOffset d := fun heq =>
    Bool.false_ne_true (hlead.symm.trans ((hr.trailer_iff d (by omega)).mpr heq))
  have hstep := hr.offset_le d (by omega)
  omega

theorem charSize_eq (hr : r.WellFormed) (hwords : ∀ w ∈ r.charOffsets, w < 0x10000) :
    r.charSize = r.uncheckedCharOffset r.columnCount := by
  have hword := (word_eq hwords (c := r.columnCount) (by rw [hr.length_words]; omega)).1
  rw [hr.last] at hword
  simpa [charSize] using hword

theorem adjustForward_le_of_lead (hr : r.WellFormed) (hcd : c ≤ d)
    (hd : d ≤ r.columnCount) (hlead : r.uncheckedIsTrailer d = false) :
    r.adjustForward c ≤ d := by
  by_contra hlt
  have hlen := hr.length_words
  have hshort : d - c < ((r.charOffsets.drop c).takeWhile isTrailer).length := by
    rw [adjustForward, stepForward] at hlt
    omega
  have hget : ((r.charOffsets.drop c).takeWhile isTrailer)[d - c] = r.word d := by
    rw [(List.takeWhile_prefix isTrailer).getElem hshort, List.getElem_drop, word,
      List.getD_eq_getElem _ _ (by omega)]
    congr 1
    omega
  have htrailer := List.all_eq_true.mp List.all_takeWhile _ (List.getElem_mem hshort)
  rw [hget, ← uncheckedIsTrailer, hlead] at htrailer
  cases htrailer

/-! ### The searches -/

theorem forwardSearch_spec (hr : r.WellFormed) {col : ℕ} (hcol : col ≤ r.columnCount)
    (hoffset : offset ≤ r.uncheckedCharOffset r.columnCount) :
    ∃ c, forwardSearch offset (r.charOffsets.drop col) col = some c ∧ c ≤ r.columnCount ∧
      offset ≤ r.uncheckedCharOffset c := by
  induction hk : r.columnCount - col generalizing col with
  | zero =>
    obtain rfl : col = r.columnCount := by omega
    refine ⟨r.columnCount, ?_, le_rfl, hoffset⟩
    rw [List.drop_eq_getElem_cons (by rw [hr.length_words]; omega), forwardSearch, if_neg]
    rw [uncheckedCharOffset, word, List.getD_eq_getElem _ _ (by rw [hr.length_words]; omega)]
      at hoffset
    omega
  | succ k ih =>
    have hlt : col < r.charOffsets.length := by
      rw [hr.length_words]
      omega
    have hword : r.uncheckedCharOffset col = offsetOf r.charOffsets[col] := by
      rw [uncheckedCharOffset, word, List.getD_eq_getElem _ _ hlt]
    rw [List.drop_eq_getElem_cons hlt, forwardSearch, ← hword]
    split_ifs with hmore
    · exact ih (by omega) (by omega)
    · exact ⟨col, rfl, hcol, by omega⟩

theorem backwardSearch_spec (hr : r.WellFormed) (hoffset : 0 ≤ offset) (col : ℕ) :
    ∃ c ≤ col, backwardSearch offset r.charOffsets col = some c ∧ r.word c ≤ offset ∧
      ∀ d, c < d → d ≤ col → offset < r.word d := by
  induction col with
  | zero =>
    have hfirst : r.charOffsets.getD 0 0 = 0 := hr.first
    refine ⟨0, le_rfl, ?_, ?_, fun d hd hle => by omega⟩
    · rw [backwardSearch, hfirst, if_neg (by omega)]
    · rw [hr.first]
      omega
  | succ col ih =>
    rw [backwardSearch]
    split_ifs with hmore
    · obtain ⟨c, hc, hsearch, hle, hpassed⟩ := ih
      refine ⟨c, by omega, hsearch, hle, fun d hd hdle => ?_⟩
      obtain rfl | hlt := hdle.eq_or_lt
      · exact hmore
      · exact hpassed d hd (by omega)
    · exact ⟨col + 1, le_rfl, rfl, by rw [word]; omega, fun d hd hle => by omega⟩

theorem skipTrailers_spec (hr : r.WellFormed) (hcol : col + 1 ≤ r.columnCount)
    (hc : r.adjustForward (col + 1) = c + 1) :
    skipTrailers (r.charOffsets.drop (col + 1)) col = some c := by
  induction hk : r.columnCount - col generalizing col with
  | zero => omega
  | succ k ih =>
    have hlt : col + 1 < r.charOffsets.length := by
      rw [hr.length_words]
      omega
    have hword : r.uncheckedIsTrailer (col + 1) = isTrailer r.charOffsets[col + 1] := by
      rw [uncheckedIsTrailer, word, List.getD_eq_getElem _ _ hlt]
    rw [adjustForward, stepForward, List.drop_eq_getElem_cons hlt, List.takeWhile_cons,
      ← hword] at hc
    rw [List.drop_eq_getElem_cons hlt, skipTrailers, ← hword]
    cases hflag : r.uncheckedIsTrailer (col + 1) with
    | false =>
      rw [hflag] at hc
      simp only [Bool.false_eq_true, if_false, List.length_nil] at hc ⊢
      exact congrArg some (by omega)
    | true =>
      have hmore : col + 1 < r.columnCount := by
        refine lt_of_le_of_ne hcol fun heq => ?_
        rw [heq, hr.last] at hflag
        cases hflag
      rw [hflag] at hc
      simp only [if_true, List.length_cons] at hc ⊢
      refine ih (by omega) ?_ (by omega)
      rw [adjustForward, stepForward]
      omega

/-! ### The mapper -/

theorem clampInt_mem (v : ℤ) {hi : ℤ} (hhi : 0 ≤ hi) :
    0 ≤ clampInt v 0 hi ∧ clampInt v 0 hi ≤ hi := by
  unfold clampInt
  split_ifs <;> omega

theorem isLeadingColumn_unique (hr : r.WellFormed)
    (hc : r.IsLeadingColumn offset c) (hd : r.IsLeadingColumn offset d) : c = d := by
  wlog hlt : c < d generalizing c d
  · obtain heq | hgt := (not_lt.mp hlt).eq_or_lt
    · exact heq.symm
    · exact (this hd hc hgt).symm
  exfalso
  have hdle : d ≤ r.columnCount := by
    obtain ⟨hd, -⟩ | ⟨hd, -⟩ := hd.2.2 <;> omega
  obtain ⟨hc, hbefore⟩ | ⟨hc, -⟩ := hc.2.2
  · have hnext := hr.adjustForward_le_of_lead (c := c + 1) hlt hdle hd.1
    have hmono := hr.offset_mono hnext hdle
    have := hd.2.1
    omega
  · omega

theorem getLeadingColumnAt_spec (hr : r.WellFormed)
    (hwords : ∀ w ∈ r.charOffsets, w < 0x10000) {col : ℕ} (hcol : col ≤ r.columnCount)
    (offset : ℤ) :
    ∃ c ≤ r.columnCount, r.IsLeadingColumn (clampInt offset 0 r.charSize) c ∧
      (r.mapperAt col).getLeadingColumnAt offset = some (c, r.mapperAt c) := by
  obtain ⟨hnonneg, hle⟩ := clampInt_mem offset (Int.natCast_nonneg r.charSize)
  generalize hoffset : clampInt offset 0 r.charSize = target at hnonneg hle ⊢
  have hsize := hr.charSize_eq hwords
  obtain ⟨c₁, hforward, hc₁, hreached⟩ := hr.forwardSearch_spec hcol (hsize ▸ hle)
  obtain ⟨c, hc, hbackward, hword, hpassed⟩ := hr.backwardSearch_spec hnonneg c₁
  have hlength := hr.length_words
  have hsmall : target < 0x8000 := by
    have hlast := (word_eq hwords (c := r.columnCount) (by omega)).2
    rw [hsize] at hle
    omega
  obtain ⟨hwordEq, -⟩ := word_eq hwords (c := c) (by omega)
  have hlead : r.uncheckedIsTrailer c = false := by
    cases hflag : r.uncheckedIsTrailer c with
    | false => rfl
    | true =>
      rw [hflag, if_pos rfl] at hwordEq
      omega
  rw [hlead] at hwordEq
  simp only [Bool.false_eq_true, if_false, Nat.add_zero] at hwordEq
  refine ⟨c, hc.trans hc₁, ⟨hlead, by omega, ?_⟩, ?_⟩
  · obtain heq | hlt := (hc.trans hc₁).eq_or_lt
    · refine .inr ⟨heq, ?_⟩
      rw [heq, ← charSize] at hword
      omega
    · -- the next glyph begins behind the offset, on either side of where the first loop has ended
      obtain ⟨hnext, hnextLead⟩ := hr.adjustForward_le (c + 1) hlt
      have hbehind : c < r.adjustForward (c + 1) := Nat.le_add_right (c + 1) _
      refine .inl ⟨hlt, ?_⟩
      by_cases hinside : r.adjustForward (c + 1) ≤ c₁
      · have hlarger := hpassed _ hbehind hinside
        obtain ⟨hnextWord, -⟩ := word_eq hwords (c := r.adjustForward (c + 1)) (by omega)
        rw [hnextLead] at hnextWord
        simp only [Bool.false_eq_true, if_false, Nat.add_zero] at hnextWord
        omega
      · have hgrows := hr.offset_lt (by omega) hnext hnextLead (c := c₁)
        omega
  · simp only [CharToColumnMapper.getLeadingColumnAt, mapperAt, hoffset, hforward, hbackward,
      Option.bind_eq_bind, Option.bind_some]

theorem getTrailingColumnAt_spec (hr : r.WellFormed)
    (hleading : (r.mapperAt col).getLeadingColumnAt offset = some (c, r.mapperAt c)) :
    (r.mapperAt col).getTrailingColumnAt offset = some (r.lastColumn c, r.mapperAt c) := by
  rw [CharToColumnMapper.getTrailingColumnAt, hleading]
  simp only [Option.bind_eq_bind, Option.bind_some, mapperAt, lastColumn]
  split_ifs with hlt
  · have hbehind : c + 1 ≤ r.adjustForward (c + 1) := Nat.le_add_right _ _
    rw [hr.skipTrailers_spec hlt (Nat.sub_add_cancel (by omega)).symm]
    rfl
  · rfl

end WellFormed

/-- From any column a mapper finds the first column of the glyph that an offset is in, and the last
one, and what it has found before makes no difference. -/
theorem charToColumnMapper_inverse (r : ROW) (hr : r.WellFormed)
    (hwords : ∀ w ∈ r.charOffsets, w < 0x10000) (start : ℕ) (hstart : start ≤ r.columnCount) :
    (∀ offset : ℤ, ∃ c ≤ r.columnCount,
      (∀ d, r.IsLeadingColumn (clampInt offset 0 r.charSize) d ↔ d = c) ∧
      (r.mapperAt start).getLeadingColumnAt offset = some (c, r.mapperAt c) ∧
      (r.mapperAt start).getTrailingColumnAt offset = some (r.lastColumn c, r.mapperAt c)) ∧
    ∀ queries, (r.mapperAt start).askAll queries = queries.mapM r.columnAtCharOffset := by
  have hspec {col : ℕ} (hcol : col ≤ r.columnCount) (offset : ℤ) : ∃ c ≤ r.columnCount,
      (∀ d, r.IsLeadingColumn (clampInt offset 0 r.charSize) d ↔ d = c) ∧
      (r.mapperAt col).getLeadingColumnAt offset = some (c, r.mapperAt c) ∧
      (r.mapperAt col).getTrailingColumnAt offset = some (r.lastColumn c, r.mapperAt c) := by
    obtain ⟨c, hc, hlead, hfound⟩ := hr.getLeadingColumnAt_spec hwords hcol offset
    refine ⟨c, hc, fun d => ⟨fun hd => hr.isLeadingColumn_unique hd hlead, ?_⟩, hfound,
      hr.getTrailingColumnAt_spec hfound⟩
    rintro rfl
    exact hlead
  -- an answer does not depend on the column that the mapper starts at
  have hask {col : ℕ} (hcol : col ≤ r.columnCount) (q : CharToColumnMapper.Query) :
      ∃ c d, d ≤ r.columnCount ∧ (r.mapperAt col).ask q = some (c, r.mapperAt d) ∧
        r.columnAtCharOffset q = some c := by
    have hguess (offset : ℤ) : (clampInt offset 0 r.columnCount).toNat ≤ r.columnCount := by
      have := WellFormed.clampInt_mem offset (Int.natCast_nonneg r.columnCount)
      omega
    have hsame {offset : ℤ} {c c' : ℕ}
        (h : ∀ d, r.IsLeadingColumn (clampInt offset 0 r.charSize) d ↔ d = c)
        (h' : ∀ d, r.IsLeadingColumn (clampInt offset 0 r.charSize) d ↔ d = c') : c' = c :=
      (h c').mp ((h' c').mpr rfl)
    cases q with
    | leading offset =>
      obtain ⟨c, hc, hunique, hlead, -⟩ := hspec hcol offset
      obtain ⟨c', -, hunique', hlead', -⟩ := hspec (hguess offset) offset
      refine ⟨c, c, hc, hlead, ?_⟩
      rw [columnAtCharOffset, createCharToColumnMapper, hlead', hsame hunique hunique']
      rfl
    | trailing offset =>
      obtain ⟨c, hc, hunique, -, htrail⟩ := hspec hcol offset
      obtain ⟨c', -, hunique', -, htrail'⟩ := hspec (hguess offset) offset
      refine ⟨r.lastColumn c, c, hc, htrail, ?_⟩
      rw [columnAtCharOffset, createCharToColumnMapper, htrail', hsame hunique hunique']
      rfl
  refine ⟨hspec hstart, fun queries => ?_⟩
  induction queries generalizing start with
  | nil => rfl
  | cons q queries ih =>
    obtain ⟨c, d, hd, hanswer, hfresh⟩ := hask hstart q
    rw [CharToColumnMapper.askAll, hanswer, List.mapM_cons, hfresh]
    simp only [Option.bind_eq_bind, Option.bind_some, ih d hd]
    rfl

/-- A wide glyph of two units between two narrow ones. -/
theorem charToColumnMapper_inverse_wide :
    (mapperAt ⟨[0x61, 0xD83C, 0xDF66, 0x62], [0, 1, 0x8001, 3, 4], [], 4, .singleWidth, false,
      false, none, none⟩ 4).askAll [.leading 2, .trailing 2, .leading 9] = some [1, 2, 4] :=
  have hrep : Represents ⟨[0x61, 0xD83C, 0xDF66, 0x62], [0, 1, 0x8001, 3, 4], [], 4, .singleWidth,
      false, false, none, none⟩
      [.single 0x61, ⟨[0xD83C, 0xDF66], 2, by decide, by decide, by decide⟩, .single 0x62] := by
    constructor <;> decide
  (charToColumnMapper_inverse _ (hrep.wellFormed (by decide)) (by decide) 4 (by decide)).2 _

end ROW

end IntelligentTerminal.Buffer
