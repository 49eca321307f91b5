import IntelligentTerminal.Data.LinkedRun
import IntelligentTerminal.Buffer.TextBuffer

/-!
# The words of a text buffer

`GetWordStart` and `GetWordEnd` look for the ends of the run of cells with one delimiter class
around a position. They walk through the *exclusive bounds* of the buffer, in which every row has
one more position behind its last cell. Behind the last cell of a row the run goes on in the next
row when the row was force-wrapped.

Two cells that follow each other in reading order are linked when they have one class and, at the
end of a row, the row is force-wrapped. A word is a maximal run of linked cells.

Source: `src/buffer/out/textBuffer.cpp`, lines 950-978 and 1153-1425; `src/buffer/out/Row.cpp`,
lines 1153-1171; `src/types/viewport.cpp`, lines 121-124, 173-184 and 303-355.
-/

namespace IntelligentTerminal.Buffer

inductive DelimiterClass
  | controlChar
  | delimiterChar
  | regularChar
deriving DecidableEq

def ROW.delimiterClassAt (r : ROW) (column : ℤ) (wordDelimiters : List WChar) : DelimiterClass :=
  let col := r.clampedColumn column
  let glyph := r.chars.getD (r.uncheckedCharOffset col) 0
  if glyph ≤ space then .controlChar
  else if glyph ∈ wordDelimiters then .delimiterChar
  else .regularChar

namespace TextBuffer

/-! ### The exclusive bounds of a buffer -/

/-- `Viewport::Origin`, of `GetSize()`. -/
def origin : Point := ⟨0, 0⟩

/-- `Viewport::BottomInclusiveRightExclusive`, of `GetSize()`. -/
def bottomInclusiveRightExclusive (b : TextBuffer) : Point := ⟨b.width, b.height - 1⟩

/-- `Viewport::IsInBounds`, of `GetSize()`. -/
def isInBounds (b : TextBuffer) (pos : Point) : Bool :=
  0 ≤ pos.x && pos.x < b.width && 0 ≤ pos.y && pos.y ≤ b.height - 1

/-- `Viewport::WalkInExclusiveBounds`, of `GetSize()`. -/
def walkInExclusiveBounds (b : TextBuffer) (pos : Point) (delta : ℤ) : Point :=
  let w : ℤ := max 0 (b.width + 1)
  let h : ℤ := max 0 b.height
  let off := w * pos.y + pos.x + delta
  let offClamped := clampInt off 0 (w * h)
  ⟨offClamped % w, offClamped / w⟩

/-- `Viewport::IncrementInExclusiveBounds`, of `GetSize()`. -/
def incrementInExclusiveBounds (b : TextBuffer) (pos : Point) : Point :=
  b.walkInExclusiveBounds pos 1

/-- `Viewport::DecrementInExclusiveBounds`, of `GetSize()`. -/
def decrementInExclusiveBounds (b : TextBuffer) (pos : Point) : Point :=
  b.walkInExclusiveBounds pos (-1)

/-! ### The scans -/

def isDoubleWidthLine (b : TextBuffer) (y : ℤ) : Bool := (b.row y).lineRendition ≠ .singleWidth

def screenToBufferPosition (b : TextBuffer) (position : Point) : Point :=
  let scale : ℕ := if b.isDoubleWidthLine position.y then 1 else 0
  ⟨position.x >>> scale, position.y⟩

def getDelimiterClassAt (b : TextBuffer) (pos : Point) (wordDelimiters : List WChar) :
    DelimiterClass :=
  let realPos := b.screenToBufferPosition pos
  (b.row realPos.y).delimiterClassAt realPos.x wordDelimiters

/-- The class that a run has: a position outside of the cells counts as a control character. -/
def initialDelimClass (b : TextBuffer) (pos : Point) (wordDelimiters : List WChar) :
    DelimiterClass :=
  if b.isInBounds pos then b.getDelimiterClassAt pos wordDelimiters else .controlChar

/-- The loop of `TextBuffer::_GetDelimiterClassRunStart`, for at most `fuel` rounds. -/
def runStartLoop (b : TextBuffer) (wordDelimiters : List WChar) (accessibilityMode : Bool)
    (initial : DelimiterClass) : ℕ → Point → Point → Option Point
  | 0, _, _ => none
  | fuel + 1, pos, nextPos =>
    if nextPos = origin then some pos
    else
      let nextPos := b.decrementInExclusiveBounds nextPos
      if nextPos.x = b.width then
        -- the position behind the last cell of a row does not become a result
        if !(b.row nextPos.y).wrapForced && !accessibilityMode then some pos
        else runStartLoop b wordDelimiters accessibilityMode initial fuel pos nextPos
      else if b.getDelimiterClassAt nextPos wordDelimiters ≠ initial then some pos
      else runStartLoop b wordDelimiters accessibilityMode initial fuel nextPos nextPos

/-- The number of positions in the exclusive bounds, which bounds the rounds of a scan. -/
def scanFuel (b : TextBuffer) : ℕ := (b.width + 1) * b.height + 1

def getDelimiterClassRunStart (b : TextBuffer) (pos : Point) (wordDelimiters : List WChar)
    (accessibilityMode : Bool) : Option Point :=
  b.runStartLoop wordDelimiters accessibilityMode (b.initialDelimClass pos wordDelimiters)
    b.scanFuel pos pos

/-- The loop of `TextBuffer::_GetDelimiterClassRunEnd`, for at most `fuel` rounds. -/
def runEndLoop (b : TextBuffer) (wordDelimiters : List WChar) (accessibilityMode : Bool)
    (initial : DelimiterClass) : ℕ → Point → Option Point
  | 0, _ => none
  | fuel + 1, pos =>
    if pos = b.bottomInclusiveRightExclusive then some pos
    else
      let nextPos := b.incrementInExclusiveBounds pos
      if nextPos.x = 0 then
        if accessibilityMode then
          if b.getDelimiterClassAt nextPos wordDelimiters ≠ initial then some nextPos
          else runEndLoop b wordDelimiters accessibilityMode initial fuel nextPos
        else if !(b.row pos.y).wrapForced || b.getDelimiterClassAt nextPos wordDelimiters ≠ initial
        then some pos
        else runEndLoop b wordDelimiters accessibilityMode initial fuel nextPos
      else if b.isInBounds nextPos && b.getDelimiterClassAt nextPos wordDelimiters ≠ initial then
        some nextPos
      else runEndLoop b wordDelimiters accessibilityMode initial fuel nextPos

def getDelimiterClassRunEnd (b : TextBuffer) (pos : Point) (wordDelimiters : List WChar)
    (accessibilityMode : Bool) : Option Point :=
  b.runEndLoop wordDelimiters accessibilityMode (b.initialDelimClass pos wordDelimiters) b.scanFuel
    pos

def getWordStart (b : TextBuffer) (pos : Point) (wordDelimiters : List WChar)
    (includeWhitespace : Bool) (limitOptional : Option Point) : Option Point :=
  let limit := limitOptional.getD b.bottomInclusiveRightExclusive
  if pos < origin then some origin
  else
    let pos := if limit ≤ pos then limit else pos
    let initialDelimiter := b.initialDelimClass pos wordDelimiters
    (b.getDelimiterClassRunStart pos wordDelimiters includeWhitespace).bind fun pos =>
      if !includeWhitespace || pos.x = 0 then some pos
      else if initialDelimiter = .controlChar then
        b.getDelimiterClassRunStart (b.decrementInExclusiveBounds pos) wordDelimiters
          includeWhitespace
      else some pos

def getWordEnd (b : TextBuffer) (pos : Point) (wordDelimiters : List WChar)
    (includeWhitespace : Bool) (limitOptional : Option Point) : Option Point :=
  let limit := limitOptional.getD b.bottomInclusiveRightExclusive
  if limit ≤ pos then some limit
  else
    let pos := if pos < origin then origin else pos
    (b.getDelimiterClassRunEnd pos wordDelimiters includeWhitespace).bind fun pos =>
      if limit ≤ pos then some limit
      else if !includeWhitespace || pos.x = b.width then some pos
      else if b.initialDelimClass pos wordDelimiters = .controlChar then
        (b.getDelimiterClassRunEnd pos wordDelimiters includeWhitespace).map fun pos =>
          if limit < pos then limit else pos
      else some pos

/-! ### Cells in reading order -/

/-- The `n`-th cell. -/
def cellAt (b : TextBuffer) (n : ℕ) : Point := ⟨(n % b.width : ℕ), (n / b.width : ℕ)⟩

/-- The exclusive end of the `n`-th cell, which may be the one of its row. -/
def endOfCell (b : TextBuffer) (n : ℕ) : Point := ⟨(n % b.width : ℕ) + 1, (n / b.width : ℕ)⟩

/-- A cell is linked to the next one: they have one class and no line ends between them. -/
def Linked (b : TextBuffer) (wordDelimiters : List WChar) (n : ℕ) : Prop :=
  b.getDelimiterClassAt (b.cellAt (n + 1)) wordDelimiters =
      b.getDelimiterClassAt (b.cellAt n) wordDelimiters ∧
    ((n + 1) % b.width = 0 → (b.row (n / b.width : ℕ)).wrapForced = true)

variable {b : TextBuffer} {wordDelimiters : List WChar} {n m : ℕ} {pos : Point}

theorem isInBounds_iff :
    b.isInBounds pos = true ↔ 0 ≤ pos.x ∧ pos.x < b.width ∧ 0 ≤ pos.y ∧ pos.y < b.height := by
  simp only [isInBounds, Bool.and_eq_true, decide_eq_true_eq, and_assoc]
  refine and_congr_right fun _ => and_congr_right fun _ => and_congr_right fun _ => ?_
  omega

theorem exists_cellAt (h : b.isInBounds pos = true) :
    ∃ n < b.width * b.height, pos = b.cellAt n := by
  obtain ⟨hx, hxw, hy, hyh⟩ := isInBounds_iff.mp h
  obtain ⟨x, hx⟩ := Int.eq_ofNat_of_zero_le hx
  obtain ⟨y, hy⟩ := Int.eq_ofNat_of_zero_le hy
  have hxlt : x < b.width := by omega
  have hylt : y < b.height := by omega
  refine ⟨b.width * y + x, ?_, ?_⟩
  · calc b.width * y + x < b.width * (y + 1) := by rw [Nat.mul_succ]; omega
      _ ≤ b.width * b.height := Nat.mul_le_mul_left _ hylt
  · rw [cellAt, Nat.mul_add_mod, Nat.mod_eq_of_lt hxlt, Nat.mul_add_div (by omega),
      Nat.div_eq_of_lt hxlt, Nat.add_zero, ← hx, ← hy]

theorem width_pos (hn : n < b.width * b.height) : 0 < b.width :=
  Nat.pos_of_mul_pos_right (Nat.zero_lt_of_lt hn)

theorem div_lt_height (hn : n < b.width * b.height) : n / b.width < b.height :=
  Nat.div_lt_of_lt_mul hn

theorem isInBounds_cellAt (hn : n < b.width * b.height) : b.isInBounds (b.cellAt n) = true := by
  have hx := Nat.mod_lt n (width_pos hn)
  have hy := div_lt_height hn
  rw [isInBounds_iff]
  exact ⟨Int.natCast_nonneg _, Int.ofNat_lt.mpr hx, Int.natCast_nonneg _, Int.ofNat_lt.mpr hy⟩

theorem cellAt_le_cellAt : b.cellAt n ≤ b.cellAt m ↔ n ≤ m := by
  have hn := Nat.div_add_mod n b.width
  have hm := Nat.div_add_mod m b.width
  rw [Point.le_def, cellAt, cellAt]
  dsimp only
  rw [Int.ofNat_lt, Int.ofNat_inj, Int.ofNat_le]
  constructor
  · rintro (hlt | ⟨heq, hle⟩)
    · exact (Nat.lt_of_div_lt_div hlt).le
    · rw [heq] at hn
      omega
  · intro hle
    rcases (Nat.div_le_div_right (c := b.width) hle).lt_or_eq with hlt | heq
    · exact .inl hlt
    · rw [heq] at hn
      exact .inr ⟨heq, by omega⟩

theorem cellAt_lt_endOfCell : b.cellAt n < b.endOfCell m ↔ n ≤ m := by
  rw [← cellAt_le_cellAt (b := b), Point.lt_def, Point.le_def, cellAt, cellAt, endOfCell]
  dsimp only
  rw [Int.lt_add_one_iff]

theorem walkInExclusiveBounds_eq {x y : ℤ} {delta : ℤ} (hx : 0 ≤ x) (hxw : x ≤ b.width)
    (hy : 0 ≤ y) (hyh : y < b.height)
    (h : (b.width + 1) * pos.y + pos.x + delta = (b.width + 1) * y + x) :
    b.walkInExclusiveBounds pos delta = ⟨x, y⟩ := by
  have hw : max 0 ((b.width : ℤ) + 1) = b.width + 1 := by omega
  have hh : max 0 (b.height : ℤ) = b.height := by omega
  have hrows : ((b.width : ℤ) + 1) * (y + 1) ≤ (b.width + 1) * b.height :=
    Int.mul_le_mul_of_nonneg_left (by omega) (by omega)
  have hnonneg : 0 ≤ ((b.width : ℤ) + 1) * y := Int.mul_nonneg (by omega) hy
  have hclamp : clampInt (((b.width : ℤ) + 1) * y + x) 0 ((b.width + 1) * b.height) =
      (b.width + 1) * y + x := by
    rw [Int.mul_add, Int.mul_one] at hrows
    rw [clampInt, if_neg (by omega), if_pos (by omega)]
  unfold walkInExclusiveBounds
  simp only [hw, hh, h, hclamp]
  rw [Int.add_comm, Int.add_mul_emod_self_left, Int.emod_eq_of_lt hx (by omega),
    Int.add_mul_ediv_left _ _ (by omega), Int.ediv_eq_zero_of_lt hx (by omega), Int.zero_add]

theorem incrementInExclusiveBounds_cellAt (hn : n < b.width * b.height) :
    b.incrementInExclusiveBounds (b.cellAt n) = b.endOfCell n := by
  have hx := Nat.mod_lt n (width_pos hn)
  have hy := div_lt_height hn
  refine walkInExclusiveBounds_eq (by omega) (by omega) (Int.natCast_nonneg _)
    (Int.ofNat_lt.mpr hy) ?_
  rw [cellAt, Int.add_assoc]

theorem decrementInExclusiveBounds_endOfCell (hn : n < b.width * b.height) :
    b.decrementInExclusiveBounds (b.endOfCell n) = b.cellAt n := by
  have hx := Nat.mod_lt n (width_pos hn)
  have hy := div_lt_height hn
  refine walkInExclusiveBounds_eq (Int.natCast_nonneg _) (by omega) (Int.natCast_nonneg _)
    (Int.ofNat_lt.mpr hy) ?_
  rw [endOfCell]
  dsimp only
  omega

theorem endOfCell_cases (hw : 0 < b.width) (n : ℕ) :
    ((n + 1) % b.width ≠ 0 ∧ (n + 1) / b.width = n / b.width ∧
        b.endOfCell n = b.cellAt (n + 1)) ∨
      ((n + 1) % b.width = 0 ∧ (n + 1) / b.width = n / b.width + 1 ∧
        b.endOfCell n = ⟨b.width, (n / b.width : ℕ)⟩ ∧
        b.cellAt (n + 1) = ⟨0, (n / b.width : ℕ) + 1⟩) := by
  have hx := Nat.mod_lt n hw
  have hsum := Nat.div_add_mod n b.width
  rcases Nat.lt_or_ge (n % b.width + 1) b.width with hlt | hge
  · left
    have hnext : n + 1 = b.width * (n / b.width) + (n % b.width + 1) := by omega
    have hmod : (n + 1) % b.width = n % b.width + 1 := by
      rw [hnext, Nat.mul_add_mod, Nat.mod_eq_of_lt hlt]
    have hdiv : (n + 1) / b.width = n / b.width := by
      rw [hnext, Nat.mul_add_div hw, Nat.div_eq_of_lt hlt, Nat.add_zero]
    refine ⟨by omega, hdiv, ?_⟩
    rw [endOfCell, cellAt, hmod, hdiv, Int.natCast_succ]
  · right
    have hend : n % b.width + 1 = b.width := by omega
    have hnext : n + 1 = b.width * (n / b.width + 1) := by
      rw [Nat.mul_succ]
      omega
    have hmod : (n + 1) % b.width = 0 := by rw [hnext, Nat.mul_mod_right]
    have hdiv : (n + 1) / b.width = n / b.width + 1 := by
      rw [hnext, Nat.mul_div_cancel_left _ hw]
    refine ⟨hmod, hdiv, ?_, ?_⟩
    · have hcol : ((n % b.width : ℕ) : ℤ) + 1 = b.width := by omega
      rw [endOfCell, hcol]
    · rw [cellAt, hmod, hdiv, Int.natCast_succ]
      rfl

theorem decrementInExclusiveBounds_cellAt (hn : n + 1 < b.width * b.height) :
    b.decrementInExclusiveBounds (b.cellAt (n + 1)) =
      if (n + 1) % b.width = 0 then b.endOfCell n else b.cellAt n := by
  have hn' := Nat.lt_of_succ_lt hn
  have hy := div_lt_height hn'
  rcases endOfCell_cases (width_pos hn) n with ⟨hmod, -, heq⟩ | ⟨hmod, -, hend, heq⟩
  · rw [if_neg hmod, ← heq, decrementInExclusiveBounds_endOfCell hn']
  · rw [if_pos hmod, heq, hend]
    refine walkInExclusiveBounds_eq (Int.natCast_nonneg _) le_rfl (Int.natCast_nonneg _)
      (Int.ofNat_lt.mpr hy) ?_
    dsimp only
    rw [Int.mul_add]
    omega

theorem incrementInExclusiveBounds_endOfCell (hn : n + 1 < b.width * b.height)
    (hmod : (n + 1) % b.width = 0) :
    b.incrementInExclusiveBounds (b.endOfCell n) = b.cellAt (n + 1) := by
  have hy := div_lt_height hn
  obtain ⟨hne, -⟩ | ⟨-, hdiv, hend, heq⟩ := endOfCell_cases (width_pos hn) n
  · exact absurd hmod hne
  rw [hdiv] at hy
  rw [hend, heq]
  refine walkInExclusiveBounds_eq le_rfl (Int.natCast_nonneg _)
    (Int.natCast_nonneg (n / b.width + 1)) (Int.ofNat_lt.mpr hy) ?_
  dsimp only
  rw [Int.mul_add]
  omega

/-! ### The scans find the ends of the run -/

variable {initial : DelimiterClass} {fuel : ℕ} {nextPos : Point}

theorem linked_iff (hclass : b.getDelimiterClassAt (b.cellAt n) wordDelimiters = initial) :
    b.Linked wordDelimiters n ↔
      b.getDelimiterClassAt (b.cellAt (n + 1)) wordDelimiters = initial ∧
        ((n + 1) % b.width = 0 → (b.row (n / b.width : ℕ)).wrapForced = true) := by
  rw [Linked, hclass]

theorem cellAt_x_ne (hw : 0 < b.width) (n : ℕ) : (b.cellAt n).x ≠ b.width := by
  have hx := Nat.mod_lt n hw
  rw [cellAt]
  dsimp only
  omega

theorem cellAt_succ_ne_origin (n : ℕ) : b.cellAt (n + 1) ≠ origin := by
  intro h
  rw [cellAt, origin, Point.mk.injEq, Int.natCast_eq_zero, Int.natCast_eq_zero] at h
  have hsum := Nat.div_add_mod (n + 1) b.width
  rw [h.1, h.2] at hsum
  omega

theorem runStartLoop_onto (hw : 0 < b.width) (hne : nextPos ≠ origin)
    (hstep : b.decrementInExclusiveBounds nextPos = b.cellAt n) :
    b.runStartLoop wordDelimiters false initial (fuel + 1) pos nextPos =
      if b.getDelimiterClassAt (b.cellAt n) wordDelimiters ≠ initial then some pos
      else b.runStartLoop wordDelimiters false initial fuel (b.cellAt n) (b.cellAt n) := by
  rw [runStartLoop, if_neg hne, hstep]
  simp only
  rw [if_neg (cellAt_x_ne hw n)]

theorem runStartLoop_behind (hne : nextPos ≠ origin)
    (hx : (b.decrementInExclusiveBounds nextPos).x = b.width) :
    b.runStartLoop wordDelimiters false initial (fuel + 1) pos nextPos =
      if (b.row (b.decrementInExclusiveBounds nextPos).y).wrapForced = true then
        b.runStartLoop wordDelimiters false initial fuel pos (b.decrementInExclusiveBounds nextPos)
      else some pos := by
  rw [runStartLoop, if_neg hne]
  simp only
  rw [if_pos hx]
  split_ifs with h h' <;> simp_all

theorem runStartLoop_cellAt (hn : n < b.width * b.height)
    (hclass : b.getDelimiterClassAt (b.cellAt n) wordDelimiters = initial)
    (hfuel : n + n / b.width < fuel) :
    ∃ s, b.runStartLoop wordDelimiters false initial fuel (b.cellAt n) (b.cellAt n) =
        some (b.cellAt s) ∧ IsRunStart (b.Linked wordDelimiters) n s := by
  have hw := width_pos hn
  induction n generalizing fuel with
  | zero =>
    obtain ⟨fuel, rfl⟩ := Nat.exists_eq_succ_of_ne_zero (Nat.ne_of_gt (Nat.zero_lt_of_lt hfuel))
    have horigin : b.cellAt 0 = origin := by rw [cellAt, Nat.zero_mod, Nat.zero_div]; rfl
    refine ⟨0, ?_, le_rfl, LinkedOn.refl _ 0, fun k hk => absurd hk (Nat.succ_ne_zero k)⟩
    rw [runStartLoop, horigin, if_pos rfl]
  | succ n ih =>
    have hn' := Nat.lt_of_succ_lt hn
    -- what is left to do on the cell before, once the scan has come there
    have hrest : ∀ rounds, n + n / b.width < rounds →
        ((n + 1) % b.width = 0 → (b.row (n / b.width : ℕ)).wrapForced = true) →
        ∃ s, (if b.getDelimiterClassAt (b.cellAt n) wordDelimiters ≠ initial then
            some (b.cellAt (n + 1))
          else b.runStartLoop wordDelimiters false initial rounds (b.cellAt n) (b.cellAt n)) =
            some (b.cellAt s) ∧ IsRunStart (b.Linked wordDelimiters) (n + 1) s := by
      intro rounds hrounds hwrap
      by_cases heq : b.getDelimiterClassAt (b.cellAt n) wordDelimiters = initial
      · obtain ⟨s, hs, hrun⟩ := ih hn' heq hrounds
        have hlink : b.Linked wordDelimiters n := (linked_iff heq).mpr ⟨hclass, hwrap⟩
        exact ⟨s, by rw [if_neg (not_not.mpr heq), hs], Nat.le_succ_of_le hrun.le,
          hrun.linked.trans (.succ hlink), hrun.first⟩
      · refine ⟨n + 1, if_pos heq, le_rfl, LinkedOn.refl _ _, ?_⟩
        rintro k hk ⟨hsame, -⟩
        obtain rfl : k = n := by omega
        exact heq (hsame.symm.trans hclass)
    obtain ⟨fuel, rfl⟩ := Nat.exists_eq_succ_of_ne_zero (Nat.ne_of_gt (Nat.zero_lt_of_lt hfuel))
    have hstep := decrementInExclusiveBounds_cellAt hn
    rcases endOfCell_cases hw n with ⟨hmod, hdiv, -⟩ | ⟨hmod, hdiv, hend, -⟩
    · rw [if_neg hmod] at hstep
      rw [runStartLoop_onto hw (cellAt_succ_ne_origin n) hstep]
      exact hrest fuel (by omega) fun h => absurd h hmod
    · rw [if_pos hmod] at hstep
      have hx : (b.endOfCell n).x = b.width := by rw [hend]
      rw [runStartLoop_behind (cellAt_succ_ne_origin n) (by rw [hstep]; exact hx), hstep]
      have hrow : (b.endOfCell n).y = (n / b.width : ℕ) := rfl
      rw [hrow]
      by_cases hwrap : (b.row (n / b.width : ℕ)).wrapForced = true
      · have hpos : fuel ≠ 0 := by
          have := Nat.zero_le ((n + 1) / b.width)
          omega
        obtain ⟨fuel, rfl⟩ := Nat.exists_eq_succ_of_ne_zero hpos
        have hne : b.endOfCell n ≠ origin := by
          intro h
          rw [h, origin] at hx
          dsimp only at hx
          omega
        rw [if_pos hwrap, runStartLoop_onto hw hne (decrementInExclusiveBounds_endOfCell hn')]
        exact hrest fuel (by omega) fun _ => hwrap
      · refine ⟨n + 1, if_neg hwrap, le_rfl, LinkedOn.refl _ _, ?_⟩
        rintro k hk ⟨-, hforced⟩
        obtain rfl : k = n := by omega
        exact hwrap (hforced hmod)

theorem runEndLoop_cellAt_succ (hn : n < b.width * b.height) :
    b.runEndLoop wordDelimiters false initial (fuel + 1) (b.cellAt n) =
      if b.isInBounds (b.endOfCell n) &&
          b.getDelimiterClassAt (b.endOfCell n) wordDelimiters ≠ initial then
        some (b.endOfCell n)
      else b.runEndLoop wordDelimiters false initial fuel (b.endOfCell n) := by
  have hne : b.cellAt n ≠ b.bottomInclusiveRightExclusive := fun h =>
    cellAt_x_ne (width_pos hn) n (congrArg Point.x h)
  have hx : (b.endOfCell n).x ≠ 0 := by
    rw [endOfCell]
    dsimp only
    omega
  rw [runEndLoop, if_neg hne, incrementInExclusiveBounds_cellAt hn]
  simp only
  rw [if_neg hx]

theorem runEndLoop_endOfCell (hn : n + 1 < b.width * b.height) (hmod : (n + 1) % b.width = 0) :
    b.runEndLoop wordDelimiters false initial (fuel + 1) (b.endOfCell n) =
      if (b.row (n / b.width : ℕ)).wrapForced = true ∧
          b.getDelimiterClassAt (b.cellAt (n + 1)) wordDelimiters = initial then
        b.runEndLoop wordDelimiters false initial fuel (b.cellAt (n + 1))
      else some (b.endOfCell n) := by
  have hy := div_lt_height hn
  obtain ⟨hmod', -⟩ | ⟨-, hdiv, -, heq⟩ := endOfCell_cases (width_pos hn) n
  · exact absurd hmod hmod'
  have hne : b.endOfCell n ≠ b.bottomInclusiveRightExclusive := by
    intro h
    have h := congrArg Point.y h
    rw [endOfCell, bottomInclusiveRightExclusive] at h
    dsimp only at h
    omega
  have hx : (b.cellAt (n + 1)).x = 0 := by rw [heq]
  have hrow : (b.endOfCell n).y = (n / b.width : ℕ) := rfl
  rw [runEndLoop, if_neg hne, incrementInExclusiveBounds_endOfCell hn hmod]
  simp only
  rw [if_pos hx, if_neg (Bool.false_ne_true), hrow]
  split_ifs with h h' <;> simp_all

theorem isInBounds_behind {y : ℤ} : b.isInBounds ⟨b.width, y⟩ = false := by
  rw [Bool.eq_false_iff, Ne, isInBounds_iff]
  rintro ⟨-, hlt, -⟩
  exact lt_irrefl _ hlt

theorem runEndLoop_cellAt (k : ℕ) (hk : n + k + 1 = b.width * b.height)
    (hclass : b.getDelimiterClassAt (b.cellAt n) wordDelimiters = initial)
    (hfuel : (b.width + 1) * b.height < fuel + (n + n / b.width)) :
    ∃ e, b.runEndLoop wordDelimiters false initial fuel (b.cellAt n) = some (b.endOfCell e) ∧
      IsRunLast (b.Linked wordDelimiters) (b.width * b.height - 1) n e := by
  induction k generalizing n fuel with
  | zero =>
    have hn : n < b.width * b.height := by omega
    have hw := width_pos hn
    have hrows : (n + 1) / b.width = b.height := by
      rw [show n + 1 = b.width * b.height by omega, Nat.mul_div_cancel_left _ hw]
    have hmod : (n + 1) % b.width = 0 := by
      rw [show n + 1 = b.width * b.height by omega, Nat.mul_mod_right]
    obtain ⟨hmod', -⟩ | ⟨-, hdiv, hend, -⟩ := endOfCell_cases hw n
    · exact absurd hmod hmod'
    have hlast : b.endOfCell n = b.bottomInclusiveRightExclusive := by
      have hy : ((n / b.width : ℕ) : ℤ) = b.height - 1 := by omega
      rw [hend, hy, bottomInclusiveRightExclusive]
    rw [Nat.add_mul, Nat.one_mul] at hfuel
    obtain ⟨fuel, rfl⟩ : ∃ f, fuel = f + 2 := ⟨fuel - 2, by omega⟩
    refine ⟨n, ?_, le_rfl, by omega, LinkedOn.refl _ n, fun h => by omega⟩
    rw [runEndLoop_cellAt_succ hn, hend, isInBounds_behind, Bool.false_and, ← hend,
      if_neg Bool.false_ne_true, runEndLoop, if_pos hlast]
  | succ k ih =>
    have hn : n < b.width * b.height := by omega
    have hn' : n + 1 < b.width * b.height := by omega
    have hw := width_pos hn
    have hrow : n / b.width < b.height := div_lt_height hn
    -- what is left to do on the next cell, once the scan has come there
    have hnext : ∀ rounds,
        (b.width + 1) * b.height < rounds + (n + 1 + (n + 1) / b.width) →
        b.Linked wordDelimiters n →
        ∃ e, b.runEndLoop wordDelimiters false initial rounds (b.cellAt (n + 1)) =
            some (b.endOfCell e) ∧
          IsRunLast (b.Linked wordDelimiters) (b.width * b.height - 1) n e := by
      intro rounds hrounds hlink
      obtain ⟨e, he, hrun⟩ := ih (by omega) ((linked_iff hclass).mp hlink).1 hrounds
      exact ⟨e, he, (Nat.le_succ n).trans hrun.ge, hrun.le_top,
        LinkedOn.trans (.succ hlink) hrun.linked, hrun.last⟩
    have hstop : ¬ b.Linked wordDelimiters n →
        IsRunLast (b.Linked wordDelimiters) (b.width * b.height - 1) n n :=
      fun hnot => ⟨le_rfl, by omega, LinkedOn.refl _ n, fun _ => hnot⟩
    have hsum : (b.width + 1) * b.height = b.width * b.height + b.height := by
      rw [Nat.add_mul, Nat.one_mul]
    obtain ⟨fuel, rfl⟩ : ∃ f, fuel = f + 2 := ⟨fuel - 2, by omega⟩
    rw [runEndLoop_cellAt_succ hn]
    rcases endOfCell_cases hw n with ⟨hmod, hdiv, heq⟩ | ⟨hmod, hdiv, hend, -⟩
    · rw [heq, isInBounds_cellAt hn', Bool.true_and]
      by_cases hsame : b.getDelimiterClassAt (b.cellAt (n + 1)) wordDelimiters = initial
      · rw [if_neg (by simpa using hsame)]
        exact hnext _ (by omega) ((linked_iff hclass).mpr ⟨hsame, fun h => absurd h hmod⟩)
      · refine ⟨n, by rw [if_pos (by simpa using hsame), ← heq], hstop fun hlink => ?_⟩
        exact hsame ((linked_iff hclass).mp hlink).1
    · rw [hend, isInBounds_behind, Bool.false_and, if_neg Bool.false_ne_true, ← hend,
        runEndLoop_endOfCell hn' hmod]
      by_cases hboth : (b.row (n / b.width : ℕ)).wrapForced = true ∧
          b.getDelimiterClassAt (b.cellAt (n + 1)) wordDelimiters = initial
      · rw [if_pos hboth]
        exact hnext _ (by omega) ((linked_iff hclass).mpr ⟨hboth.2, fun _ => hboth.1⟩)
      · refine ⟨n, by rw [if_neg hboth], hstop fun hlink => hboth ?_⟩
        obtain ⟨hsame, hwrap⟩ := (linked_iff hclass).mp hlink
        exact ⟨hwrap hmod, hsame⟩

/-! ### Words -/

theorem getWordStart_cellAt (wordDelimiters : List WChar) (hn : n < b.width * b.height) :
    ∃ s, b.getWordStart (b.cellAt n) wordDelimiters false none = some (b.cellAt s) ∧
      IsRunStart (b.Linked wordDelimiters) n s := by
  have hin := isInBounds_cellAt hn
  obtain ⟨hx, hxw, hy, hyh⟩ := isInBounds_iff.mp hin
  have horigin : ¬ b.cellAt n < origin := by
    rw [Point.lt_def, origin]
    dsimp only
    omega
  have hlimit : ¬ b.bottomInclusiveRightExclusive ≤ b.cellAt n := by
    rw [Point.le_def, bottomInclusiveRightExclusive]
    dsimp only
    omega
  have hfuel : n + n / b.width < b.scanFuel := by
    have hdiv := div_lt_height hn
    rw [scanFuel, Nat.add_mul, Nat.one_mul]
    omega
  have hinitial : b.getDelimiterClassAt (b.cellAt n) wordDelimiters =
      b.initialDelimClass (b.cellAt n) wordDelimiters := by
    rw [initialDelimClass, if_pos hin]
  obtain ⟨s, hs, hrun⟩ := runStartLoop_cellAt hn hinitial hfuel
  refine ⟨s, ?_, hrun⟩
  unfold getWordStart
  simp only [Option.getD_none, if_neg horigin, if_neg hlimit, getDelimiterClassRunStart, hs,
    Option.bind_some, Bool.not_false, Bool.true_or, if_true]

theorem getWordEnd_cellAt (wordDelimiters : List WChar) (hn : n < b.width * b.height) :
    ∃ e, b.getWordEnd (b.cellAt n) wordDelimiters false none = some (b.endOfCell e) ∧
      IsRunLast (b.Linked wordDelimiters) (b.width * b.height - 1) n e := by
  have hin := isInBounds_cellAt hn
  obtain ⟨hx, hxw, hy, hyh⟩ := isInBounds_iff.mp hin
  have horigin : ¬ b.cellAt n < origin := by
    rw [Point.lt_def, origin]
    dsimp only
    omega
  have hlimit : ¬ b.bottomInclusiveRightExclusive ≤ b.cellAt n := by
    rw [Point.le_def, bottomInclusiveRightExclusive]
    dsimp only
    omega
  have hinitial : b.getDelimiterClassAt (b.cellAt n) wordDelimiters =
      b.initialDelimClass (b.cellAt n) wordDelimiters := by
    rw [initialDelimClass, if_pos hin]
  have hfuel : (b.width + 1) * b.height < b.scanFuel + (n + n / b.width) := by
    rw [scanFuel]
    exact (Nat.lt_succ_self _).trans_le (Nat.le_add_right _ _)
  obtain ⟨e, he, hrun⟩ :=
    runEndLoop_cellAt (b.width * b.height - 1 - n) (by omega) hinitial hfuel
  refine ⟨e, ?_, hrun⟩
  -- the exclusive end of a cell is not past the limit
  have hclamp : b.bottomInclusiveRightExclusive ≤ b.endOfCell e →
      b.bottomInclusiveRightExclusive = b.endOfCell e := by
    have he' : e < b.width * b.height := by
      have := hrun.le_top
      omega
    have hcol := Nat.mod_lt e (width_pos he')
    have hrow := div_lt_height he'
    rw [Point.le_def, endOfCell, bottomInclusiveRightExclusive]
    dsimp only
    rintro (hlt | ⟨heq, hle⟩)
    · omega
    · rw [Point.mk.injEq]
      exact ⟨by omega, heq⟩
  unfold getWordEnd
  simp only [Option.getD_none, if_neg horigin, if_neg hlimit, getDelimiterClassRunEnd, he,
    Option.bind_some, Bool.not_false, Bool.true_or, if_true]
  split_ifs with hpast
  · rw [hclamp hpast]
  · rfl

/-- The words partition the cells: the word around a position contains it, its cells have one
delimiter class and go on only behind force-wrapped rows, and each of them selects the same
word. -/
theorem words_partition (b : TextBuffer) (wordDelimiters : List WChar) (p : Point)
    (hp : b.isInBounds p = true) :
    ∃ s e, b.getWordStart p wordDelimiters false none = some s ∧
      b.getWordEnd p wordDelimiters false none = some e ∧ s ≤ p ∧ p < e ∧
      (∀ y, s.y ≤ y → y < e.y → (b.row y).wrapForced = true) ∧
      ∀ q, b.isInBounds q = true → s ≤ q → q < e →
        b.getDelimiterClassAt q wordDelimiters = b.getDelimiterClassAt p wordDelimiters ∧
          b.getWordStart q wordDelimiters false none = some s ∧
          b.getWordEnd q wordDelimiters false none = some e := by
  obtain ⟨n, hn, rfl⟩ := exists_cellAt hp
  have hw := width_pos hn
  obtain ⟨s, hs, hstart⟩ := getWordStart_cellAt wordDelimiters hn
  obtain ⟨e, he, hlast⟩ := getWordEnd_cellAt wordDelimiters hn
  have hword : LinkedOn (b.Linked wordDelimiters) s e := hstart.linked.trans hlast.linked
  refine ⟨_, _, hs, he, cellAt_le_cellAt.mpr hstart.le, cellAt_lt_endOfCell.mpr hlast.ge, ?_, ?_⟩
  · intro y hsy hye
    obtain ⟨y, rfl⟩ := Int.eq_ofNat_of_zero_le ((Int.natCast_nonneg (s / b.width)).trans hsy)
    have hsy : s / b.width ≤ y := Int.ofNat_le.mp hsy
    have hye : y < e / b.width := Int.ofNat_lt.mp hye
    -- the last cell of the row is in the word, and so is the one behind it
    have hlower : s ≤ b.width * y + (b.width - 1) := by
      have := Nat.lt_mul_div_succ s hw
      have := Nat.mul_le_mul_left b.width hsy
      rw [Nat.mul_succ] at *
      omega
    have hupper : b.width * y + (b.width - 1) < e := by
      have := Nat.mul_div_le e b.width
      have := Nat.mul_le_mul_left b.width (Nat.succ_le_of_lt hye)
      rw [Nat.mul_succ] at this
      omega
    have hlink := (hword _ hlower hupper).2
    have hseam : b.width * y + (b.width - 1) + 1 = b.width * (y + 1) := by
      rw [Nat.mul_succ]
      omega
    have hrow : (b.width * y + (b.width - 1)) / b.width = y := by
      rw [Nat.mul_add_div hw, Nat.div_eq_of_lt (by omega), Nat.add_zero]
    rw [hseam, Nat.mul_mod_right, hrow] at hlink
    exact hlink rfl
  · intro q hq hsq hqe
    obtain ⟨m, hm, rfl⟩ := exists_cellAt hq
    have hsm := cellAt_le_cellAt.mp hsq
    have hme := cellAt_lt_endOfCell.mp hqe
    have hclass : ∀ k, s ≤ k → k ≤ e → b.getDelimiterClassAt (b.cellAt k) wordDelimiters =
        b.getDelimiterClassAt (b.cellAt s) wordDelimiters := fun k hsk hke =>
      LinkedOn.constant (f := fun i => b.getDelimiterClassAt (b.cellAt i) wordDelimiters)
        (fun _ h => h.1) (hword.mono le_rfl hke) hsk
    obtain ⟨s', hs', hstart'⟩ := getWordStart_cellAt wordDelimiters hm
    obtain ⟨e', he', hlast'⟩ := getWordEnd_cellAt wordDelimiters hm
    refine ⟨(hclass m hsm hme).trans (hclass n hstart.le hlast.ge).symm, ?_, ?_⟩
    · rw [hs', hstart'.unique (hstart.of_linkedOn hsm (hword.mono le_rfl hme))]
    · rw [he', hlast'.unique (hlast.of_linkedOn hme (hword.mono hsm le_rfl))]

/-- Two rows of two columns with the text `abc`, the first row force-wrapped. -/
def wrappedWord : TextBuffer where
  rows := [ROW.construct 2 {},
    { ROW.construct 2 {} with chars := [0x61, 0x62], wrapForced := true },
    { ROW.construct 2 {} with chars := [0x63, space] }]
  width := 2
  height := 2

theorem words_partition_wrapped : ∃ s e,
    wrappedWord.getWordStart ⟨1, 0⟩ [] false none = some s ∧
      wrappedWord.getWordEnd ⟨1, 0⟩ [] false none = some e ∧ s ≤ ⟨1, 0⟩ ∧ ⟨1, 0⟩ < e ∧
      (∀ y, s.y ≤ y → y < e.y → (wrappedWord.row y).wrapForced = true) ∧
      ∀ q, wrappedWord.isInBounds q = true → s ≤ q → q < e →
        wrappedWord.getDelimiterClassAt q [] = wrappedWord.getDelimiterClassAt ⟨1, 0⟩ [] ∧
          wrappedWord.getWordStart q [] false none = some s ∧
          wrappedWord.getWordEnd q [] false none = some e :=
  words_partition wrappedWord [] ⟨1, 0⟩ (by decide)

example : wrappedWord.getWordStart ⟨0, 1⟩ [] false none = some ⟨0, 0⟩ ∧
    wrappedWord.getWordEnd ⟨0, 0⟩ [] false none = some ⟨1, 1⟩ := by decide

end TextBuffer

end IntelligentTerminal.Buffer
