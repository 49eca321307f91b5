import IntelligentTerminal.Buffer.TextBuffer
import IntelligentTerminal.Buffer.Rendition

/-!
# Blinking text in a region

The renderer asks the buffer whether a region has blinking text, and schedules a timer if it has. The
buffer looks at its rows from the top of the region to the last row of the region or the last
committed one, whichever comes first, and at that last row itself it does not look.

Source: `src/buffer/out/textBuffer.cpp`, lines 209-232 and 3531-3551;
`src/buffer/out/TextAttribute.cpp`, lines 255-258.
-/

namespace IntelligentTerminal.Buffer

def TextAttribute.isBlinking (a : TextAttribute) : Bool :=
  isAnyFlagSet a.attrs CharacterAttributes.blinking

/-- The inner loop of `ContainsBlinkAttributeInRegion`: a cell of the row is blinking. -/
def ROW.hasBlinking (r : ROW) : Bool := r.attr.any TextAttribute.isBlinking

namespace TextBuffer

/-- The outer loop of `ContainsBlinkAttributeInRegion`, for `count` rows from `row` on.
`GetRowByOffset` commits the rows that it is asked for. -/
def blinkLoop : ℕ → ℤ → TextBuffer → Bool × TextBuffer
  | 0, _, b => (false, b)
  | count + 1, row, b =>
    let (r, b) := b.getRow row
    if r.hasBlinking then (true, b) else blinkLoop count (row + 1) b

/-- The bound of the loop: `row < bottom`. -/
def blinkBottom (b : TextBuffer) (region : Viewport) : ℤ :=
  min region.bottomInclusive b.estimateOffsetOfLastCommittedRow

/-- `TextBuffer::ContainsBlinkAttributeInRegion`, and the buffer with the rows committed. -/
def containsBlinkAttributeInRegion (b : TextBuffer) (region : Viewport) : Bool × TextBuffer :=
  blinkLoop (b.blinkBottom region - region.top).toNat region.top b

/-- The row at `y` lies in front of `_commitWatermark`. -/
def IsCommitted (b : TextBuffer) (y : ℤ) : Prop := b.rowIndex y + 1 < b.rows.length

instance (b : TextBuffer) (y : ℤ) : Decidable (b.IsCommitted y) :=
  inferInstanceAs (Decidable (_ < _))

/-- A cell of a committed row of the region is blinking. -/
def BlinksIn (b : TextBuffer) (region : Viewport) : Prop :=
  ∃ y, region.top ≤ y ∧ y ≤ region.bottomInclusive ∧ b.IsCommitted y ∧
    ∃ a ∈ (b.row y).attr, a.isBlinking

/-! ### The rows that are looked at -/

variable {b : TextBuffer} {region : Viewport}

theorem blinkLoop_succ (count : ℕ) (row : ℤ) (b : TextBuffer) :
    blinkLoop (count + 1) row b =
      if (b.getRow row).1.hasBlinking then (true, (b.getRow row).2)
      else blinkLoop count (row + 1) (b.getRow row).2 :=
  rfl

theorem hasBlinking_iff (r : ROW) : r.hasBlinking = true ↔ ∃ a ∈ r.attr, a.isBlinking :=
  List.any_eq_true

theorem blinkLoop_iff (count : ℕ) (row : ℤ) (b : TextBuffer) :
    (blinkLoop count row b).1 = true ↔
      ∃ y, row ≤ y ∧ y < row + count ∧ (b.row y).hasBlinking = true := by
  induction count generalizing row b with
  | zero =>
    refine iff_of_false Bool.false_ne_true ?_
    rintro ⟨y, hle, hlt, -⟩
    omega
  | succ count ih =>
    have hrow (y : ℤ) : (b.getRow row).2.row y = b.row y := b.row_commit _ y
    rw [blinkLoop_succ, b.getRow_fst]
    by_cases hblinks : (b.row row).hasBlinking = true
    · rw [if_pos hblinks]
      exact iff_of_true rfl ⟨row, le_rfl, by omega, hblinks⟩
    · rw [if_neg hblinks, ih]
      constructor
      · rintro ⟨y, hle, hlt, hy⟩
        rw [hrow] at hy
        exact ⟨y, by omega, by omega, hy⟩
      · rintro ⟨y, hle, hlt, hy⟩
        have hne : y ≠ row := by
          rintro rfl
          exact hblinks hy
        refine ⟨y, by omega, by omega, ?_⟩
        rw [hrow]
        exact hy

theorem containsBlinkAttributeInRegion_iff (b : TextBuffer) (region : Viewport) :
    (b.containsBlinkAttributeInRegion region).1 = true ↔
      ∃ y, region.top ≤ y ∧ y < b.blinkBottom region ∧ (b.row y).hasBlinking = true := by
  rw [containsBlinkAttributeInRegion, blinkLoop_iff]
  have hbound (y : ℤ) (hy : region.top ≤ y) :
      y < region.top + (b.blinkBottom region - region.top).toNat ↔ y < b.blinkBottom region := by
    omega
  constructor
  · rintro ⟨y, hle, hlt, hy⟩
    exact ⟨y, hle, (hbound y hle).mp hlt, hy⟩
  · rintro ⟨y, hle, hlt, hy⟩
    exact ⟨y, hle, (hbound y hle).mpr hlt, hy⟩

/-! ### When the answer is that of the region -/

/-- The answer is exact if and only if a blinking row from the bound on comes with one in front of
it, and a blinking row that the loop has to commit comes with a committed one. -/
theorem containsBlink_exact_iff (b : TextBuffer) (region : Viewport) :
    ((b.containsBlinkAttributeInRegion region).1 = true ↔ b.BlinksIn region) ↔
      (∀ y, region.top ≤ y → b.blinkBottom region ≤ y → y ≤ region.bottomInclusive →
        b.IsCommitted y → (b.row y).hasBlinking = true →
          ∃ z, region.top ≤ z ∧ z < b.blinkBottom region ∧ (b.row z).hasBlinking = true) ∧
      (∀ y, region.top ≤ y → y < b.blinkBottom region → ¬ b.IsCommitted y →
        (b.row y).hasBlinking = true →
          ∃ z, region.top ≤ z ∧ z ≤ region.bottomInclusive ∧ b.IsCommitted z ∧
            (b.row z).hasBlinking = true) := by
  have hregion : b.BlinksIn region ↔ ∃ z, region.top ≤ z ∧ z ≤ region.bottomInclusive ∧
      b.IsCommitted z ∧ (b.row z).hasBlinking = true := by
    simp only [BlinksIn, hasBlinking_iff]
  have hbound : b.blinkBottom region ≤ region.bottomInclusive := min_le_left _ _
  rw [containsBlinkAttributeInRegion_iff, hregion]
  constructor
  · intro hexact
    refine ⟨fun y htop _ hbottom hcommitted hy => ?_, fun y htop hlt _ hy => ?_⟩
    · exact hexact.mpr ⟨y, htop, hbottom, hcommitted, hy⟩
    · exact hexact.mp ⟨y, htop, hlt, hy⟩
  · rintro ⟨hbehind, huncommitted⟩
    constructor
    · rintro ⟨y, htop, hlt, hy⟩
      by_cases hcommitted : b.IsCommitted y
      · exact ⟨y, htop, by omega, hcommitted, hy⟩
      · exact huncommitted y htop hlt hcommitted hy
    · rintro ⟨z, htop, hbottom, hcommitted, hz⟩
      rcases lt_or_ge z (b.blinkBottom region) with hlt | hge
      · exact ⟨z, htop, hlt, hz⟩
      · exact hbehind z htop hge hbottom hcommitted hz

/-- A buffer of two rows with blinking text in the second one. -/
theorem containsBlink_misses_last_row :
    let blank : ROW := ROW.construct 1 {}
    let blinking : ROW := ROW.construct 1 (TextAttribute.setBlinking {} true)
    let b : TextBuffer := { rows := [blank, blank, blinking], width := 1, height := 2 }
    let region : Viewport := { top := 0, bottomInclusive := 1 }
    b.BlinksIn region ∧ (b.containsBlinkAttributeInRegion region).1 = false := by
  refine ⟨⟨1, by decide, by decide, by decide, ?_⟩, by decide⟩
  exact ⟨TextAttribute.setBlinking {} true, by decide, by decide⟩

/-! ### Buffers that have not been rotated -/

end TextBuffer

end IntelligentTerminal.Buffer
