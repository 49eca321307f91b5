import IntelligentTerminal.Buffer.TextBuffer
import Mathlib

/-!
# Positions in a viewport

A viewport numbers its positions row by row. `WalkInBounds` adds a distance to the number of a
position, and `CompareInBounds` is the distance of two positions. In exclusive bounds each row has one
more position, behind its last column. `WalkInExclusiveBounds` counts it, while
`CompareInExclusiveBounds` has rows of the plain width, and the walk stops one position too late.

Source: `src/types/viewport.cpp`, lines 48-140, 172-190 and 237-356.
-/

namespace IntelligentTerminal.Types

open Buffer (Point clampInt)

/-- The arithmetic of `til::CoordType`, which is `int32_t`. -/
def coord (x : ℤ) : ℤ := x.bmod (2 ^ 32)

/-- `class Viewport`, with the fields of `_sr`. -/
structure Viewport where
  left : ℤ
  top : ℤ
  right : ℤ
  bottom : ℤ

namespace Viewport

def rightExclusive (v : Viewport) : ℤ := coord (v.right + 1)

def bottomExclusive (v : Viewport) : ℤ := coord (v.bottom + 1)

def width (v : Viewport) : ℤ := coord (v.rightExclusive - v.left)

def origin (v : Viewport) : Point := ⟨v.left, v.top⟩

def bottomRightInclusive (v : Viewport) : Point := ⟨v.right, v.bottom⟩

def bottomInclusiveRightExclusive (v : Viewport) : Point := ⟨v.rightExclusive, v.bottom⟩

def endExclusive (v : Viewport) : Point := ⟨v.left, v.bottomExclusive⟩

def isInBounds (v : Viewport) (pos : Point) (allowEndExclusive : Bool) : Bool :=
  if allowEndExclusive = true ∧ pos = v.endExclusive then true
  else v.left ≤ pos.x && pos.x < v.rightExclusive && v.top ≤ pos.y && pos.y < v.bottomExclusive

def isInExclusiveBounds (v : Viewport) (pos : Point) : Bool :=
  v.left ≤ pos.x && pos.x ≤ v.rightExclusive && v.top ≤ pos.y && pos.y ≤ v.bottom

/-- The distance of two positions in rows of the width of the viewport. -/
def distance (v : Viewport) (first second : Point) : ℤ :=
  coord (coord (coord (first.y - second.y) * v.width) + coord (first.x - second.x))

def compareInBounds (v : Viewport) (first second : Point) : ℤ := v.distance first second

def compareInExclusiveBounds (v : Viewport) (first second : Point) : ℤ := v.distance first second

/-- A walk over rows of the width `w`, up to the position `max`. The sums are of type `ptrdiff_t`,
which has 64 bits. -/
def walk (v : Viewport) (w max : ℤ) (pos : Point) (delta : ℤ) : Point × Bool :=
  let off := w * (pos.y - v.top) + (pos.x - v.left) + delta
  let offClamped := clampInt off 0 max
  (⟨coord (offClamped.tmod w + v.left), coord (offClamped.tdiv w + v.top)⟩, off = offClamped)

/-- `Viewport::WalkInBounds`: the position and the result. -/
def walkInBounds (v : Viewport) (pos : Point) (delta : ℤ) (allowEndExclusive : Bool) :
    Point × Bool :=
  let w := max 0 (coord (coord (v.right - v.left) + 1))
  let h := max 0 (coord (coord (v.bottom - v.top) + 1))
  v.walk w (w * h - (if allowEndExclusive then 0 else 1)) pos delta

/-- `Viewport::WalkInExclusiveBounds`: the position and the result. -/
def walkInExclusiveBounds (v : Viewport) (pos : Point) (delta : ℤ) : Point × Bool :=
  let w := max 0 (coord (coord (v.right - v.left) + 2))
  let h := max 0 (coord (coord (v.bottom - v.top) + 1))
  v.walk w (w * h) pos delta

/-- A viewport that `IsValid` accepts, whose coordinates and number of cells are in the range of
`int32_t`. -/
structure Valid (v : Viewport) : Prop where
  left_nonneg : 0 ≤ v.left
  top_nonneg : 0 ≤ v.top
  left_le : v.left ≤ v.right
  top_le : v.top ≤ v.bottom
  right_lt : v.right + 1 < 2 ^ 31
  bottom_lt : v.bottom + 1 < 2 ^ 31
  cells_lt : (v.right - v.left + 1) * (v.bottom - v.top + 1) < 2 ^ 31

/-- `WalkInBounds` agrees with `CompareInBounds`. -/
structure WalkAgrees (v : Viewport) (pos : Point) (delta : ℤ) (allowEndExclusive : Bool) : Prop where
  inBounds : v.isInBounds (v.walkInBounds pos delta allowEndExclusive).1 allowEndExclusive = true
  moves_iff : (v.walkInBounds pos delta allowEndExclusive).2 = true ↔
    v.compareInBounds (v.walkInBounds pos delta allowEndExclusive).1 pos = delta
  stops : (v.walkInBounds pos delta allowEndExclusive).2 = false →
    (v.walkInBounds pos delta allowEndExclusive).1 =
      if delta < 0 then v.origin
      else if allowEndExclusive then v.endExclusive else v.bottomRightInclusive

/-- `WalkInExclusiveBounds` agrees with `CompareInExclusiveBounds`. -/
structure ExclusiveWalkAgrees (v : Viewport) (pos : Point) (delta : ℤ) : Prop where
  inBounds : v.isInExclusiveBounds (v.walkInExclusiveBounds pos delta).1 = true
  moves_iff : (v.walkInExclusiveBounds pos delta).2 = true ↔
    v.compareInExclusiveBounds (v.walkInExclusiveBounds pos delta).1 pos = delta
  stops : (v.walkInExclusiveBounds pos delta).2 = false →
    (v.walkInExclusiveBounds pos delta).1 =
      if delta < 0 then v.origin else v.bottomInclusiveRightExclusive

/-- A walk in exclusive bounds that stays in its row, or that is stopped at the first position. -/
def StaysInRow (v : Viewport) (pos : Point) (delta : ℤ) : Prop :=
  v.left ≤ pos.x + delta ∧ pos.x + delta ≤ v.right + 1 ∨
    (v.right - v.left + 2) * (pos.y - v.top) + (pos.x - v.left) + delta < 0

/-- The end of a row and the beginning of the next. -/
structure IsRowBreak (v : Viewport) (first second : Point) : Prop where
  first_x : first.x = v.right + 1
  second_x : second.x = v.left
  second_y : second.y = first.y + 1

/-! ### The numbers of the positions -/

/-- The number of a position in rows of the width `w`. -/
def number (v : Viewport) (w : ℤ) (pos : Point) : ℤ := w * (pos.y - v.top) + (pos.x - v.left)

/-- The positions in exclusive bounds, and the one behind them. -/
structure Near (v : Viewport) (W H : ℤ) (pos : Point) : Prop where
  x : v.left ≤ pos.x ∧ pos.x ≤ v.right + 1
  y : v.top ≤ pos.y ∧ pos.y ≤ v.bottom + 1
  number_le : v.number W pos ≤ W * H

variable {v : Viewport} {pos first second : Point} {delta w last W H : ℤ} {allowEndExclusive : Bool}

theorem coord_eq {x : ℤ} (hlower : -2 ^ 31 ≤ x) (hupper : x < 2 ^ 31) : coord x = x :=
  Int.bmod_eq_of_le (by omega) (by omega)

theorem clampInt_spec {x last : ℤ} (hlast : 0 ≤ last) :
    0 ≤ clampInt x 0 last ∧ clampInt x 0 last ≤ last ∧
      (x < 0 → clampInt x 0 last = 0) ∧ (last < x → clampInt x 0 last = last) ∧
      (0 ≤ x → x ≤ last → clampInt x 0 last = x) := by
  rw [clampInt]
  split_ifs <;> omega

theorem exists_walk_eq (pos : Point) (delta : ℤ) (hw : 0 < w) (hlast : 0 ≤ last)
    (hleft : 0 ≤ v.left) (htop : 0 ≤ v.top) (hwidth : v.left + w ≤ 2 ^ 31)
    (hheight : v.top + H < 2 ^ 31) (hle : last ≤ w * H) :
    ∃ q moved, v.walk w last pos delta = (q, moved) ∧
      (moved = true ↔ 0 ≤ v.number w pos + delta ∧ v.number w pos + delta ≤ last) ∧
      v.number w q = clampInt (v.number w pos + delta) 0 last ∧
      (v.left ≤ q.x ∧ q.x < v.left + w) ∧ v.top ≤ q.y ∧ q.y ≤ v.top + H := by
  obtain ⟨hlower, hupper, -, -, hsame⟩ := clampInt_spec (x := v.number w pos + delta) hlast
  have hmoved : decide (v.number w pos + delta = clampInt (v.number w pos + delta) 0 last) = true ↔
      0 ≤ v.number w pos + delta ∧ v.number w pos + delta ≤ last := by
    rw [decide_eq_true_eq]
    exact ⟨fun heq => by omega, fun h => (hsame h.1 h.2).symm⟩
  have hwalk : v.walk w last pos delta = (⟨coord ((clampInt (v.number w pos + delta) 0 last).tmod w +
      v.left), coord ((clampInt (v.number w pos + delta) 0 last).tdiv w + v.top)⟩,
      decide (v.number w pos + delta = clampInt (v.number w pos + delta) 0 last)) := rfl
  refine ⟨_, _, hwalk, hmoved, ?_⟩
  generalize clampInt (v.number w pos + delta) 0 last = off at hlower hupper ⊢
  have hmod := Int.emod_nonneg off hw.ne'
  have hlt := Int.emod_lt_of_pos off hw
  have hdiv := Int.ediv_nonneg hlower hw.le
  have hrow : off / w ≤ H := Int.ediv_le_of_le_mul hw (by rw [mul_comm]; exact hupper.trans hle)
  have heq := Int.mul_ediv_add_emod off w
  rw [Int.tmod_eq_emod_of_nonneg hlower, Int.tdiv_eq_ediv_of_nonneg hlower,
    coord_eq (by omega) (by omega), coord_eq (by omega) (by omega), number]
  dsimp only
  rw [add_sub_cancel_right, add_sub_cancel_right]
  omega

theorem number_lt_of_y_lt (hw : 0 < w) (hfirst : first.x < v.left + w) (hsecond : v.left ≤ second.x)
    (hy : first.y < second.y) : v.number w first < v.number w second := by
  have hrow : w * (first.y - v.top) + w ≤ w * (second.y - v.top) := by
    rw [← mul_add_one]
    exact mul_le_mul_of_nonneg_left (by omega) hw.le
  rw [number, number]
  omega

theorem eq_of_number_eq (hw : 0 < w) (hfirst : v.left ≤ first.x ∧ first.x < v.left + w)
    (hsecond : v.left ≤ second.x ∧ second.x < v.left + w)
    (h : v.number w first = v.number w second) : first = second := by
  obtain hlt | heq | hlt := lt_trichotomy first.y second.y
  · exact absurd h (number_lt_of_y_lt hw hfirst.2 hsecond.1 hlt).ne
  · obtain ⟨x, y⟩ := first
    obtain ⟨x', y'⟩ := second
    dsimp only [number] at h heq
    subst heq
    have hx : x = x' := by omega
    rw [hx]
  · exact absurd h (number_lt_of_y_lt hw hsecond.2 hfirst.1 hlt).ne'

section Valid

variable (hv : v.Valid) (hW : W = v.right - v.left + 1) (hH : H = v.bottom - v.top + 1)

section
include hv

theorem Valid.rightExclusive_eq : v.rightExclusive = v.right + 1 := by
  obtain ⟨hleft, -, hle, -, hlt, -, -⟩ := hv
  exact coord_eq (by omega) (by omega)

theorem Valid.bottomExclusive_eq : v.bottomExclusive = v.bottom + 1 := by
  obtain ⟨-, htop, -, hle, -, hlt, -⟩ := hv
  exact coord_eq (by omega) (by omega)

theorem Valid.isInBounds_iff : v.isInBounds pos allowEndExclusive = true ↔
    allowEndExclusive = true ∧ pos = v.endExclusive ∨
      (v.left ≤ pos.x ∧ pos.x ≤ v.right) ∧ v.top ≤ pos.y ∧ pos.y ≤ v.bottom := by
  rw [isInBounds, hv.rightExclusive_eq, hv.bottomExclusive_eq]
  split_ifs with hend
  · exact iff_of_true rfl (.inl hend)
  · simp only [Bool.and_eq_true, decide_eq_true_eq, hend, false_or]
    omega

theorem Valid.isInExclusiveBounds_iff : v.isInExclusiveBounds pos = true ↔
    (v.left ≤ pos.x ∧ pos.x ≤ v.right + 1) ∧ v.top ≤ pos.y ∧ pos.y ≤ v.bottom := by
  rw [isInExclusiveBounds, hv.rightExclusive_eq]
  simp only [Bool.and_eq_true, decide_eq_true_eq]
  omega

end

include hv hW hH

theorem Valid.extents : max 0 (coord (coord (v.right - v.left) + 1)) = W ∧
    max 0 (coord (coord (v.bottom - v.top) + 1)) = H := by
  obtain ⟨hleft, htop, hle, hle', hlt, hlt', -⟩ := hv
  rw [coord_eq (x := v.right - v.left) (by omega) (by omega),
    coord_eq (x := v.bottom - v.top) (by omega) (by omega), coord_eq (by omega) (by omega),
    coord_eq (by omega) (by omega)]
  omega

theorem Valid.distance_eq (hfirst : v.Near W H first) (hsecond : v.Near W H second) :
    v.distance first second = v.number W first - v.number W second := by
  have hright := hv.rightExclusive_eq
  obtain ⟨hleft, htop, hx, hy, hlt, hlt', hcells⟩ := hv
  obtain ⟨hx₁, hy₁, hn₁⟩ := hfirst
  obtain ⟨hx₂, hy₂, hn₂⟩ := hsecond
  rw [← hW, ← hH] at hcells
  rw [number] at hn₁ hn₂
  have hrow₁ : 0 ≤ W * (first.y - v.top) := mul_nonneg (by omega) (by omega)
  have hrow₂ : 0 ≤ W * (second.y - v.top) := mul_nonneg (by omega) (by omega)
  have hwidth : v.width = W := by
    rw [width, hright, coord_eq (by omega) (by omega)]
    omega
  have hrows : (first.y - second.y) * W = W * (first.y - v.top) - W * (second.y - v.top) := by
    ring
  rw [distance, hwidth, coord_eq (x := first.y - second.y) (by omega) (by omega), hrows, number,
    number]
  generalize W * H = cells at *
  generalize W * (first.y - v.top) = row₁ at *
  generalize W * (second.y - v.top) = row₂ at *
  rw [coord_eq (x := row₁ - row₂) (by omega) (by omega),
    coord_eq (x := first.x - second.x) (by omega) (by omega), coord_eq (by omega) (by omega)]
  ring

/-! ### In bounds -/

omit hW in
theorem Valid.number_endExclusive (W : ℤ) : v.number W v.endExclusive = W * H := by
  rw [number, endExclusive, hv.bottomExclusive_eq, hH]
  ring

theorem Valid.near_of_isInBounds (h : v.isInBounds pos allowEndExclusive = true) :
    v.Near W H pos ∧ 0 ≤ v.number W pos ∧
      v.number W pos ≤ W * H - (if allowEndExclusive then 0 else 1) := by
  have hle := hv.left_le
  have htop := hv.top_le
  obtain ⟨rfl, rfl⟩ | ⟨hx, hy⟩ := hv.isInBounds_iff.mp h
  · have hnumber := hv.number_endExclusive hH W
    have hcells : 0 ≤ W * H := mul_nonneg (by omega) (by omega)
    have hbottom := hv.bottomExclusive_eq
    refine ⟨⟨⟨le_rfl, ?_⟩, ?_, hnumber.le⟩, hnumber ▸ hcells, by rw [hnumber]; simp⟩
    · exact Int.le_of_lt (Int.lt_of_le_of_lt hle (Int.lt_succ _))
    · rw [endExclusive, hbottom]
      dsimp only
      omega
  · have hrow : 0 ≤ W * (pos.y - v.top) := mul_nonneg (by omega) (by omega)
    have hrow' : W * (pos.y - v.top) ≤ W * (H - 1) := mul_le_mul_of_nonneg_left (by omega) (by omega)
    have hcells := mul_sub_one W H
    have hnumber : v.number W pos = W * (pos.y - v.top) + (pos.x - v.left) := rfl
    refine ⟨⟨⟨hx.1, by omega⟩, ⟨hy.1, by omega⟩, by omega⟩, by omega, ?_⟩
    split_ifs <;> omega

omit hW hH in
theorem walkAgrees (delta : ℤ) (h : v.isInBounds pos allowEndExclusive = true) :
    v.WalkAgrees pos delta allowEndExclusive := by
  obtain ⟨W, hW⟩ : ∃ W, W = v.right - v.left + 1 := ⟨_, rfl⟩
  obtain ⟨H, hH⟩ : ∃ H, H = v.bottom - v.top + 1 := ⟨_, rfl⟩
  obtain ⟨hnear, hnonneg, hle⟩ := hv.near_of_isInBounds hW hH h
  have hbottom := hv.bottomExclusive_eq
  have hend := hv.number_endExclusive hH W
  have hextents := hv.extents hW hH
  obtain ⟨hleft, htop, hright, hheight, hlt, hlt', -⟩ := id hv
  have hw : 0 < W := by omega
  have hcells : W * H - (if allowEndExclusive then 0 else 1) ≤ W * H := by
    split_ifs <;> omega
  obtain ⟨q, moved, hwalk, hmoved, hnumber, hx, hy⟩ :=
    exists_walk_eq pos delta hw (hnonneg.trans hle) hleft htop (by omega) (by omega) hcells
  replace hwalk : v.walkInBounds pos delta allowEndExclusive = (q, moved) := by
    rw [walkInBounds, hextents.1, hextents.2, hwalk]
  obtain ⟨hlower, hupper, hzero, hlast, hsame⟩ :=
    clampInt_spec (x := v.number W pos + delta) (hnonneg.trans hle)
  rw [← hnumber] at hlower hupper hzero hlast hsame
  have hbounds : v.isInBounds q allowEndExclusive = true := by
    rw [hv.isInBounds_iff]
    by_cases hrow : q.y ≤ v.bottom
    · exact .inr ⟨by omega, hy.1, hrow⟩
    · have hrows : W * (q.y - v.top) = W * H := by
        rw [show q.y - v.top = H by omega]
      rw [number, hrows] at hupper
      cases allowEndExclusive with
      | false =>
        rw [if_neg Bool.false_ne_true] at hupper
        omega
      | true =>
        rw [if_pos rfl] at hupper
        refine .inl ⟨rfl, Buffer.Point.mk.injEq .. ▸ ⟨?_, ?_⟩⟩ <;> omega
  have hcompare : v.compareInBounds q pos = v.number W q - v.number W pos :=
    hv.distance_eq hW hH (hv.near_of_isInBounds hW hH hbounds).1 hnear
  refine ⟨by rw [hwalk]; exact hbounds, ?_, ?_⟩ <;> rw [hwalk]
  · dsimp only
    rw [hmoved, hcompare]
    omega
  · intro hstopped
    have hstops : ¬ (0 ≤ v.number W pos + delta ∧ v.number W pos + delta ≤
        W * H - (if allowEndExclusive then 0 else 1)) := by
      rw [← hmoved]
      exact Bool.not_eq_true _ ▸ hstopped
    have hfirst := Int.lt_add_of_pos_right v.left hw
    dsimp only
    split_ifs with hdelta hallow
    · refine eq_of_number_eq hw hx ⟨le_rfl, hfirst⟩ ?_
      rw [hzero (by omega), number, origin]
      ring
    · refine eq_of_number_eq hw hx ⟨le_rfl, hfirst⟩ ?_
      rw [hlast (by omega), if_pos hallow, hend]
      ring
    · refine eq_of_number_eq hw hx ⟨hright, ?_⟩ ?_
      · rw [bottomRightInclusive]
        dsimp only
        omega
      · rw [hlast (by omega), if_neg hallow, number, bottomRightInclusive, hH, hW]
        ring

/-! ### In exclusive bounds -/

theorem Valid.near_of_isInExclusiveBounds (h : v.isInExclusiveBounds pos = true) :
    v.Near W H pos := by
  obtain ⟨hx, hy⟩ := hv.isInExclusiveBounds_iff.mp h
  have hle := hv.left_le
  have hrow : W * (pos.y - v.top + 1) ≤ W * H := mul_le_mul_of_nonneg_left (by omega) (by omega)
  rw [mul_add_one] at hrow
  refine ⟨hx, ⟨hy.1, by omega⟩, ?_⟩
  rw [number]
  omega

omit hW hH in
theorem compareInExclusiveBounds_neg_iff (hfirst : v.isInExclusiveBounds first = true)
    (hsecond : v.isInExclusiveBounds second = true) (hlt : first < second) :
    v.compareInExclusiveBounds first second < 0 ∧ 0 < v.compareInExclusiveBounds second first ↔
      ¬ v.IsRowBreak first second := by
  obtain ⟨W, hW⟩ : ∃ W, W = v.right - v.left + 1 := ⟨_, rfl⟩
  have hnear := hv.near_of_isInExclusiveBounds hW rfl hfirst
  have hnear' := hv.near_of_isInExclusiveBounds hW rfl hsecond
  obtain ⟨hx, hy⟩ := hv.isInExclusiveBounds_iff.mp hfirst
  obtain ⟨hx', hy'⟩ := hv.isInExclusiveBounds_iff.mp hsecond
  have hle := hv.left_le
  have hrows : W * (second.y - v.top) = W * (first.y - v.top) + W * (second.y - first.y) := by
    ring
  rw [compareInExclusiveBounds, compareInExclusiveBounds, hv.distance_eq hW rfl hnear hnear',
    hv.distance_eq hW rfl hnear' hnear, number, number, hrows]
  obtain hy | ⟨hy, hx⟩ := Buffer.Point.lt_def.mp hlt
  · obtain hone | htwo := (Int.add_one_le_of_lt hy).eq_or_lt
    · have hstep : second.y - first.y = 1 := by omega
      rw [hstep, mul_one]
      refine ⟨fun hcompare hbreak => ?_, fun hbreak => ?_⟩
      · have hfirst := hbreak.first_x
        have hsecond := hbreak.second_x
        omega
      · have hends : ¬ (first.x = v.right + 1 ∧ second.x = v.left) := fun hends =>
          hbreak ⟨hends.1, hends.2, hone.symm⟩
        omega
    · have hrow : W * 2 ≤ W * (second.y - first.y) :=
        mul_le_mul_of_nonneg_left (by omega) (by omega)
      exact iff_of_true (by omega) fun hbreak => absurd hbreak.second_y (by omega)
  · have hsame : second.y - first.y = 0 := by omega
    rw [hsame, mul_zero]
    exact iff_of_true (by omega) fun hbreak => absurd hbreak.second_y (by omega)

omit hW hH in
theorem exclusiveWalkAgrees_iff (delta : ℤ) (hrow : v.right - v.left + 2 < 2 ^ 31)
    (h : v.isInExclusiveBounds pos = true) :
    v.ExclusiveWalkAgrees pos delta ↔ v.StaysInRow pos delta := by
  obtain ⟨W, hW⟩ : ∃ W, W = v.right - v.left + 2 := ⟨_, rfl⟩
  obtain ⟨H, hH⟩ : ∃ H, H = v.bottom - v.top + 1 := ⟨_, rfl⟩
  have hW' : W - 1 = v.right - v.left + 1 := by omega
  have hnear := hv.near_of_isInExclusiveBounds hW' hH h
  have hheight' := (hv.extents hW' hH).2
  obtain ⟨hx, hy⟩ := hv.isInExclusiveBounds_iff.mp h
  obtain ⟨hleft, htop, hright, hheight, hlt, hlt', -⟩ := id hv
  have hw : 0 < W := by omega
  have hwidth : max 0 (coord (coord (v.right - v.left) + 2)) = W := by
    rw [coord_eq (x := v.right - v.left) (by omega) (by omega), coord_eq (by omega) (by omega)]
    omega
  have hcells : 0 < W * H := mul_pos hw (by omega)
  obtain ⟨q, moved, hwalk, hmoved, hnumber, hqx, hqy⟩ :=
    exists_walk_eq pos delta hw hcells.le hleft htop (by omega) (by omega) le_rfl
  replace hwalk : v.walkInExclusiveBounds pos delta = (q, moved) := by
    rw [walkInExclusiveBounds, hwidth, hheight', hwalk]
  obtain ⟨-, -, hzero, hend, hsame⟩ := clampInt_spec (x := v.number W pos + delta) hcells.le
  rw [← hnumber] at hzero hend hsame
  have hn : v.number W pos = W * (pos.y - v.top) + (pos.x - v.left) := rfl
  have hq : v.number W q = W * (q.y - v.top) + (q.x - v.left) := rfl
  have hpos : 0 ≤ W * (pos.y - v.top) := mul_nonneg hw.le (by omega)
  have hlast (y : ℤ) (hy : y ≤ v.bottom) : W * (y - v.top) + W ≤ W * H := by
    rw [← mul_add_one]
    exact mul_le_mul_of_nonneg_left (by omega) hw.le
  have hposlast := hlast pos.y hy.2
  have hagrees : v.ExclusiveWalkAgrees pos delta ↔ v.isInExclusiveBounds q = true ∧
      (moved = true ↔ v.number W q - v.number W pos - (q.y - pos.y) = delta) ∧
        (moved = false → q = if delta < 0 then v.origin else v.bottomInclusiveRightExclusive) := by
    have hcompare (hbounds : v.isInExclusiveBounds q = true) :
        v.compareInExclusiveBounds q pos = v.number W q - v.number W pos - (q.y - pos.y) := by
      rw [compareInExclusiveBounds,
        hv.distance_eq hW' hH (hv.near_of_isInExclusiveBounds hW' hH hbounds) hnear, number, number,
        number, number]
      ring
    refine ⟨fun ⟨hbounds, hmoves, hstops⟩ => ?_, fun ⟨hbounds, hmoves, hstops⟩ => ?_⟩
    · rw [hwalk] at hbounds hmoves hstops
      exact ⟨hbounds, hcompare hbounds ▸ hmoves, hstops⟩
    · refine ⟨by rw [hwalk]; exact hbounds, ?_, by rw [hwalk]; exact hstops⟩
      rw [hwalk]
      exact (hcompare hbounds).symm ▸ hmoves
  have hbounds (hless : v.number W q < W * H) : v.isInExclusiveBounds q = true := by
    rw [hv.isInExclusiveBounds_iff]
    refine ⟨by omega, hqy.1, ?_⟩
    by_contra hbelow
    have hrows : W * (q.y - v.top) = W * H := by
      rw [show q.y - v.top = H by omega]
    omega
  rw [hagrees, StaysInRow, ← hW, ← hn]
  rcases lt_or_ge (v.number W pos + delta) 0 with hneg | hnonneg
  · -- the walk is stopped at the first position
    have hfirst : q = v.origin := by
      refine eq_of_number_eq hw hqx ⟨le_rfl, Int.lt_add_of_pos_right _ hw⟩ ?_
      rw [hzero hneg, number, origin]
      ring
    have hy : q.y = v.top := by rw [hfirst, origin]
    refine iff_of_true ⟨hbounds (by omega), ?_, fun _ => ?_⟩ (.inr hneg)
    · rw [hmoved, hzero hneg]
      omega
    · rw [if_pos (by omega), hfirst]
  rcases lt_or_ge (v.number W pos + delta) (W * H) with hless | hge
  · -- the walk is not stopped
    have hsame := hsame hnonneg hless.le
    have hmoves : moved = true := hmoved.mpr ⟨hnonneg, hless.le⟩
    refine ⟨fun ⟨_, hdelta, _⟩ => .inl ?_, fun hstays => ⟨hbounds (by omega), ?_, fun hstopped => ?_⟩⟩
    · have hrow := hdelta.mp hmoves
      rw [hsame] at hrow
      have hy : q.y = pos.y := by omega
      rw [hsame, hn, hy] at hq
      omega
    · have hstays : v.left ≤ pos.x + delta ∧ pos.x + delta ≤ v.right + 1 :=
        hstays.resolve_right (by omega)
      have heq : q = ⟨pos.x + delta, pos.y⟩ := by
        refine eq_of_number_eq hw hqx ⟨hstays.1, ?_⟩ ?_
        · dsimp only
          omega
        · rw [hsame, number, number]
          ring
      refine iff_of_true hmoves ?_
      rw [hsame, heq]
      ring
    · exact absurd (hmoves.symm.trans hstopped) (by decide)
  · -- the walk leaves the last row
    have hbehind : v.number W q = W * H := by
      obtain heq | hgt := hge.eq_or_lt
      · rw [hsame hnonneg heq.ge, heq]
      · exact hend hgt
    refine iff_of_false (fun ⟨hbounds, _⟩ => ?_) ?_
    · have hqlast := hlast q.y (hv.isInExclusiveBounds_iff.mp hbounds).2.2
      omega
    · rintro (hstays | hneg) <;> omega

end Valid

/-- What is claimed of the walks and comparisons in a viewport. -/
structure Agrees (v : Viewport) : Prop where
  walk : ∀ pos delta allowEndExclusive, v.isInBounds pos allowEndExclusive = true →
    v.WalkAgrees pos delta allowEndExclusive
  walkExclusive : ∀ pos delta, v.isInExclusiveBounds pos = true → v.ExclusiveWalkAgrees pos delta
  compare : ∀ first second, v.isInExclusiveBounds first = true →
    v.isInExclusiveBounds second = true → first < second →
      v.compareInExclusiveBounds first second < 0 ∧ 0 < v.compareInExclusiveBounds second first

/-- The walks agree with the comparisons in bounds, and in exclusive bounds except across the end of
a row. -/
theorem agrees_except_row_ends (v : Viewport) (hv : v.Valid) :
    (∀ pos delta allowEndExclusive, v.isInBounds pos allowEndExclusive = true →
      v.WalkAgrees pos delta allowEndExclusive) ∧
    (v.right - v.left + 2 < 2 ^ 31 → ∀ pos delta, v.isInExclusiveBounds pos = true →
      (v.ExclusiveWalkAgrees pos delta ↔ v.StaysInRow pos delta)) ∧
    ∀ first second, v.isInExclusiveBounds first = true → v.isInExclusiveBounds second = true →
      first < second →
        (v.compareInExclusiveBounds first second < 0 ∧ 0 < v.compareInExclusiveBounds second first ↔
          ¬ v.IsRowBreak first second) :=
  ⟨fun _ delta _ h => walkAgrees hv delta h,
    fun hrow _ delta h => exclusiveWalkAgrees_iff hv delta hrow h,
    fun _ _ hfirst hsecond hlt => compareInExclusiveBounds_neg_iff hv hfirst hsecond hlt⟩

def twoRows : Viewport := ⟨0, 0, 1, 1⟩

theorem valid_twoRows : twoRows.Valid := by
  refine ⟨?_, ?_, ?_, ?_, ?_, ?_, ?_⟩ <;> decide

theorem twoRows_agrees_except_row_ends :
    twoRows.WalkAgrees ⟨1, 0⟩ 1 false ∧
      (twoRows.ExclusiveWalkAgrees ⟨0, 0⟩ 2 ↔ twoRows.StaysInRow ⟨0, 0⟩ 2) ∧
      (twoRows.compareInExclusiveBounds ⟨1, 0⟩ ⟨0, 1⟩ < 0 ∧
        0 < twoRows.compareInExclusiveBounds ⟨0, 1⟩ ⟨1, 0⟩ ↔
          ¬ twoRows.IsRowBreak ⟨1, 0⟩ ⟨0, 1⟩) := by
  obtain ⟨hwalk, hexclusive, hcompare⟩ := agrees_except_row_ends twoRows valid_twoRows
  exact ⟨hwalk _ 1 false (by decide), hexclusive (by decide) _ 2 (by decide),
    hcompare _ _ (by decide) (by decide) (by decide)⟩

/-- A step from the end of the last row leaves the bounds, and the end of a row is not told apart
from the beginning of the next. -/
theorem not_agrees_twoRows : ¬ twoRows.Agrees ∧
    (¬ twoRows.isInExclusiveBounds (twoRows.walkInExclusiveBounds ⟨2, 1⟩ 1).1 = true) ∧
    twoRows.compareInExclusiveBounds ⟨2, 0⟩ ⟨0, 1⟩ = 0 := by
  have hcompare : twoRows.compareInExclusiveBounds ⟨2, 0⟩ ⟨0, 1⟩ = 0 := by decide
  refine ⟨fun h => ?_, by decide, hcompare⟩
  have hless := (h.compare ⟨2, 0⟩ ⟨0, 1⟩ (by decide) (by decide) (by decide)).1
  exact absurd hcompare hless.ne

end Viewport

end IntelligentTerminal.Types
