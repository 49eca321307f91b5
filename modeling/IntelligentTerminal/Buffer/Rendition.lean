import IntelligentTerminal.Buffer.Attributes
import Mathlib

/-!
# Renditions of a text attribute

The character attributes are flags in a 16-bit word, of which three bits hold the style of the
underline. The setters of `TextAttribute` change one flag, the style or one color.

Source: `src/inc/conattrs.hpp`, lines 12-38; `src/buffer/out/TextAttribute.hpp`;
`src/buffer/out/TextAttribute.cpp`, lines 99-423; `src/buffer/out/TextColor.h`, lines 87-108.
-/

namespace IntelligentTerminal.Buffer

/-! ### Flags of a word -/

/-- The bit `i` of a word. -/
def bit (word : UInt16) (i : ℕ) : Bool := word.toBitVec.getLsbD i

/-- `WI_IsAnyFlagSet`. -/
def isAnyFlagSet (word flags : UInt16) : Bool := word &&& flags != 0

/-- `WI_AreAllFlagsSet`. -/
def areAllFlagsSet (word flags : UInt16) : Bool := word &&& flags == flags

/-- `WI_ClearAllFlags`. -/
def clearAllFlags (word flags : UInt16) : UInt16 := word &&& ~~~flags

/-- `WI_UpdateFlag`. -/
def updateFlag (word flag : UInt16) (isFlagSet : Bool) : UInt16 :=
  if isFlagSet then word ||| flag else word &&& ~~~flag

/-- `flag` has the bit `k` only. -/
structure IsFlag (flag : UInt16) (k : ℕ) : Prop where
  eq : flag.toBitVec = BitVec.twoPow 16 k
  lt : k < 16

variable {word flag : UInt16} {k : ℕ}

theorem eq_of_bit_eq {x y : UInt16} (h : ∀ i < 16, bit x i = bit y i) : x = y :=
  UInt16.toBitVec_inj.mp (BitVec.eq_of_getLsbD_eq h)

@[simp] theorem bit_zero (i : ℕ) : bit 0 i = false := by simp [bit]

@[simp] theorem bit_and (x y : UInt16) (i : ℕ) : bit (x &&& y) i = (bit x i && bit y i) := by
  simp [bit]

@[simp] theorem bit_or (x y : UInt16) (i : ℕ) : bit (x ||| y) i = (bit x i || bit y i) := by
  simp [bit]

@[simp] theorem bit_xor (x y : UInt16) (i : ℕ) : bit (x ^^^ y) i = (bit x i ^^ bit y i) := by
  simp [bit]

theorem bit_not (x : UInt16) {i : ℕ} (hi : i < 16) : bit (~~~x) i = !bit x i := by
  simp [bit, hi]

theorem bit_of_ge (x : UInt16) {i : ℕ} (hi : 16 ≤ i) : bit x i = false :=
  BitVec.getLsbD_of_ge _ _ hi

theorem IsFlag.bit_eq (h : IsFlag flag k) (i : ℕ) : bit flag i = decide (k = i) := by
  rw [bit, h.eq, BitVec.getLsbD_twoPow, decide_eq_true h.lt, Bool.true_and]

theorem bit_clearAllFlags (x flags : UInt16) (i : ℕ) :
    bit (clearAllFlags x flags) i = (bit x i && !bit flags i) := by
  rcases Nat.lt_or_ge i 16 with hi | hi
  · rw [clearAllFlags, bit_and, bit_not flags hi]
  · rw [bit_of_ge _ hi, bit_of_ge x hi, Bool.false_and]

theorem bit_updateFlag (h : IsFlag flag k) (isFlagSet : Bool) (i : ℕ) :
    bit (updateFlag word flag isFlagSet) i = if k = i then isFlagSet else bit word i := by
  by_cases hi : k = i
  · subst hi
    cases isFlagSet with
    | true => simp [updateFlag, h.bit_eq]
    | false => simp [updateFlag, h.bit_eq, bit_not flag h.lt]
  · rw [if_neg hi]
    cases isFlagSet with
    | true => simp [updateFlag, h.bit_eq, hi]
    | false =>
      have hclear := bit_clearAllFlags word flag i
      rw [h.bit_eq, decide_eq_false hi, Bool.not_false, Bool.and_true] at hclear
      exact hclear

theorem isAnyFlagSet_eq_bit (h : IsFlag flag k) : isAnyFlagSet word flag = bit word k := by
  have hand : word &&& flag = if bit word k then flag else 0 := by
    refine eq_of_bit_eq fun i _ => ?_
    by_cases hi : k = i
    · subst hi
      cases hbit : bit word k <;> simp [hbit, h.bit_eq]
    · cases bit word k <;> simp [h.bit_eq, hi]
  have hflag : flag ≠ 0 := by
    rintro rfl
    have hbit := h.bit_eq k
    simp at hbit
  rw [isAnyFlagSet, hand]
  cases bit word k <;> simp [hflag]

/-! ### Character attributes -/

namespace CharacterAttributes

def intense : UInt16 := 0x01

def italics : UInt16 := 0x02

def blinking : UInt16 := 0x04

def invisible : UInt16 := 0x08

def crossedOut : UInt16 := 0x10

def faint : UInt16 := 0x20

def underlineStyle : UInt16 := 0x1c0

def unused1 : UInt16 := 0x200

def topGridline : UInt16 := 0x400

def protected_ : UInt16 := 0x2000

def reverseVideo : UInt16 := 0x4000

def rendition : UInt16 := 0xffff &&& ~~~protected_

theorem isFlag_intense : IsFlag intense 0 := ⟨rfl, by decide⟩
theorem isFlag_italics : IsFlag italics 1 := ⟨rfl, by decide⟩
theorem isFlag_blinking : IsFlag blinking 2 := ⟨rfl, by decide⟩
theorem isFlag_invisible : IsFlag invisible 3 := ⟨rfl, by decide⟩
theorem isFlag_crossedOut : IsFlag crossedOut 4 := ⟨rfl, by decide⟩
theorem isFlag_faint : IsFlag faint 5 := ⟨rfl, by decide⟩
theorem isFlag_topGridline : IsFlag topGridline 10 := ⟨rfl, by decide⟩
theorem isFlag_reverseVideo : IsFlag reverseVideo 14 := ⟨rfl, by decide⟩

end CharacterAttributes

def underlineStyleShift : UInt16 := 6

namespace TextColor

/-- `TextColor::TextColor(const BYTE, const bool)`. -/
def ofIndex (index : UInt8) (isIndex256 : Bool) : TextColor where
  red := index
  colorType := if isIndex256 then .isIndex256 else .isIndex16

/-- `TextColor::TextColor(const COLORREF)`. -/
def ofRgb (red green blue : UInt8) : TextColor where
  red := red
  green := green
  blue := blue
  colorType := .isRgb

def getIndex (c : TextColor) : UInt8 := c.red

/-- A color that the constructors build, with an index that the table of its type has. -/
def WellFormed (c : TextColor) : Prop :=
  c = {} ∨ (c = ofIndex c.getIndex false ∧ c.getIndex < 16) ∨ c = ofIndex c.getIndex true ∨
    c = ofRgb c.red c.green c.blue

instance (c : TextColor) : Decidable c.WellFormed := inferInstanceAs (Decidable (_ ∨ _))

theorem WellFormed.of_colorType {c : TextColor} (h : c.WellFormed) :
    match c.colorType with
    | .isDefault => c = {}
    | .isIndex16 => c = ofIndex c.getIndex false
    | .isIndex256 => c = ofIndex c.getIndex true
    | .isRgb => c = ofRgb c.red c.green c.blue := by
  have htype : ∀ {d : TextColor}, c = d → c.colorType = d.colorType := congrArg colorType
  rcases h with h | ⟨h, -⟩ | h | h <;> rw [htype h] <;> exact h

end TextColor

namespace TextAttribute

/-- Changes the character attributes. -/
def mapAttrs (a : TextAttribute) (f : UInt16 → UInt16) : TextAttribute := { a with attrs := f a.attrs }

def setIntense (a : TextAttribute) (isIntense : Bool) : TextAttribute :=
  a.mapAttrs (updateFlag · CharacterAttributes.intense isIntense)

def setFaint (a : TextAttribute) (isFaint : Bool) : TextAttribute :=
  a.mapAttrs (updateFlag · CharacterAttributes.faint isFaint)

def setItalic (a : TextAttribute) (isItalic : Bool) : TextAttribute :=
  a.mapAttrs (updateFlag · CharacterAttributes.italics isItalic)

def setBlinking (a : TextAttribute) (isBlinking : Bool) : TextAttribute :=
  a.mapAttrs (updateFlag · CharacterAttributes.blinking isBlinking)

def setInvisible (a : TextAttribute) (isInvisible : Bool) : TextAttribute :=
  a.mapAttrs (updateFlag · CharacterAttributes.invisible isInvisible)

def setCrossedOut (a : TextAttribute) (isCrossedOut : Bool) : TextAttribute :=
  a.mapAttrs (updateFlag · CharacterAttributes.crossedOut isCrossedOut)

def setOverlined (a : TextAttribute) (isOverlined : Bool) : TextAttribute :=
  a.mapAttrs (updateFlag · CharacterAttributes.topGridline isOverlined)

def setReverseVideo (a : TextAttribute) (isReversed : Bool) : TextAttribute :=
  a.mapAttrs (updateFlag · CharacterAttributes.reverseVideo isReversed)

/-- `TextAttribute::GetUnderlineStyle`. The word has room for two more values than the enumeration
`UnderlineStyle`, which ends with `DashedUnderlined`, the value 5. -/
def getUnderlineStyle (a : TextAttribute) : UInt16 :=
  (a.attrs &&& CharacterAttributes.underlineStyle) >>> underlineStyleShift

def setUnderlineStyle (a : TextAttribute) (style : UInt16) : TextAttribute :=
  a.mapAttrs fun attrs =>
    (attrs &&& ~~~CharacterAttributes.underlineStyle) ||| (style <<< underlineStyleShift)

def setForeground (a : TextAttribute) (foreground : TextColor) : TextAttribute := { a with foreground }

def setBackground (a : TextAttribute) (background : TextColor) : TextAttribute := { a with background }

def setUnderlineColor (a : TextAttribute) (color : TextColor) : TextAttribute :=
  { a with underlineColor := color }

def setDefaultRenditionAttributes (a : TextAttribute) : TextAttribute :=
  a.mapAttrs (· &&& ~~~CharacterAttributes.rendition)

/-- The attribute without what is no rendition: the hyperlink and the mark. -/
def rendition (a : TextAttribute) : TextAttribute := { a with hyperlinkId := 0, markKind := .none }

/-- The flags that SGR can set. -/
def sgrFlags : UInt16 := 0x45ff

/-- The renditions of the attribute are those that SGR can express. -/
structure Expressible (a : TextAttribute) : Prop where
  attrs : a.attrs &&& ~~~sgrFlags = 0
  underlineStyle : a.getUnderlineStyle ≤ 5
  foreground : a.foreground.WellFormed
  background : a.background.WellFormed
  underlineColor : a.underlineColor.WellFormed
  underlineType : a.underlineColor.colorType ≠ .isIndex16

instance (a : TextAttribute) : Decidable a.Expressible :=
  decidable_of_iff
    (a.attrs &&& ~~~sgrFlags = 0 ∧ a.getUnderlineStyle ≤ 5 ∧ a.foreground.WellFormed ∧
      a.background.WellFormed ∧ a.underlineColor.WellFormed ∧
      a.underlineColor.colorType ≠ .isIndex16)
    ⟨fun ⟨hattrs, hstyle, hfg, hbg, hul, htype⟩ => ⟨hattrs, hstyle, hfg, hbg, hul, htype⟩,
      fun h => ⟨h.attrs, h.underlineStyle, h.foreground, h.background, h.underlineColor,
        h.underlineType⟩⟩

end TextAttribute

end IntelligentTerminal.Buffer
