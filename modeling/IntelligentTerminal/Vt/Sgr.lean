import IntelligentTerminal.Buffer.Rendition

/-!
# Select Graphic Rendition

`SGR` changes an attribute by a list of options, each a parameter of the sequence. An extended color
takes the parameters behind its option, or the sub parameters of the option itself.

Source: `src/terminal/adapter/adaptDispatchGraphics.cpp`, lines 18-411;
`src/terminal/adapter/DispatchTypes.hpp`, lines 92-307 and 391-453.
-/

namespace IntelligentTerminal.Vt

open IntelligentTerminal.Buffer

/-- `class VTParameter`: an omitted parameter has no value. -/
abbrev VTParameter := Option ℕ

structure VTParameters where
  params : List VTParameter := []
  subParams : List VTParameter := []
  subParamRanges : List (ℕ × ℕ) := []
deriving DecidableEq

namespace VTParameters

def at_ (p : VTParameters) (index : ℕ) : VTParameter := p.params.getD index none

def size (p : VTParameters) : ℕ := max p.params.length 1

def subspan (p : VTParameters) (offset : ℕ) : VTParameters :=
  { p with params := p.params.drop offset, subParamRanges := p.subParamRanges.drop offset }

def subParamsFor (p : VTParameters) (index : ℕ) : List VTParameter :=
  match p.subParamRanges[index]? with
  | some range => (p.subParams.drop range.1).take (range.2 - range.1)
  | none => []

def hasSubParamsFor (p : VTParameters) (index : ℕ) : Bool :=
  match p.subParamRanges[index]? with
  | some range => range.1 < range.2
  | none => false

end VTParameters

/-- `VTParameter::value_or(0)` of the parameter at an index. -/
def valueAt (params : List VTParameter) (index : ℕ) : ℕ := (params.getD index none).getD 0

/-- `AdaptDispatch::_SetUnderlineStyleHelper`. -/
def setUnderlineStyleHelper (option : VTParameter) (attr : TextAttribute) : TextAttribute :=
  let style := option.getD 0
  if style ≤ 5 then attr.setUnderlineStyle style.toUInt16 else attr

/-- `AdaptDispatch::_SetRgbColorsHelper`: the options that it takes, and the attribute. -/
def setRgbColorsHelper (options : VTParameters) (attr : TextAttribute) (isForeground : Bool) :
    ℕ × TextAttribute :=
  let setColor (color : TextColor) :=
    if isForeground then attr.setForeground color else attr.setBackground color
  match valueAt options.params 0 with
  | 2 =>
    let red := valueAt options.params 1
    let green := valueAt options.params 2
    let blue := valueAt options.params 3
    (4, if red ≤ 255 ∧ green ≤ 255 ∧ blue ≤ 255 then
          setColor (.ofRgb red.toUInt8 green.toUInt8 blue.toUInt8)
        else attr)
  | 5 =>
    let tableIndex := valueAt options.params 1
    (2, if tableIndex ≤ 255 then setColor (.ofIndex tableIndex.toUInt8 true) else attr)
  | _ => (1, attr)

/-- `AdaptDispatch::_SetRgbColorsHelperFromSubParams`. -/
def setRgbColorsHelperFromSubParams (colorItem : ℕ) (options : List VTParameter)
    (attr : TextAttribute) : TextAttribute :=
  let applyColor (color : TextColor) :=
    match colorItem with
    | 38 => attr.setForeground color
    | 48 => attr.setBackground color
    | 58 => attr.setUnderlineColor color
    | _ => attr
  match valueAt options 0 with
  | 2 =>
    let validColorSpace := valueAt options 1 = 0
    let red := valueAt options 2
    let green := valueAt options 3
    let blue := valueAt options 4
    if validColorSpace ∧ red ≤ 255 ∧ green ≤ 255 ∧ blue ≤ 255 then
      applyColor (.ofRgb red.toUInt8 green.toUInt8 blue.toUInt8)
    else attr
  | 5 =>
    let tableIndex := valueAt options 1
    if tableIndex ≤ 255 then applyColor (.ofIndex tableIndex.toUInt8 true) else attr
  | _ => attr

/-- `AdaptDispatch::_ApplyGraphicsOptionWithSubParams`. -/
def applyGraphicsOptionWithSubParams (option : ℕ) (subParams : List VTParameter)
    (attr : TextAttribute) : TextAttribute :=
  match option with
  | 4 => setUnderlineStyleHelper (subParams.getD 0 none) attr
  | 38 | 48 | 58 => setRgbColorsHelperFromSubParams option subParams attr
  | _ => attr

/-- The options that name a color. `ForegroundBlack` to `ForegroundWhite`, and the three ranges like
it, have the order of `DARK_BLACK` to `DARK_WHITE` and of `BRIGHT_BLACK` to `BRIGHT_WHITE`. -/
def applyColorOption (opt : ℕ) (attr : TextAttribute) : TextAttribute :=
  if 30 ≤ opt ∧ opt ≤ 37 then attr.setForeground (.ofIndex (opt - 30).toUInt8 false)
  else if 40 ≤ opt ∧ opt ≤ 47 then attr.setBackground (.ofIndex (opt - 40).toUInt8 false)
  else if 90 ≤ opt ∧ opt ≤ 97 then attr.setForeground (.ofIndex (opt - 90 + 8).toUInt8 false)
  else if 100 ≤ opt ∧ opt ≤ 107 then attr.setBackground (.ofIndex (opt - 100 + 8).toUInt8 false)
  else attr

/-- The `switch` of `AdaptDispatch::_ApplyGraphicsOption`, without the extended colors. -/
def applyPlainOption (opt : ℕ) (attr : TextAttribute) : TextAttribute :=
  match opt with
  | 0 =>
    (((attr.setForeground {}).setBackground {}).setUnderlineColor {}).setDefaultRenditionAttributes
  | 39 => attr.setForeground {}
  | 49 => attr.setBackground {}
  | 59 => attr.setUnderlineColor {}
  | 1 => attr.setIntense true
  | 2 => attr.setFaint true
  | 22 => (attr.setIntense false).setFaint false
  | 3 => attr.setItalic true
  | 23 => attr.setItalic false
  | 5 | 6 => attr.setBlinking true
  | 25 => attr.setBlinking false
  | 8 => attr.setInvisible true
  | 28 => attr.setInvisible false
  | 9 => attr.setCrossedOut true
  | 29 => attr.setCrossedOut false
  | 7 => attr.setReverseVideo true
  | 27 => attr.setReverseVideo false
  | 4 => attr.setUnderlineStyle 1
  | 21 => attr.setUnderlineStyle 2
  | 24 => attr.setUnderlineStyle 0
  | 53 => attr.setOverlined true
  | 55 => attr.setOverlined false
  | opt => applyColorOption opt attr

/-- `AdaptDispatch::_ApplyGraphicsOption`: the options that it takes, and the attribute. -/
def applyGraphicsOption (options : VTParameters) (optionIndex : ℕ) (attr : TextAttribute) :
    ℕ × TextAttribute :=
  let opt := valueAt options.params optionIndex
  if options.hasSubParamsFor optionIndex then
    (1, applyGraphicsOptionWithSubParams opt (options.subParamsFor optionIndex) attr)
  else
    match opt with
    | 38 =>
      let (optionsConsumed, attr) :=
        setRgbColorsHelper (options.subspan (optionIndex + 1)) attr true
      (1 + optionsConsumed, attr)
    | 48 =>
      let (optionsConsumed, attr) :=
        setRgbColorsHelper (options.subspan (optionIndex + 1)) attr false
      (1 + optionsConsumed, attr)
    | opt => (1, applyPlainOption opt attr)

/-- The loop of `AdaptDispatch::_ApplyGraphicsOptions` from an index on. Each turn takes an option,
so there are at most as many turns as options. -/
def applyGraphicsOptionsFrom (options : VTParameters) : ℕ → ℕ → TextAttribute → TextAttribute
  | 0, _, attr => attr
  | fuel + 1, i, attr =>
    if i < options.size then
      let (consumed, attr) := applyGraphicsOption options i attr
      applyGraphicsOptionsFrom options fuel (i + consumed) attr
    else attr

/-- `AdaptDispatch::_ApplyGraphicsOptions`. -/
def applyGraphicsOptions (options : VTParameters) (attr : TextAttribute) : TextAttribute :=
  applyGraphicsOptionsFrom options options.size 0 attr

end IntelligentTerminal.Vt
