import IntelligentTerminal.Buffer.TextBuffer
import IntelligentTerminal.Data.RunLength
import IntelligentTerminal.Vt.Sgr

/-!
# Serializing rows

`TextBuffer::_SerializeRow` writes the text of a row with the sequences that set the attributes of
each run. It emits what has changed since the run before, so what is emitted depends on all rows
that were serialized before.

The text is kept in chunks, one for each `append`; `Chunk.render` is what is appended.

Source: `src/buffer/out/textBuffer.cpp`, lines 1920-1946 (`GetWithControlSequences`), 2379-2419
(`SerializeTo`), 2435-2700 (`_SerializeRow`).
-/

namespace IntelligentTerminal.Buffer

open IntelligentTerminal.Vt

/-! ### The text that is emitted -/

/-- The units of a text in ASCII. -/
def asciiUnits (s : String) : List WChar := s.toList.map fun c => c.toNat.toUInt16

/-- `fmt::format_to` of a number. -/
def decimalUnits (n : ℕ) : List WChar := (Nat.toDigits 10 n).map fun c => c.toNat.toUInt16

/-- An option of an SGR sequence, with its sub parameters. -/
structure SgrOption where
  value : ℕ
  subParams : List VTParameter := []
deriving DecidableEq

/-- The text of an option: the sub parameters follow it, each behind a colon. -/
def SgrOption.render (o : SgrOption) : List WChar :=
  decimalUnits o.value ++
    o.subParams.flatMap fun p => asciiUnits ":" ++ (p.map decimalUnits).getD []

/-- Where the sub parameters of each option are among those of all options. -/
def subParamRanges : ℕ → List SgrOption → List (ℕ × ℕ)
  | _, [] => []
  | start, o :: os =>
    (start, start + o.subParams.length) :: subParamRanges (start + o.subParams.length) os

/-- The parameters of an SGR sequence. -/
def sgrParameters (options : List SgrOption) : VTParameters where
  params := options.map fun o => some o.value
  subParams := options.flatMap SgrOption.subParams
  subParamRanges := subParamRanges 0 options

/-- A piece of the text that is emitted. -/
inductive Chunk
  | lineRendition (final : ℕ)
  | sgr (options : List SgrOption)
  | hyperlink (uri : List WChar)
  | lineBreak
  | text (chars : List WChar)
  | eraseInLine
deriving DecidableEq

/-- The units of a chunk. -/
def Chunk.render : Chunk → List WChar
  | lineRendition final => asciiUnits "\x1b#" ++ decimalUnits final
  | sgr options =>
    asciiUnits "\x1b[" ++ (asciiUnits ";").intercalate (options.map SgrOption.render) ++
      asciiUnits "m"
  | hyperlink uri => asciiUnits "\x1b]8;;" ++ uri ++ asciiUnits "\x1b\\"
  | lineBreak => asciiUnits "\r\n"
  | text chars => chars
  | eraseInLine => asciiUnits "\x1b[K"

/-- The sequence with the parameters `ns`. -/
def sgrChunk (ns : List ℕ) : Chunk := .sgr (ns.map fun n => { value := n })

/-- `mappings` of the character attributes: the flag, and the options that turn it off and on. -/
def attributeMappings : List (UInt16 × ℕ × ℕ) :=
  [(CharacterAttributes.intense, 22, 1), (CharacterAttributes.italics, 23, 3),
    (CharacterAttributes.blinking, 25, 5), (CharacterAttributes.invisible, 28, 8),
    (CharacterAttributes.crossedOut, 29, 9), (CharacterAttributes.faint, 22, 2),
    (CharacterAttributes.topGridline, 55, 53), (CharacterAttributes.reverseVideo, 27, 7)]

/-- The sequence for one flag, if it has changed. -/
def mappingChunks (attrDelta attr : UInt16) (mapping : UInt16 × ℕ × ℕ) : List Chunk :=
  if isAnyFlagSet attrDelta mapping.1 then
    [sgrChunk [if isAnyFlagSet attr mapping.1 then mapping.2.2 else mapping.2.1]]
  else []

/-- `mappings` of the underline styles. -/
def underlineStyleChunk (style : UInt16) : Chunk :=
  match style with
  | 0 => sgrChunk [24]
  | 1 => sgrChunk [4]
  | 2 => sgrChunk [21]
  | 3 => .sgr [⟨4, [some 3]⟩]
  | 4 => .sgr [⟨4, [some 4]⟩]
  | 5 => .sgr [⟨4, [some 5]⟩]
  | _ => sgrChunk [4]

/-- `Intense` and `Faint`, which share the option that turns them off. -/
def intenseOrFaint : UInt16 := CharacterAttributes.intense ||| CharacterAttributes.faint

/-- The sequences that take the character attributes `previousAttr` to those of `value`. -/
def characterChunks (previousAttr : UInt16) (value : TextAttribute) : List Chunk :=
  let attr := value.attrs
  if previousAttr = attr then []
  else
    let attrDelta := attr ^^^ previousAttr
    let both := areAllFlagsSet previousAttr intenseOrFaint && isAnyFlagSet attrDelta intenseOrFaint
    let resets :=
      if both then
        [sgrChunk
          (if isAnyFlagSet attr intenseOrFaint then
            [22, if isAnyFlagSet attr CharacterAttributes.intense then 1 else 2]
          else [22])]
      else []
    let attrDelta := if both then clearAllFlags attrDelta intenseOrFaint else attrDelta
    resets ++ attributeMappings.flatMap (mappingChunks attrDelta attr) ++
      if isAnyFlagSet attrDelta CharacterAttributes.underlineStyle then
        [underlineStyleChunk value.getUnderlineStyle]
      else []

/-- The sequence for a color: `default_`, a number from `dark` or `bright` on, or the parameters
behind `extended`. -/
def colorChunk (default_ dark bright extended : ℕ) (color : TextColor) : Chunk :=
  match color.colorType with
  | .isDefault => sgrChunk [default_]
  | .isIndex16 =>
    sgrChunk [(if color.getIndex &&& 8 != 0 then bright else dark) + (color.getIndex &&& 7).toNat]
  | .isIndex256 => sgrChunk [extended, 5, color.getIndex.toNat]
  | .isRgb => sgrChunk [extended, 2, color.red.toNat, color.green.toNat, color.blue.toNat]

/-- The sequence for the foreground. -/
def foregroundChunks (previousFg fg : TextColor) : List Chunk :=
  if previousFg ≠ fg then [colorChunk 39 30 90 38 fg] else []

/-- The sequence for the background. -/
def backgroundChunks (previousBg bg : TextColor) : List Chunk :=
  if previousBg ≠ bg then [colorChunk 49 40 100 48 bg] else []

/-- The sequence for the color of the underline. The source switches on the type of the foreground
here. -/
def underlineColorChunks (fg previousUl ul : TextColor) : List Chunk :=
  if previousUl ≠ ul then
    match fg.colorType with
    | .isDefault => [sgrChunk [59]]
    | .isIndex16 => []
    | .isIndex256 => [.sgr [⟨58, [some 5, some ul.getIndex.toNat]⟩]]
    | .isRgb =>
      [.sgr [⟨58, [some 2, none, some ul.red.toNat, some ul.green.toNat, some ul.blue.toNat]⟩]]
  else []

/-- The SGR sequences that take the attribute of the run before to the attribute `value`. -/
def attributeChunks (previous value : TextAttribute) : List Chunk :=
  characterChunks previous.attrs value ++ foregroundChunks previous.foreground value.foreground ++
    backgroundChunks previous.background value.background ++
    underlineColorChunks value.foreground previous.underlineColor value.underlineColor

/-- The hyperlink that begins or ends. -/
def hyperlinkChunks (uriFromId : UInt16 → List WChar) (previousHyperlinkId hyperlinkId : UInt16) :
    List Chunk :=
  if previousHyperlinkId ≠ hyperlinkId then
    if hyperlinkId ≠ 0 then
      if (uriFromId hyperlinkId).isEmpty then [] else [.hyperlink (uriFromId hyperlinkId)]
    else [.hyperlink []]
  else []

/-! ### Rows -/

namespace ROW

/-- `ROW::GetText(columnBegin, columnEnd)`. -/
def getTextBetween (r : ROW) (columnBegin columnEnd : ℤ) : List WChar :=
  let columns := r.getReadableColumnCount
  let colBeg := clampInt columnBegin 0 columns
  let colEnd := clampInt columnEnd colBeg columns
  let chBeg := r.uncheckedCharOffset colBeg.toNat
  let chEnd := r.uncheckedCharOffset colEnd.toNat
  (r.chars.drop chBeg).take (chEnd - chBeg)

/-- `row.Attributes().slice(startX, endX).runs()`. -/
def attributeRuns (r : ROW) (startX endX : ℤ) : List (Run TextAttribute) :=
  Run.encode (r.attr.slice (narrow16 startX) (narrow16 endX))

end ROW

/-- The text so far, and what one call hands to the next. -/
structure SerializeState where
  buffer : List Chunk := []
  previousTextAttr : Option TextAttribute := none
  delayedLineBreak : Bool := false

/-- `effectivePreviousTextAttr`: an attribute that no run has stands for no run at all. -/
def effectivePreviousTextAttr (previousTextAttr : Option TextAttribute) : TextAttribute :=
  previousTextAttr.getD { attrs := CharacterAttributes.unused1 }

section Serialize

variable (uriFromId : UInt16 → List WChar)

/-- One turn of the loop over the runs; `first` is the first run, and `isLast` says that this is the
last. The column behind the text comes with the state. -/
def serializeRun (row : ROW) (first : TextAttribute) (isLast : Bool) (run : Run TextAttribute)
    (oldX : ℤ) (s : SerializeState) : ℤ × SerializeState :=
  let previous := effectivePreviousTextAttr s.previousTextAttr
  let lastCharX := row.measureRight
  let newX := oldX + run.length
  let trimTrailingWhitespaces := isLast && lastCharX < newX
  let clearToEndOfLine :=
    trimTrailingWhitespaces && (first != {} || run.value != {})
  let newX := if trimTrailingWhitespaces then lastCharX else newX
  (newX,
    { buffer := s.buffer ++ attributeChunks previous run.value ++
        hyperlinkChunks uriFromId previous.hyperlinkId run.value.hyperlinkId ++
        (if s.delayedLineBreak then [.lineBreak] else []) ++
        [.text (row.getTextBetween oldX newX)] ++
        (if clearToEndOfLine then [.eraseInLine] else [])
      previousTextAttr := some run.value
      delayedLineBreak := false })

/-- The loop over the runs. -/
def serializeRuns (row : ROW) (first : TextAttribute) :
    List (Run TextAttribute) → ℤ → SerializeState → SerializeState
  | [], _, s => s
  | run :: runs, oldX, s =>
    let (oldX, s) := serializeRun uriFromId row first runs.isEmpty run oldX s
    serializeRuns row first runs oldX s

/-- The sequence in front of a row that is not of single width. -/
def lineRenditionChunks (lr : LineRendition) : List Chunk :=
  match lr with
  | .singleWidth => []
  | .doubleWidth => [.lineRendition 6]
  | .doubleHeightTop => [.lineRendition 3]
  | .doubleHeightBottom => [.lineRendition 4]

/-- What follows the last row. -/
def closingChunks (previousTextAttr : Option TextAttribute) (addLineBreak : Bool) : List Chunk :=
  (match previousTextAttr with
    | some attr => if attr.hyperlinkId ≠ 0 then [.hyperlink []] else []
    | none => []) ++
  [sgrChunk [0]] ++ if addLineBreak then [.lineBreak] else []

/-- The arguments of `TextBuffer::_SerializeRow` that concern its row. -/
structure RowRequest where
  row : ROW
  startX : ℤ
  endX : ℤ
  addLineBreak : Bool

/-- The runs that the row is serialized in. -/
def RowRequest.runs (req : RowRequest) : List (Run TextAttribute) :=
  req.row.attributeRuns req.startX req.endX

/-- The attributes of these runs. -/
def RowRequest.values (req : RowRequest) : List TextAttribute := req.runs.map Run.value

/-- `TextBuffer::_SerializeRow`. -/
def serializeRow (req : RowRequest) (isLastRow : Bool) (s : SerializeState) : SerializeState :=
  let s := { s with buffer := s.buffer ++ lineRenditionChunks req.row.lineRendition }
  let first := (req.runs.head?.map Run.value).getD {}
  let s := serializeRuns uriFromId req.row first req.runs req.startX s
  { buffer := s.buffer ++ (if s.delayedLineBreak then [.lineBreak] else []) ++
      (if isLastRow then closingChunks s.previousTextAttr req.addLineBreak else [])
    previousTextAttr := s.previousTextAttr
    delayedLineBreak := !req.row.wrapForced && req.addLineBreak }

/-- The loop over the rows that both callers have. -/
def serializeRows : List RowRequest → SerializeState → SerializeState
  | [], s => s
  | req :: reqs, s => serializeRows reqs (serializeRow uriFromId req reqs.isEmpty s)

/-- The rows that `TextBuffer::SerializeTo` serializes. -/
def serializeToRequests (rows : List ROW) : List RowRequest :=
  rows.mapIdx fun currentRow row =>
    { row, startX := 0, endX := row.getReadableColumnCount
      addLineBreak := !row.wrapForced || currentRow + 1 == rows.length }

/-- `TextBuffer::SerializeTo`: the rows up to the last character that is no space. -/
def TextBuffer.serializeTo (b : TextBuffer) : List WChar :=
  let lastRow := (b.getLastNonSpaceCharacter none).1.y
  let rows := (List.range (lastRow.toNat + 1)).map fun (y : ℕ) => (b.getRow y).1
  0xfeff :: (serializeRows uriFromId (serializeToRequests rows) {}).buffer.flatMap Chunk.render

end Serialize

/-! ### Replay -/

/-- The attribute after the SGR sequences among the chunks. -/
def after (attr : TextAttribute) : List Chunk → TextAttribute
  | [] => attr
  | .sgr options :: chunks => after (applyGraphicsOptions (sgrParameters options) attr) chunks
  | _ :: chunks => after attr chunks

/-- The attributes that are in effect before each piece of text. -/
def replay (attr : TextAttribute) : List Chunk → List TextAttribute
  | [] => []
  | .sgr options :: chunks => replay (applyGraphicsOptions (sgrParameters options) attr) chunks
  | .text _ :: chunks => attr :: replay attr chunks
  | _ :: chunks => replay attr chunks

/-- The value is restored behind the attribute of the run before. Faint is not replaced by intense,
since the option that turns faint off comes last; and the color of the underline has not changed, or
has the type of the foreground. -/
def Replays (previous value : TextAttribute) : Prop :=
  ¬(isAnyFlagSet previous.attrs CharacterAttributes.faint ∧
      ¬isAnyFlagSet previous.attrs CharacterAttributes.intense ∧
      isAnyFlagSet value.attrs CharacterAttributes.intense ∧
      ¬isAnyFlagSet value.attrs CharacterAttributes.faint) ∧
    (value.underlineColor = previous.underlineColor ∨
      value.foreground.colorType = value.underlineColor.colorType)

instance (previous value : TextAttribute) : Decidable (Replays previous value) :=
  inferInstanceAs (Decidable (_ ∧ _))

end IntelligentTerminal.Buffer
