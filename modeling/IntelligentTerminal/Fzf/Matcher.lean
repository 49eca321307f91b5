import Mathlib

/-!
# Fuzzy search

`Match` looks for the terms of a pattern in a text. `fzfFuzzyMatchV2` fills a matrix of scores, with
a row for each character of a term, and walks back from the best cell of the last row to find the
positions of the characters. The matched positions are merged into runs of UTF-16 code units.

A text is a list of code points, which is what `utf16ToUtf32` makes of well-formed UTF-16: it throws
for any other sequence. `u_foldCase` and `u_charType` are parameters. A conversion to `int16_t` is
the parameter `narrow`, which is `int16` in the program. The score of a cell and its count of
consecutive characters, which have a matrix each, are one cell here. The loop over the text
has several accumulators that do not depend on each other, and each of them is a function of its own.

`none` says that an index is out of range.

Source: `src/cascadia/fzf/fzf.cpp`.
-/

namespace IntelligentTerminal.Fzf

/-- A conversion to `int16_t`. -/
def int16 (x : ℤ) : ℤ := x.bmod (2 ^ 16)

abbrev scoreMatch : ℤ := 16

/-- `BoundaryBonus`, which is also `NonWordBonus`. -/
abbrev boundaryBonus : ℤ := 8

abbrev camelCaseBonus : ℤ := 7

abbrev bonusConsecutive : ℤ := 4

abbrev bonusFirstCharMultiplier : ℤ := 2

/-- `ScoreGapExtension` in a gap, and `ScoreGapStart` otherwise. -/
def gapScore (inGap : Bool) : ℤ := if inGap then -1 else -3

inductive CharClass
  | nonWord
  | charLower
  | charUpper
  | digit
deriving DecidableEq

/-- The functions of ICU on code points. -/
structure Unicode where
  /-- `u_foldCase`. -/
  foldCase : Char → Char
  /-- `u_charType`. -/
  charType : Char → ℕ

/-- A cell of `scoreMatrix` and of `consecutiveCharMatrix`. -/
structure Cell where
  score : ℤ
  consecutive : ℤ

structure TextRun where
  Start : ℕ
  End : ℕ
deriving DecidableEq

structure MatchResult where
  score : ℤ
  runs : List TextRun

/-- `U16_LENGTH`. -/
def width (ch : Char) : ℕ := if ch.toNat ≤ 0xFFFF then 1 else 2

/-! ### The first pass -/

def trySkip (input : List Char) (searchChar : Char) (startIndex : ℕ) : Option ℕ :=
  ((input.drop startIndex).findIdx? (· = searchChar)).map (· + startIndex)

/-- The loop of `asciiFuzzyIndex` behind the first character of the pattern. -/
def skipLoop (input : List Char) : List Char → ℕ → Bool
  | [], _ => true
  | searchChar :: pattern, idx =>
    match trySkip input searchChar idx with
    | none => false
    | some idx => skipLoop input pattern (idx + 1)

def asciiFuzzyIndex (input : List Char) : List Char → Option ℕ
  | [] => some 0
  | searchChar :: pattern =>
    match trySkip input searchChar 0 with
    | none => none
    | some idx => if skipLoop input pattern (idx + 1) then some (idx - 1) else none

/-- `classOf`, with the numbers of `UCharCategory`. -/
def classOf (u : Unicode) (ch : Char) : CharClass :=
  match u.charType ch with
  | 1 => .charUpper
  | 2 | 4 | 5 => .charLower
  | 9 => .digit
  | _ => .nonWord

def calculateBonus (prevClass currentClass : CharClass) : ℤ :=
  if prevClass = .nonWord ∧ currentClass ≠ .nonWord then boundaryBonus
  else if (prevClass = .charLower ∧ currentClass = .charUpper) ∨
      (prevClass ≠ .digit ∧ currentClass = .digit) then camelCaseBonus
  else if currentClass = .nonWord then boundaryBonus
  else 0

/-- The loop over the text: the bonuses. -/
def bonusLoop (u : Unicode) (previousClass : CharClass) : List Char → List ℤ
  | [] => []
  | ch :: text =>
    calculateBonus previousClass (classOf u ch) :: bonusLoop u (classOf u ch) text

/-- The loop over the text: `firstOccurrenceOfEachChar` and `lastIndex`. The characters that have
no occurrence yet are `pending`. -/
def occurrenceLoop (current : Char) (pending : List Char) (column lastIndex : ℕ) :
    List Char → List ℕ × ℕ
  | [] => ([], lastIndex)
  | ch :: text =>
    if ch = current then
      match pending with
      | [] => occurrenceLoop current [] (column + 1) column text
      | _ :: pending =>
        let result := occurrenceLoop (pending.headD current) pending (column + 1) column text
        (column :: result.1, result.2)
    else occurrenceLoop current pending (column + 1) lastIndex text

/-- The loop over the text: `initialScores` and `consecutiveScores`. -/
def initialLoop (narrow : ℤ → ℤ) (firstPatternChar : Char) (previousScore : ℤ) (inGap : Bool) :
    List (Char × ℤ) → List Cell
  | [] => []
  | (ch, bonus) :: text =>
    if ch = firstPatternChar then
      let score := narrow (scoreMatch + bonus * bonusFirstCharMultiplier)
      ⟨score, 1⟩ :: initialLoop narrow firstPatternChar score false text
    else
      let score := max (narrow (previousScore + gapScore inGap)) 0
      ⟨score, 0⟩ :: initialLoop narrow firstPatternChar score true text

/-- The loop over the text: `maxScore` and `maxScorePos` for a pattern of one character. -/
def singleLoop (narrow : ℤ → ℤ) (firstPatternChar : Char) (column : ℕ) (best : ℤ × ℕ) :
    List (Char × ℤ) → ℤ × ℕ
  | [] => best
  | (ch, bonus) :: text =>
    let score := narrow (scoreMatch + bonus * bonusFirstCharMultiplier)
    if ch = firstPatternChar ∧ best.1 < score then
      if bonus = boundaryBonus then (score, column)
      else singleLoop narrow firstPatternChar (column + 1) (score, column) text
    else singleLoop narrow firstPatternChar (column + 1) best text

/-! ### The matrix -/

/-- `diagonalScore` and `consecutive` for a character that matches. -/
def matchCell (narrow : ℤ → ℤ) (bonuses : List ℤ) (column : ℕ) (diagonal : Cell) (score : ℤ) :
    Cell :=
  let diagonalScore := narrow (diagonal.score + scoreMatch)
  let columnBonus := bonuses.getD column 0
  let counted := narrow (diagonal.consecutive + 1)
  let consecutive := if columnBonus = boundaryBonus then 1 else counted
  let bonus :=
    if columnBonus ≠ boundaryBonus ∧ 1 < counted then
      max (max columnBonus bonusConsecutive) (bonuses.getD (column + 1 - counted.toNat) 0)
    else columnBonus
  if diagonalScore + bonus < score then ⟨narrow (diagonalScore + columnBonus), 0⟩
  else ⟨narrow (diagonalScore + bonus), consecutive⟩

/-- The loop over the columns of a row, with the diagonal neighbours. -/
def rowLoop (narrow : ℤ → ℤ) (bonuses : List ℤ) (currentPatternChar : Char) (column : ℕ)
    (left : ℤ) (inGap : Bool) : List (Char × Cell) → List Cell
  | [] => []
  | (ch, diagonal) :: text =>
    let score := narrow (left + gapScore inGap)
    let cell := if ch = currentPatternChar then matchCell narrow bonuses column diagonal score
      else ⟨0, 0⟩
    let cellScore := max 0 (max cell.score score)
    ⟨cellScore, cell.consecutive⟩ ::
      rowLoop narrow bonuses currentPatternChar (column + 1) cellScore (cell.score < score) text

/-- What the first pass finds: `firstIndexOf`, `bonusesSpan`, `firstOccurrenceOfEachChar` and
`lastIndex`. -/
structure Scan where
  firstIndexOf : ℕ
  bonuses : List ℤ
  firstOccurrences : List ℕ
  lastIndex : ℕ

/-- `firstOccurrenceOfFirstChar`. -/
def Scan.origin (scan : Scan) : ℕ := scan.firstOccurrences.headD 0

def Scan.width (scan : Scan) : ℕ := scan.lastIndex - scan.origin + 1

/-- The loop over the rows behind the first one. -/
def rowsLoop (narrow : ℤ → ℤ) (scan : Scan) (foldedText : List Char) (previous : List Cell) :
    List (Char × ℕ) → List (List Cell)
  | [] => []
  | (currentPatternChar, column) :: rest =>
    let textSlice := (foldedText.drop column).take (scan.lastIndex - column + 1)
    let diagonals := previous.drop (column - scan.origin - 1)
    let row := List.replicate (column - scan.origin) ⟨0, 0⟩ ++
      rowLoop narrow scan.bonuses currentPatternChar column 0 false (textSlice.zip diagonals)
    row :: rowsLoop narrow scan foldedText row rest

/-- The rows of the matrices. -/
def matrixRows (narrow : ℤ → ℤ) (scan : Scan) (foldedText : List Char) :
    List Char → List (List Cell)
  | [] => []
  | firstPatternChar :: pattern =>
    let initial := initialLoop narrow firstPatternChar 0 false
      ((foldedText.drop scan.firstIndexOf).zip (scan.bonuses.drop scan.firstIndexOf))
    let row := (initial.drop (scan.origin - scan.firstIndexOf)).take scan.width
    row :: rowsLoop narrow scan foldedText row (pattern.zip scan.firstOccurrences.tail)

/-- `maxScore` and `maxScorePos`, over the last row. -/
def maxLoop (column : ℕ) (best : ℤ × ℕ) : List Cell → ℤ × ℕ
  | [] => best
  | cell :: row =>
    maxLoop (column + 1) (if best.1 < cell.score then (cell.score, column) else best) row

/-! ### The walk back -/

/-- A `size_t` that has been decremented, possibly below zero. -/
def sizeT (x : ℤ) : ℕ := if x < 0 then (x + 2 ^ 64).toNat else x.toNat

/-- A cell of the matrices. -/
def cellAt (cells : List Cell) (index : ℤ) : Option Cell :=
  if index < 0 then none else cells[index.toNat]?

/-- The loop that walks back. An index that is in range goes down in every turn. -/
def traceLoop (scan : Scan) (cells : List Cell) :
    ℕ → ℕ → ℤ → Bool → Option (List ℕ)
  | 0, _, _, _ => none
  | fuel + 1, patternIndex, currentColIndex, preferCurrentMatch => do
    let index : ℤ := patternIndex * scan.width + (currentColIndex - scan.origin)
    let first ← scan.firstOccurrences[patternIndex]?
    let cell ← cellAt cells index
    let diagonal ← (if 0 < patternIndex ∧ first ≤ sizeT currentColIndex then
      (cellAt cells (index - scan.width - 1)).map (·.score) else some 0)
    let left ← (if first < sizeT currentColIndex then (cellAt cells (index - 1)).map (·.score)
      else some 0)
    -- The last comparison of the index with the size of the matrix is made by `cellAt`.
    let prefer := 1 < cell.consecutive ||
      (cellAt cells (index + scan.width + 1)).any fun next => 0 < next.consecutive
    (if diagonal < cell.score ∧
        (left < cell.score ∨ (cell.score = left ∧ preferCurrentMatch = true)) then
      if patternIndex = 0 then some [sizeT currentColIndex]
      else (traceLoop scan cells fuel (patternIndex - 1) (currentColIndex - 1) prefer).map
        (sizeT currentColIndex :: ·)
    else traceLoop scan cells fuel patternIndex (currentColIndex - 1) prefer)

/-- The first pass, over a text and the text that is folded. -/
def scanText (u : Unicode) (text : List Char) (pattern : List Char) : Option Scan :=
  let foldedText := text.map u.foldCase
  (asciiFuzzyIndex foldedText pattern).map fun firstIndexOf =>
    let occurrences := occurrenceLoop (pattern.headD default) pattern firstIndexOf 0
      (foldedText.drop firstIndexOf)
    { firstIndexOf
      bonuses := List.replicate firstIndexOf 0 ++ bonusLoop u .nonWord (text.drop firstIndexOf)
      firstOccurrences := occurrences.1
      lastIndex := occurrences.2 }

/-- `fzfFuzzyMatchV2`: the score and the positions. -/
def fzfFuzzyMatchV2 (u : Unicode) (narrow : ℤ → ℤ) (text : List Char) :
    List Char → Option (ℤ × List ℕ)
  | [] => some (0, [])
  | firstPatternChar :: pattern =>
    let foldedText := text.map u.foldCase
    match scanText u text (firstPatternChar :: pattern) with
    | none => some (0, [])
    | some scan =>
      if scan.firstOccurrences.length ≠ pattern.length + 1 then some (0, [])
      else if pattern = [] then
        let best := singleLoop narrow firstPatternChar scan.firstIndexOf (0, 0)
          ((foldedText.drop scan.firstIndexOf).zip (scan.bonuses.drop scan.firstIndexOf))
        some (best.1, [best.2])
      else
        let rows := matrixRows narrow scan foldedText (firstPatternChar :: pattern)
        let column := scan.firstOccurrences.getLastD 0
        let best := maxLoop column (0, 0) ((rows.getLastD []).drop (column - scan.origin))
        (traceLoop scan rows.flatten (rows.flatten.length + 1) pattern.length best.2 true).map
          fun pos => (best.1, pos)

/-! ### Patterns and runs -/

def parsePattern (u : Unicode) (patternStr : List Char) : List (List Char) :=
  match _h : patternStr.dropWhile (· = ' ') with
  | [] => []
  | ch :: rest =>
    ((ch :: rest).takeWhile (· ≠ ' ')).map u.foldCase ::
      parsePattern u (rest.dropWhile (· ≠ ' '))
termination_by patternStr.length
decreasing_by
  have hdrop := (List.dropWhile_suffix (fun ch => decide (ch = ' ')) (l := patternStr)).length_le
  have hrest := (List.dropWhile_suffix (fun ch => decide (ch ≠ ' ')) (l := rest)).length_le
  rw [_h, List.length_cons] at hdrop
  omega

/-- The loop of `Match` over the terms: `totalScore` and `allUtf32Pos`. -/
def termsLoop (u : Unicode) (narrow : ℤ → ℤ) (text : List Char) (totalScore : ℤ)
    (allUtf32Pos : List ℕ) : List (List Char) → Option (Option (ℤ × List ℕ))
  | [] => some (some (totalScore, allUtf32Pos))
  | term :: terms =>
    match fzfFuzzyMatchV2 u narrow text term with
    | none => none
    | some (score, termPos) =>
      if score ≤ 0 then some none
      else termsLoop u narrow text (totalScore + score) (allUtf32Pos ++ termPos) terms

/-- The loop of `Match` over the code points. The start of a run that has not ended is `runStart`. -/
def runsLoop (cpIndex utf16Offset : ℕ) (runStart : Option ℕ) : List ℕ → List Char → List TextRun
  | _, [] =>
    match runStart with
    | none => []
    | some start => [⟨start, utf16Offset - 1⟩]
  | positions, cp :: text =>
    if positions.head? = some cpIndex then
      runsLoop (cpIndex + 1) (utf16Offset + width cp) (some (runStart.getD utf16Offset))
        positions.tail text
    else
      match runStart with
      | none => runsLoop (cpIndex + 1) (utf16Offset + width cp) none positions text
      | some start => ⟨start, utf16Offset - 1⟩ ::
          runsLoop (cpIndex + 1) (utf16Offset + width cp) none positions text

def matchPattern (u : Unicode) (narrow : ℤ → ℤ) (text : List Char) (terms : List (List Char)) :
    Option (Option MatchResult) :=
  if terms.isEmpty then some (some ⟨0, []⟩)
  else
    (termsLoop u narrow text 0 [] terms).map fun result => result.map fun (score, positions) =>
      ⟨score, runsLoop 0 0 none (positions.mergeSort (· ≤ ·)).dedup text⟩

end IntelligentTerminal.Fzf
