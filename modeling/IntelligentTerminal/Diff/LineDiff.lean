import Mathlib

/-!
# The diff preview of a proposed file change

The lines that two texts begin and end with in common are set aside. What is between them, the
core, is compared line by line where it is small. Of a large core only its edges are shown. What is
left out is marked by a line of its own kind, and the preview is then cut down to a budget.

Source: `tools/wta/src/ui/line_diff.rs`.
-/

namespace IntelligentTerminal.Diff

/-- A line of a text. -/
abbrev Line := List Char

inductive DiffLineKind
  | context
  | added
  | removed
  | omitted
deriving DecidableEq

structure DiffLine where
  kind : DiffLineKind
  text : Line
deriving DecidableEq

def maxDiffCoreLines : ℕ := 256

def maxAsymmetricCoreLines : ℕ := 4096

def contextLines : ℕ := 2

/-! ### The lines of a text -/

/-- `str::split_inclusive` at a line feed. -/
def splitInclusive : List Char → List Line
  | [] => []
  | c :: text =>
    if c = '\n' then [c] :: splitInclusive text
    else
      match splitInclusive text with
      | [] => [[c]]
      | line :: lines => (c :: line) :: lines

/-- The line without the line feed at its end, and without a carriage return in front of that. -/
def stripLineEnd (line : Line) : Line :=
  if line.getLast? = some '\n' then
    if line.dropLast.getLast? = some '\r' then line.dropLast.dropLast else line.dropLast
  else line

/-- `str::lines`. -/
def strLines (text : List Char) : List Line := (splitInclusive text).map stripLineEnd

def snapshotLines (text : List Char) : List Line :=
  if text.getLast? = some '\n' then strLines text ++ [[]] else strLines text

/-! ### The diff line by line -/

section DiffOps

variable (oldLines newLines : List Line)

/-- A cell of the table, by its row and its column. -/
def cell (table : List ℕ) (oldIndex newIndex : ℕ) : ℕ :=
  table.getD (oldIndex * (newLines.length + 1) + newIndex) 0

/-- Fills a cell of the table. Its cells have sixteen bits. -/
def fillCell (table : List ℕ) (oldIndex newIndex : ℕ) : List ℕ :=
  table.set (oldIndex * (newLines.length + 1) + newIndex)
    (if oldLines[oldIndex]? = newLines[newIndex]? then
      (cell newLines table (oldIndex + 1) (newIndex + 1) + 1) % 2 ^ 16
    else
      max (cell newLines table (oldIndex + 1) newIndex)
        (cell newLines table oldIndex (newIndex + 1)))

/-- Fills the first cells of a row, from the last one to the first. -/
def fillRow (oldIndex : ℕ) : ℕ → List ℕ → List ℕ
  | 0, table => table
  | newIndex + 1, table =>
    fillRow oldIndex newIndex (fillCell oldLines newLines table oldIndex newIndex)

/-- Fills the first rows, from the last one to the first. -/
def fillRows : ℕ → List ℕ → List ℕ
  | 0, table => table
  | oldIndex + 1, table =>
    fillRows oldIndex (fillRow oldLines newLines oldIndex newLines.length table)

/-- The table `common_lengths`. -/
def commonLengths : List ℕ :=
  fillRows oldLines newLines oldLines.length
    (List.replicate ((oldLines.length + 1) * (newLines.length + 1)) 0)

/-- The walk through the table, from two indices on. -/
def walk (table : List ℕ) (oldIndex newIndex : ℕ) : List DiffLine :=
  if _h : oldIndex < oldLines.length ∧ newIndex < newLines.length ∧
      oldLines[oldIndex]? = newLines[newIndex]? then
    ⟨.context, oldLines.getD oldIndex []⟩ :: walk table (oldIndex + 1) (newIndex + 1)
  else if _h : oldIndex < oldLines.length ∧ (newIndex = newLines.length ∨
      cell newLines table oldIndex (newIndex + 1) ≤ cell newLines table (oldIndex + 1) newIndex) then
    ⟨.removed, oldLines.getD oldIndex []⟩ :: walk table (oldIndex + 1) newIndex
  else if _h : newIndex < newLines.length then
    ⟨.added, newLines.getD newIndex []⟩ :: walk table oldIndex (newIndex + 1)
  else []
termination_by (oldLines.length - oldIndex) + (newLines.length - newIndex)

def diffOps : List DiffLine := walk oldLines newLines (commonLengths oldLines newLines) 0 0

end DiffOps

/-! ### Omission -/

def pushOmitted (lines : List DiffLine) : List DiffLine :=
  if lines.getLast?.any (·.kind = .omitted) then lines else lines ++ [⟨.omitted, []⟩]

def appendCollapsedOps (output : List DiffLine) : List DiffLine → List DiffLine
  | [] => output
  | op :: rest =>
    if op.kind ≠ .context then appendCollapsedOps (output ++ [op]) rest
    else
      let run := op :: rest.takeWhile (·.kind = .context)
      let output :=
        if run.length ≤ contextLines * 2 then output ++ run
        else
          pushOmitted (output ++ run.take contextLines) ++ run.drop (run.length - contextLines)
      appendCollapsedOps output (rest.dropWhile (·.kind = .context))
termination_by operations => operations.length
decreasing_by
  · simp
  · have := (List.dropWhile_suffix (l := rest) (·.kind = DiffLineKind.context)).length_le
    simp only [List.length_cons]
    omega

/-- The lines as entries of a preview. -/
def entries (kind : DiffLineKind) (lines : List Line) : List DiffLine := lines.map (⟨kind, ·⟩)

def appendLargeDisjointCore (output : List DiffLine) (oldLines newLines : List Line) :
    List DiffLine :=
  let output := output ++ entries .removed (oldLines.take maxDiffCoreLines)
  let output := if maxDiffCoreLines < oldLines.length then pushOmitted output else output
  let output := output ++ entries .added (newLines.take maxDiffCoreLines)
  if maxDiffCoreLines < newLines.length then pushOmitted output else output

def suffixAnchorMatches (oldLines newLines : List Line) : Bool :=
  oldLines.drop (oldLines.length - contextLines) = newLines.drop (newLines.length - contextLines)

def prefixAnchorMatches (oldLines newLines : List Line) : Bool :=
  oldLines.take contextLines = newLines.take contextLines

def appendLargeSharedCore (output : List DiffLine) (oldLines newLines : List Line) :
    List DiffLine :=
  let edgeLines := maxDiffCoreLines / 2
  let oldHead := oldLines.take edgeLines
  let newHead := newLines.take edgeLines
  let output :=
    if suffixAnchorMatches oldHead newHead then appendCollapsedOps output (diffOps oldHead newHead)
    else pushOmitted output
  let output := pushOmitted output
  let oldTail := oldLines.drop (oldLines.length - edgeLines)
  let newTail := newLines.drop (newLines.length - edgeLines)
  if prefixAnchorMatches oldTail newTail then appendCollapsedOps output (diffOps oldTail newTail)
  else pushOmitted output

/-- `shares_line`: the longer list has a line of the shorter one. -/
def sharesLine (oldLines newLines : List Line) : Bool :=
  if oldLines.length ≤ newLines.length then newLines.any (oldLines.contains ·)
  else oldLines.any (newLines.contains ·)

/-! ### The budget -/

def indicesForKind (lines : List DiffLine) (kind : DiffLineKind) : List ℕ :=
  lines.zipIdx.filterMap fun line => if line.1.kind = kind then some line.2 else none

def selectEdges (indices : List ℕ) (budget : ℕ) (selected : List Bool) : List Bool :=
  let budget := min budget indices.length
  let head := (budget + 1) / 2
  let tail := budget - head
  let selected := (indices.take head).foldl (fun selected index => selected.set index true) selected
  (indices.reverse.take tail).foldl (fun selected index => selected.set index true) selected

/-- The loop of `rebuild_selected`, with the flag `omitted`. -/
def rebuildLoop (output : List DiffLine) (omitted : Bool) :
    List (DiffLine × Bool) → List DiffLine
  | [] => if omitted then pushOmitted output else output
  | (line, true) :: lines =>
    rebuildLoop ((if omitted then pushOmitted output else output) ++ [line]) false lines
  | (_, false) :: lines => rebuildLoop output true lines

def rebuildSelected (lines : List DiffLine) (selected : List Bool) : List DiffLine :=
  rebuildLoop [] false (lines.zip selected)

/-- The loop of `balance_preview`, which shrinks the two budgets. -/
def balanceLoop (lines : List DiffLine) (maxLines removedBudget addedBudget : ℕ) : List DiffLine :=
  let removed := indicesForKind lines .removed
  let added := indicesForKind lines .added
  let selected := selectEdges added addedBudget
    (selectEdges removed removedBudget (List.replicate lines.length false))
  let rebuilt := rebuildSelected lines selected
  let minimumRemoved := if removed = [] then 0 else 1
  let minimumAdded := if added = [] then 0 else 1
  if rebuilt.length ≤ maxLines then rebuilt
  else if minimumRemoved < removedBudget ∧
      (addedBudget ≤ removedBudget ∨ addedBudget = minimumAdded) then
    balanceLoop lines maxLines (removedBudget - 1) addedBudget
  else if minimumAdded < addedBudget then
    balanceLoop lines maxLines removedBudget (addedBudget - 1)
  else [⟨.omitted, []⟩]
termination_by removedBudget + addedBudget
decreasing_by all_goals omega

def balancePreview (lines : List DiffLine) (maxLines : ℕ) : List DiffLine :=
  if lines.length ≤ maxLines then lines
  else if maxLines = 0 then []
  else
    let removed := indicesForKind lines .removed
    let added := indicesForKind lines .added
    let kinds := (if removed = [] then 0 else 1) + (if added = [] then 0 else 1)
    if kinds = 0 then [⟨.omitted, []⟩]
    else
      let changeBudget := max (maxLines - 1) kinds
      if removed ≠ [] ∧ added ≠ [] then
        let removedBudget := (changeBudget + 1) / 2
        balanceLoop lines maxLines removedBudget (changeBudget - removedBudget)
      else if removed ≠ [] then balanceLoop lines maxLines changeBudget 0
      else balanceLoop lines maxLines 0 changeBudget

/-! ### The preview -/

/-- How many lines two lists begin with in common. -/
def commonPrefix : List Line → List Line → ℕ
  | [], _ => 0
  | _ :: _, [] => 0
  | oldLine :: oldLines, newLine :: newLines =>
    if oldLine = newLine then commonPrefix oldLines newLines + 1 else 0

section Preview

variable (oldLines newLines : List Line)

/-- The variable `prefix` after its loop. -/
def prefixLength : ℕ := commonPrefix oldLines newLines

/-- The variable `suffix` after its loop, which does not reach into the common beginning. -/
def suffixLength : ℕ :=
  commonPrefix (oldLines.drop (prefixLength oldLines newLines)).reverse
    (newLines.drop (prefixLength oldLines newLines)).reverse

def oldCore : List Line :=
  (oldLines.take (oldLines.length - suffixLength oldLines newLines)).drop
    (prefixLength oldLines newLines)

def newCore : List Line :=
  (newLines.take (newLines.length - suffixLength oldLines newLines)).drop
    (prefixLength oldLines newLines)

def appendCore (output : List DiffLine) (oldCore newCore : List Line) : List DiffLine :=
  if maxDiffCoreLines < oldCore.length ∨ maxDiffCoreLines < newCore.length then
    if sharesLine oldCore newCore then
      if maxDiffCoreLines < oldCore.length ∧ maxDiffCoreLines < newCore.length then
        appendLargeSharedCore output oldCore newCore
      else if max oldCore.length newCore.length ≤ maxAsymmetricCoreLines then
        appendCollapsedOps output (diffOps oldCore newCore)
      else pushOmitted output
    else appendLargeDisjointCore output oldCore newCore
  else appendCollapsedOps output (diffOps oldCore newCore)

/-- The lines of two texts that differ, before they are balanced. -/
def changedLines (output : List DiffLine) : List DiffLine :=
  let start := prefixLength oldLines newLines
  let suffix := suffixLength oldLines newLines
  let output := if contextLines < start then pushOmitted output else output
  let output := output ++
    entries .context ((oldLines.take start).drop (start - contextLines))
  let output := appendCore output (oldCore oldLines newLines) (newCore oldLines newLines)
  let oldCoreEnd := oldLines.length - suffix
  let output := output ++
    entries .context ((oldLines.take (oldCoreEnd + min suffix contextLines)).drop oldCoreEnd)
  if contextLines < suffix then pushOmitted output else output

end Preview

/-- The lines of the preview, before they are balanced. -/
def previewLines (oldText : Option (List Char)) (newText : List Char) (sourceTruncated : Bool) :
    List DiffLine :=
  let newLines := snapshotLines newText
  let lines := if sourceTruncated then pushOmitted [] else []
  match oldText with
  | none =>
    let lines := lines ++ entries .added (newLines.take maxDiffCoreLines)
    if maxDiffCoreLines < newLines.length then pushOmitted lines else lines
  | some oldText =>
    let oldLines := snapshotLines oldText
    let start := prefixLength oldLines newLines
    if start = oldLines.length ∧ start = newLines.length then lines
    else changedLines oldLines newLines lines

def preview (oldText : Option (List Char)) (newText : List Char) (sourceTruncated : Bool)
    (maxLines : ℕ) : List DiffLine :=
  balancePreview (previewLines oldText newText sourceTruncated) maxLines

end IntelligentTerminal.Diff
