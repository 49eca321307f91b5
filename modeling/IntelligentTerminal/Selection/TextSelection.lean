import IntelligentTerminal.Sessions.Event

/-!
# The text selection of the agent pane

A selection is painted over the cells of a frame, and copied symbol by symbol. A symbol takes one
cell or several: it is stored in the first of them, and the others are its continuation.

What `ratatui` and `unicode_width` say is a parameter or stated here: a buffer has a symbol for each
position of its area and no cell elsewhere, and an area does not reach past `u16::MAX`, since
`Rect::new` cuts it there. A loop that has not come to an end within its fuel has no result. The
clicks and the copied mark of `TextSelection` decide when a selection is made, and are left out.

Source: `tools/wta/src/text_selection.rs`, lines 9-110 and 249-443.
-/

namespace IntelligentTerminal.TextSelection

/-! ### Frames -/

/-- What is displayed in a cell. -/
abbrev Symbol := List Char

/-- `UnicodeWidthStr::width` and `char::is_alphanumeric`. -/
structure Env where
  width : Symbol → ℕ
  isAlphanumeric : Char → Bool

/-- `u16::checked_add`. -/
def checkedAdd (a b : ℕ) : Option ℕ := if a + b ≤ 65535 then some (a + b) else none

/-- `u16::saturating_add`. -/
def saturatingAdd (a b : ℕ) : ℕ := min (a + b) 65535

/-- `u16::checked_sub`. -/
def checkedSub (a b : ℕ) : Option ℕ := if b ≤ a then some (a - b) else none

/-- `struct Rect` of `ratatui`. -/
structure Rect where
  x : ℕ
  y : ℕ
  width : ℕ
  height : ℕ

def Rect.Contains (area : Rect) (x y : ℕ) : Prop :=
  area.x ≤ x ∧ x < saturatingAdd area.x area.width ∧
    area.y ≤ y ∧ y < saturatingAdd area.y area.height

instance (area : Rect) (x y : ℕ) : Decidable (area.Contains x y) :=
  inferInstanceAs (Decidable (_ ∧ _ ∧ _ ∧ _))

/-- `struct Buffer` of `ratatui`. -/
structure Buffer where
  area : Rect
  symbol : ℕ → ℕ → Symbol

def Buffer.cell (b : Buffer) (x y : ℕ) : Option Symbol :=
  if b.area.Contains x y then some (b.symbol x y) else none

structure Point where
  x : ℕ
  y : ℕ
deriving DecidableEq

inductive SelectionKind
  | all
  | linear
  | word
  | lines
deriving DecidableEq

structure Selection where
  anchor : Point
  focus : Point
  kind : SelectionKind

variable (env : Env) (b : Buffer)

/-! ### Points and cells -/

/-- `UnicodeWidthStr::width(symbol).max(1) as u16`. -/
def cellWidth (symbol : Symbol) : ℕ := max (env.width symbol) 1 % 65536

def normalizeWideCellX (x y : ℕ) : ℕ :=
  if x ≤ b.area.x then x
  else
    match b.cell (x - 1) y with
    | none => x
    | some previous => if 1 < env.width previous then x - 1 else x

def pointInBuffer (x y : ℕ) : Option Point := do
  let area := b.area
  let right ← checkedAdd area.x area.width
  let bottom ← checkedAdd area.y area.height
  if area.width = 0 ∨ area.height = 0 ∨ x < area.x ∨ right ≤ x ∨ y < area.y ∨ bottom ≤ y then none
  else some ⟨normalizeWideCellX env b x y, y⟩

def cellEndX (x y : ℕ) : ℕ :=
  ((b.cell x y).bind fun symbol => checkedAdd x (cellWidth env symbol - 1)).getD x

def orderedPoints (first second : Point) : Point × Point :=
  if first.y < second.y ∨ first.y = second.y ∧ first.x ≤ second.x then (first, second)
  else (second, first)

/-! ### Highlighting and copying -/

def selectionContains (selection : Selection) (point : Point) : Bool :=
  let area := b.area
  let (minY, maxY) :=
    if selection.kind = .all then (area.y, saturatingAdd area.y area.height - 1)
    else (min selection.anchor.y selection.focus.y, max selection.anchor.y selection.focus.y)
  if point.y < minY ∨ maxY < point.y then false
  else
    match selection.kind with
    | .all | .lines => area.x ≤ point.x && point.x < saturatingAdd area.x area.width
    | .word =>
      let minX := min selection.anchor.x selection.focus.x
      let maxX := max selection.anchor.x selection.focus.x
      let maxX := cellEndX env b maxX point.y
      minX ≤ point.x && point.x ≤ maxX
    | .linear =>
      let (start, stop) := orderedPoints selection.anchor selection.focus
      let endX := cellEndX env b stop.x stop.y
      if start.y = stop.y then start.x ≤ point.x && point.x ≤ endX
      else if point.y = start.y then start.x ≤ point.x
      else if point.y = stop.y then point.x ≤ endX
      else true

/-- The loop of `selected_text` over a row: the symbols that it appends. -/
def rowLoop (y maxX : ℕ) : ℕ → ℕ → Option (List Symbol)
  | 0, _ => none
  | fuel + 1, x =>
    if x ≤ maxX then do
      let symbol ← b.cell x y
      let next := saturatingAdd x (cellWidth env symbol)
      if next = 65535 ∧ next ≤ maxX then some [symbol]
      else (rowLoop y maxX fuel next).map (symbol :: ·)
    else some []

/-- `start` and `end` in `selected_text`. -/
def selectionEnds (selection : Selection) : Option (Point × Point) := do
  let right ← (checkedAdd b.area.x b.area.width).bind (checkedSub · 1)
  let bottom ← (checkedAdd b.area.y b.area.height).bind (checkedSub · 1)
  some <|
    if selection.kind = .all then (⟨b.area.x, b.area.y⟩, ⟨right, bottom⟩)
    else orderedPoints selection.anchor selection.focus

/-- `min_x` and `max_x` in `selected_text`, for the row `y`. -/
def rowLimits (kind : SelectionKind) (start stop : Point) (y : ℕ) : ℕ × ℕ :=
  let right := b.area.x + b.area.width - 1
  match kind with
  | .all | .lines => (b.area.x, right)
  | .word => (start.x, stop.x)
  | .linear =>
    if start.y = stop.y then (start.x, stop.x)
    else if y = start.y then (start.x, right)
    else if y = stop.y then (b.area.x, stop.x)
    else (b.area.x, right)

/-- The symbols that `selected_text` appends, row by row, before it trims the rows. -/
def selectedSymbols (selection : Selection) : Option (List (List Symbol)) := do
  let (start, stop) ← selectionEnds b selection
  (List.range' start.y (stop.y + 1 - start.y)).mapM fun y =>
    let (minX, maxX) := rowLimits b selection.kind start stop y
    rowLoop env b y maxX (maxX + 2) minX

def selectedText (selection : Selection) : Option (List Char) := do
  let rows ← selectedSymbols env b selection
  let rows := rows.map fun row => row.flatten.rdropWhile Sessions.isWhitespace
  let rows := if selection.kind = .all then rows.rdropWhile List.isEmpty else rows
  some (['\r', '\n'].intercalate rows)

/-- The selection that `select_all` makes of a frame. -/
def selectAll : Option Selection := do
  let focusX ← (checkedAdd b.area.x b.area.width).bind (checkedSub · 1)
  let focusY ← (checkedAdd b.area.y b.area.height).bind (checkedSub · 1)
  let selection : Selection := ⟨⟨b.area.x, b.area.y⟩, ⟨focusX, focusY⟩, .all⟩
  if (selectedText env b selection).any fun text => !text.isEmpty then some selection else none

/-! ### Words -/

inductive CellClass
  | whitespace
  | word
  | punctuation
deriving DecidableEq

def symbolClass (symbol : Symbol) : CellClass :=
  match symbol.head? with
  | none => .whitespace
  | some character =>
    if Sessions.isWhitespace character then .whitespace
    else if env.isAlphanumeric character || character == '_' then .word
    else .punctuation

def cellClass (x y : ℕ) : CellClass :=
  symbolClass env ((b.cell (normalizeWideCellX env b x y) y).getD [' '])

def previousCellX (x y : ℕ) : Option ℕ :=
  if b.area.x < x then some (normalizeWideCellX env b (x - 1) y) else none

def nextCellX (x y : ℕ) : Option ℕ := do
  let symbol ← b.cell x y
  let next ← checkedAdd x (cellWidth env symbol)
  let right ← checkedAdd b.area.x b.area.width
  if next < right then some next else none

/-- The first loop of `word_bounds`. -/
def startLoop (y : ℕ) (cls : CellClass) : ℕ → ℕ → Option ℕ
  | 0, _ => none
  | fuel + 1, start =>
    match previousCellX env b start y with
    | none => some start
    | some previous =>
      if cellClass env b previous y ≠ cls then some start else startLoop y cls fuel previous

/-- The second loop of `word_bounds`. -/
def endLoop (y : ℕ) (cls : CellClass) : ℕ → ℕ → Option ℕ
  | 0, _ => none
  | fuel + 1, stop =>
    match nextCellX env b stop y with
    | none => some stop
    | some next =>
      if cellClass env b next y ≠ cls then some stop else endLoop y cls fuel next

def wordBounds (point : Point) : Option (Point × Point) := do
  let cls := cellClass env b point.x point.y
  let start ← startLoop env b point.y cls (point.x + 1) point.x
  let stop ← endLoop env b point.y cls (b.area.width + 1) point.x
  some (⟨start, point.y⟩, ⟨stop, point.y⟩)

end IntelligentTerminal.TextSelection
