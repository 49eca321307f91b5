import IntelligentTerminal.Data.SplitTree
import IntelligentTerminal.Data.Table

/-!
# The panes of a tab

A tab shows a tree of panes. A leaf shows a content, a parent splits its area between two children.
A pane object lives on when it is split: the content moves to a new leaf and the object becomes the
parent of it. When a child is closed the parent takes over what the other child is.

A pane of the tree is named by its path, so two pointers are equal when the paths are. What a size
is counted in is left open: `one - size` is all that is done with it here.

A parent that loses its content raises `Closed`, and the handler of its own parent closes it, at once
or when an animation has ended. The functions here return that `Closed` was raised.

Left out are the visual tree, borders, zoom, and the events that a tab follows the focus by.

Source: `src/cascadia/TerminalApp/Pane.cpp`, lines 580-760, 1040-1060, 1280-1350, 1406-1792,
1970-2030, 2498-2523, 2555-2695, 2770-2900 and 2960-3050, and
`src/cascadia/TerminalApp/Pane.h`, lines 180-310.
-/

namespace IntelligentTerminal.Panes

/-! ### Contents -/

/-- The session of a terminal's connection, a `winrt::guid`. -/
abbrev SessionId := BitVec 128

/-- The type of what a pane shows, as a layout names it. -/
inductive ContentType
  | terminal
  /-- `AgentPaneRestore::PaneType`. -/
  | agent
  /-- `AgentPaneRestore::StashedPaneType`. -/
  | agentStashed
  | other (name : String)
deriving DecidableEq

/-- `AgentPaneRestore::IsPaneType`. -/
def ContentType.isPaneType : ContentType → Bool
  | agent | agentStashed => true
  | terminal | other _ => false

/-- `INewContentArgs`: what a pane is made from again. -/
structure NewContentArgs where
  type : ContentType
  settings : String
deriving DecidableEq

/-- `IPaneContent`: a terminal, an agent pane that wraps one, or something else. The session is that
of the terminal's connection, if there is one. -/
inductive PaneContent
  | terminal (settings : String) (sessionId : Option SessionId)
  | agent (settings : String) (sessionId : Option SessionId)
  | other (name settings : String)
deriving DecidableEq

namespace PaneContent

def isAgent : PaneContent → Bool
  | agent _ _ => true
  | terminal _ _ | other _ _ => false

/-- The session of the terminal that `Pane::_getTerminalContent` finds. -/
def sessionId : PaneContent → Option SessionId
  | terminal _ sessionId | agent _ sessionId => sessionId
  | other _ _ => none

/-- `IPaneContent::GetNewTerminalArgs`, for a layout that is saved. -/
def getNewTerminalArgs : PaneContent → NewContentArgs
  | terminal settings _ => { type := .terminal, settings }
  | agent settings _ => { type := .agent, settings }
  | other name settings => { type := .other name, settings }

end PaneContent

/-! ### Panes -/

/-- `enum class SplitState`, of a parent. -/
inductive SplitState
  | horizontal
  | vertical
deriving DecidableEq

inductive SplitDirection
  | automatic
  | up
  | right
  | down
  | left
deriving DecidableEq

/-- What a pane object has whether it is a leaf or a parent. -/
structure PaneBase where
  lastActive : Bool := false
  hidden : Bool := false
  broadcastEnabled : Bool := false
  sessionVariables : Table String String := ∅
deriving DecidableEq

/-- A `Pane` that is a leaf. The flag of an agent pane is that of the content. -/
structure LeafPane extends PaneBase where
  id : Option ℕ := none
  contentId : Option ℕ := none
  content : Option PaneContent
  isAgentPane : Bool
  agent : ∀ c, content = some c → isAgentPane = c.isAgent

structure ParentPane (F : Type*) extends PaneBase where
  splitState : SplitState
  desiredSplitPosition : F
deriving DecidableEq

/-- `class Pane`, with what is below it. -/
abbrev Pane (F : Type*) := SplitTree (ParentPane F) LeafPane

namespace LeafPane

/-- The constructor of a leaf, without its content id. -/
def ofContent (content : Option PaneContent) : LeafPane where
  content := content
  isAgentPane := content.any PaneContent.isAgent
  agent := by
    rintro c rfl
    rfl

/-- `Pane::_takePaneContent`: the pane that is left. -/
def withoutContent (p : LeafPane) : LeafPane :=
  { p with content := none, contentId := none, agent := nofun }

/-- `Pane::GetTerminalArgsForPane`, for a layout that is saved. -/
def getTerminalArgsForPane (p : LeafPane) : Option NewContentArgs :=
  p.content.map fun content =>
    if p.isAgentPane && p.hidden then { content.getNewTerminalArgs with type := .agentStashed }
    else content.getNewTerminalArgs

/-- Whether a leaf shows the terminal of a session. -/
def hasSession (p : LeafPane) (sessionId : SessionId) : Bool :=
  p.content.any fun content => content.sessionId = some sessionId

end LeafPane

namespace Pane

open SplitTree

variable {F : Type*} {path : List Bool}

/-- What a pane object has whether it is a leaf or a parent. -/
def base : Pane F → PaneBase
  | leaf p => p.toPaneBase
  | SplitTree.split p _ _ => p.toPaneBase

/-- Changes what a pane object has whether it is a leaf or a parent. -/
def modifyBase (f : PaneBase → PaneBase) : Pane F → Pane F
  | leaf p => leaf { p with toPaneBase := f p.toPaneBase }
  | SplitTree.split p first second =>
    SplitTree.split { p with toPaneBase := f p.toPaneBase } first second

/-- Whether the pane is a leaf that shows an agent. -/
def isAgentLeaf : Pane F → Bool
  | leaf p => p.isAgentPane
  | SplitTree.split _ _ _ => false

def hasFocusedChild : Pane F → Bool
  | leaf p => p.lastActive
  | SplitTree.split p first second =>
    p.lastActive || hasFocusedChild first || hasFocusedChild second

def containsAgentPane : Pane F → Bool
  | leaf p => p.isAgentPane
  | SplitTree.split _ first second => containsAgentPane first || containsAgentPane second

/-! ### Splitting -/

/-- `Pane::_convertAutomaticOrDirectionalSplitState`. `wider` is whether the pane is at least as
wide as high. -/
def convertSplitState (wider : Bool) : SplitDirection → SplitState
  | .automatic => if wider then .vertical else .horizontal
  | .up | .down => .horizontal
  | .left | .right => .vertical

/-- Whether a new pane on this side becomes the first child. -/
def isLeading : SplitDirection → Bool
  | .up | .left => true
  | .automatic | .right | .down => false

/-- The pane that `Pane::_Split` makes of what the object was. -/
def splitOff : Pane F → Pane F
  | leaf p => leaf { LeafPane.ofContent p.content with
      broadcastEnabled := p.broadcastEnabled, contentId := p.contentId }
  | SplitTree.split p first second => SplitTree.split {
      splitState := p.splitState, desiredSplitPosition := p.desiredSplitPosition } first second

/-- `Pane::_Split`. The new pane is at the path `[!isLeading direction]`, and what the object was is
the other child. -/
def splitPane [One F] [Sub F] (wider : Bool) (direction : SplitDirection) (splitSize : F)
    (newPane pane : Pane F) : Pane F :=
  let parent : ParentPane F := {
    toPaneBase := { base pane with lastActive := false }
    splitState := convertSplitState wider direction
    desiredSplitPosition := 1 - splitSize }
  if isLeading direction then SplitTree.split parent newPane (splitOff pane)
  else SplitTree.split parent (splitOff pane) newPane

/-- `Pane::Split`, and the path of the new pane. -/
def split [One F] [Sub F] (wider : Bool) (direction : SplitDirection) (splitSize : F)
    (newPane : Pane F) : Pane F → Option (Pane F × List Bool)
  | leaf p =>
    if p.isAgentPane || !p.lastActive then none
    else some (splitPane wider direction splitSize newPane (leaf p), [!isLeading direction])
  | SplitTree.split p first second =>
    if p.lastActive then
      some (splitPane wider direction splitSize newPane (SplitTree.split p first second),
        [!isLeading direction])
    else if hasFocusedChild first then
      (split wider direction splitSize newPane first).map fun (t, path) =>
        (SplitTree.split p t second, false :: path)
    else if hasFocusedChild second then
      (split wider direction splitSize newPane second).map fun (t, path) =>
        (SplitTree.split p first t, true :: path)
    else none

theorem split_eq_some [One F] [Sub F] {wider : Bool} {direction : SplitDirection} {splitSize : F}
    {newPane t t' : Pane F}
    (h : split wider direction splitSize newPane t = some (t', path)) :
    ∃ q pane, t.subtree q = some pane ∧ isAgentLeaf pane = false ∧
      path = q ++ [!isLeading direction] ∧
      t' = t.set q (splitPane wider direction splitSize newPane pane) := by
  induction t generalizing t' path with
  | leaf p =>
    rw [split] at h
    split_ifs at h with hguard
    cases h
    rw [Bool.or_eq_true, not_or, Bool.not_eq_true] at hguard
    exact ⟨[], leaf p, rfl, hguard.1, rfl, rfl⟩
  | split p first second ih ih' =>
    rw [split] at h
    split_ifs at h with hactive hfirst hsecond
    · cases h
      exact ⟨[], SplitTree.split p first second, rfl, rfl, rfl, rfl⟩
    · obtain ⟨⟨u, path'⟩, hu, heq⟩ := Option.map_eq_some_iff.mp h
      cases heq
      obtain ⟨q, pane, hsub, hagent, rfl, rfl⟩ := ih hu
      exact ⟨false :: q, pane, hsub, hagent, rfl, rfl⟩
    · obtain ⟨⟨u, path'⟩, hu, heq⟩ := Option.map_eq_some_iff.mp h
      cases heq
      obtain ⟨q, pane, hsub, hagent, rfl, rfl⟩ := ih' hu
      exact ⟨true :: q, pane, hsub, hagent, rfl, rfl⟩

def attachPane [One F] [Sub F] (wider : Bool) (newPane : Pane F) (direction : SplitDirection)
    (splitSize : F) (pane : Pane F) : Pane F :=
  splitPane wider direction (if isLeading direction then 1 - splitSize else splitSize) newPane pane

/-! ### Closing -/

/-- `Pane::_CloseChild`, and whether `Closed` is raised. -/
def closeChild (closeFirst : Bool) : Pane F → Pane F × Bool
  | leaf p => (leaf p, false)
  | SplitTree.split p first second =>
    match child closeFirst first second with
    | leaf remaining =>
      if remaining.isAgentPane then
        -- an agent pane does not outlive its sibling
        (leaf { LeafPane.ofContent none with toPaneBase := p.toPaneBase }, true)
      else
        match remaining.content with
        | none =>
          -- the sibling was closed as well
          (if closeFirst then SplitTree.split p first (leaf remaining.withoutContent)
            else SplitTree.split p (leaf remaining.withoutContent) second, true)
        | some content =>
          (leaf { LeafPane.ofContent (some content) with
            toPaneBase := { p.toPaneBase with
              lastActive := p.lastActive || (base first).lastActive || (base second).lastActive }
            id := remaining.id
            contentId := remaining.contentId }, false)
    | SplitTree.split remaining first second =>
      (SplitTree.split { p with splitState := remaining.splitState } first second, false)

/-- `Pane::DetachPane`, of the pane at a path: the tree, the pane, and whether its parent raised
`Closed`. -/
def detachPane : Pane F → List Bool → Option (Pane F × Pane F × Bool)
  | leaf _, _ => none
  | SplitTree.split _ _ _, [] => none
  | SplitTree.split p first second, [side] =>
    let (t, raised) := closeChild (!side) (SplitTree.split p first second)
    some (t, child side first second, raised)
  | SplitTree.split p first second, false :: path =>
    (detachPane first path).map fun (t, detached, raised) =>
      (SplitTree.split p t second, detached, raised)
  | SplitTree.split p first second, true :: path =>
    (detachPane second path).map fun (t, detached, raised) =>
      (SplitTree.split p first t, detached, raised)

theorem detachPane_eq {t : Pane F} {q : List Bool} {p : ParentPane F} {first second : Pane F}
    (h : t.subtree q = some (SplitTree.split p first second)) (side : Bool) :
    detachPane t (q ++ [side]) =
      some (t.set q (closeChild (!side) (SplitTree.split p first second)).1,
        child side first second, (closeChild (!side) (SplitTree.split p first second)).2) := by
  induction q generalizing t with
  | nil =>
    rw [subtree_nil, Option.some.injEq] at h
    rw [h, set_nil]
    rfl
  | cons side' q ih =>
    cases t with
    | leaf a => cases h
    | split d first' second' =>
      obtain ⟨side'', q', hq⟩ : ∃ side'' q', q ++ [side] = side'' :: q' := by
        cases q with
        | nil => exact ⟨side, [], rfl⟩
        | cons side'' q' => exact ⟨side'', q' ++ [side], rfl⟩
      cases side' with
      | false =>
        have hrest := ih (t := first') h
        rw [hq] at hrest
        rw [List.cons_append, hq, detachPane, hrest]
        · rfl
        · exact List.cons_ne_nil _ _
      | true =>
        have hrest := ih (t := second') h
        rw [hq] at hrest
        rw [List.cons_append, hq, detachPane, hrest]
        · rfl
        · exact List.cons_ne_nil _ _

theorem exists_of_detachPane {t : Pane F} {x : Pane F × Pane F × Bool}
    (h : detachPane t path = some x) : ∃ q side p first second,
      path = q ++ [side] ∧ t.subtree q = some (SplitTree.split p first second) := by
  induction t generalizing path x with
  | leaf p => cases h
  | split p first second ih ih' =>
    cases path with
    | nil => cases h
    | cons side path =>
      cases path with
      | nil => exact ⟨[], side, p, first, second, rfl, rfl⟩
      | cons side' path =>
        cases side with
        | false =>
          obtain ⟨y, hy, -⟩ := Option.map_eq_some_iff.mp h
          obtain ⟨q, side, p', first', second', hpath, hsub⟩ := ih hy
          exact ⟨false :: q, side, p', first', second', by rw [hpath, List.cons_append], hsub⟩
        | true =>
          obtain ⟨y, hy, -⟩ := Option.map_eq_some_iff.mp h
          obtain ⟨q, side, p', first', second', hpath, hsub⟩ := ih' hy
          exact ⟨true :: q, side, p', first', second', by rw [hpath, List.cons_append], hsub⟩

/-- The part of `Pane::Close` before `Closed` is raised, and of `Pane::Shutdown`. -/
def closeContent : Pane F → Pane F
  | leaf p => leaf p.withoutContent
  | SplitTree.split p first second => SplitTree.split p first second

/-- `Pane::Close` of the leaf at a path, and the handler of its parent: the tree, and whether the
parent raised `Closed`. -/
def closePane (pane : Pane F) (path : List Bool) : Option (Pane F × Bool) :=
  (pane.subtree path).bind fun closed =>
    (detachPane (pane.set path (closeContent closed)) path).map fun (t, _, raised) => (t, raised)

/-! ### Moving panes -/

/-- `Pane::SwapPanes`, of the panes at two paths, and whether they are swapped. -/
def swapPanes (pane : Pane F) (first second : List Bool) : Pane F × Bool :=
  match pane.subtree first, pane.subtree second with
  | some firstPane, some secondPane =>
    if first <+: second ∨ second <+: first then (pane, false)
    else if containsAgentPane firstPane || containsAgentPane secondPane then (pane, false)
    else ((pane.set first secondPane).set second firstPane, true)
  | _, _ => (pane, false)

/-- `Pane::RepositionAgentPane`, and whether the layout was changed. -/
def repositionAgentPane [One F] [Sub F] (wider : Bool) (direction : SplitDirection) :
    Pane F → Pane F × Bool
  | leaf p => (leaf p, false)
  | SplitTree.split p first second =>
    let firstIsAgent := isAgentLeaf first
    if !firstIsAgent && !isAgentLeaf second then (SplitTree.split p first second, false)
    else
      let newSplitState := convertSplitState wider direction
      let agentShouldBeFirst := isLeading direction
      if p.splitState = newSplitState ∧ firstIsAgent = agentShouldBeFirst then
        (SplitTree.split p first second, false)
      else if firstIsAgent ≠ agentShouldBeFirst then
        (SplitTree.split { p with
          splitState := newSplitState
          desiredSplitPosition := 1 - p.desiredSplitPosition } second first, true)
      else (SplitTree.split { p with splitState := newSplitState } first second, true)

/-- `Pane::HidePane` and `Pane::RestorePane`, of the pane at a path. -/
def setHidden (hidden : Bool) (pane : Pane F) (path : List Bool) : Pane F :=
  match pane.subtree path with
  | none => pane
  | some hiddenPane => pane.set path (modifyBase (fun b => { b with hidden }) hiddenPane)

/-! ### Moving the focus -/

/-- The nodes that `Pane::WalkTree` visits when it skips hidden panes: their paths, and whether
they are leaves. -/
def walkTree : Pane F → List (List Bool × Bool)
  | leaf p => if p.hidden then [] else [([], true)]
  | SplitTree.split p first second =>
    if p.hidden then []
    else ([], false) :: ((walkTree first).map fun (path, isLeaf) => (false :: path, isLeaf)) ++
      (walkTree second).map fun (path, isLeaf) => (true :: path, isLeaf)

/-- The walk of `Pane::NextPane`, with its local variables. -/
def nextLoop (target : List Bool) :
    List (List Bool × Bool) → Option (List Bool) → Bool → Option (List Bool)
  | [], firstLeaf, foundTarget => if foundTarget then firstLeaf else none
  | (path, isLeaf) :: rest, firstLeaf, foundTarget =>
    -- a parent does not move to one of its children
    if foundTarget && (target <+: path && path ≠ target) then
      nextLoop target rest firstLeaf foundTarget
    else if foundTarget && isLeaf then some path
    else nextLoop target rest (firstLeaf.or (if isLeaf then some path else none))
      (foundTarget || path = target)

def nextPane (pane : Pane F) (target : List Bool) : Option (List Bool) :=
  if pane.isLeaf then none else nextLoop target (walkTree pane) none false

/-- The walk of `Pane::PreviousPane`, with its local variables. -/
def previousLoop (target : List Bool) :
    List (List Bool × Bool) → Option (List Bool) → Bool → Option (List Bool)
  | [], lastLeaf, foundTarget => if foundTarget then lastLeaf else none
  | (path, isLeaf) :: rest, lastLeaf, foundTarget =>
    if path = target ∧ lastLeaf.isSome then lastLeaf
    else previousLoop target rest (if isLeaf then some path else lastLeaf)
      (foundTarget || path = target)

def previousPane (pane : Pane F) (target : List Bool) : Option (List Bool) :=
  if pane.isLeaf then none else previousLoop target (walkTree pane) none false

def clearActive : Pane F → Pane F :=
  SplitTree.map (fun p => { p with lastActive := false }) fun p => { p with lastActive := false }

/-- The pane at a path becomes the active one: `Pane::ClearActive`, and `Pane::SetActive`. -/
def setActive (pane : Pane F) (path : List Bool) : Pane F :=
  match (clearActive pane).subtree path with
  | none => clearActive pane
  | some active =>
    (clearActive pane).set path (modifyBase (fun b => { b with lastActive := true }) active)

/-! ### Sessions -/

/-- `Pane::FindPaneBySessionId`: the path of the first leaf that shows the terminal of a session. -/
def findPaneBySessionId (pane : Pane F) (sessionId : SessionId) : Option (List Bool) :=
  if sessionId = 0 then none
  else pane.leafPaths.find? fun path => match pane.subtree path with
    | some (leaf p) => p.hasSession sessionId
    | _ => false

def getSessionVariable (p : PaneBase) (name : String) : Option String :=
  p.sessionVariables.lookup name

def setSessionVariable (p : PaneBase) (name value : String) : PaneBase :=
  { p with sessionVariables := p.sessionVariables.insert name value }

def removeSessionVariable (p : PaneBase) (name : String) : PaneBase :=
  { p with sessionVariables := p.sessionVariables.erase name }

/-- `TerminalPage::GetProtocolSessionVariable`, in one tab: whether the session is found, and the
value. -/
def getProtocolSessionVariable (pane : Pane F) (sessionId : SessionId) (name : String) :
    Option (Option String) :=
  ((findPaneBySessionId pane sessionId).bind pane.subtree).map fun found =>
    getSessionVariable (base found) name

/-- `TerminalPage::SetProtocolSessionVariable`, in one tab, and whether the session is found. -/
def setProtocolSessionVariable (pane : Pane F) (sessionId : SessionId) (name value : String) :
    Pane F × Bool :=
  match findPaneBySessionId pane sessionId with
  | none => (pane, false)
  | some path =>
    match pane.subtree path with
    | none => (pane, false)
    | some found =>
      (pane.set path (modifyBase (fun b =>
        if value = "" then removeSessionVariable b name else setSessionVariable b name value) found),
        true)

end Pane

end IntelligentTerminal.Panes
