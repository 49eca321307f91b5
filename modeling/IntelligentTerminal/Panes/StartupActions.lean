import IntelligentTerminal.Panes.Pane

/-!
# Startup actions of a layout

A layout is saved as actions that make it again: splits of the focused pane, and moves of the focus
to the previous and to the next pane. `BuildStartupActions` walks the tree. An agent pane is left
out of the walk and split off the whole tree at the end.

The actions are replayed on a tab. A split gives the new pane the next id and the focus. An agent
pane is attached to the root of the tab and does not take the focus.

Only a layout that is saved is built here (`BuildStartupKind::Persist`).

Source: `src/cascadia/TerminalApp/Pane.cpp`, lines 97-319, `src/cascadia/TerminalApp/Tab.cpp`,
lines 862-1010 and 1219-1241, and `src/cascadia/TerminalApp/AppActionHandlers.cpp`, lines 340-360.
-/

namespace IntelligentTerminal.Panes

open SplitTree

variable {F : Type*}

/-! ### Building the actions -/

/-- `enum class FocusDirection`, as far as a layout uses it. -/
inductive FocusDirection
  | previousInOrder
  | nextInOrder
deriving DecidableEq

/-- An `ActionAndArgs` of a layout. -/
inductive StartupAction (F : Type*)
  | splitPane (splitDirection : SplitDirection) (splitSize : F)
      (contentArgs : Option NewContentArgs)
  | moveFocus (direction : FocusDirection)
deriving DecidableEq

/-- Whether the action is a split. -/
def StartupAction.isSplitPane : StartupAction F → Bool
  | splitPane _ _ _ => true
  | moveFocus _ => false

/-- `Pane::BuildStartupState`. -/
structure BuildStartupState (F : Type*) where
  args : List (StartupAction F)
  firstPane : LeafPane
  focusedPaneId : Option ℕ
  panesCreated : ℕ

namespace Pane

variable [One F] [Sub F]

/-- The agent pane that a child is. -/
def agentLeaf : Pane F → Option LeafPane
  | leaf p => if p.isAgentPane then some p else none
  | SplitTree.split _ _ _ => none

/-- The split that makes the second child. -/
def buildSplitPane (p : ParentPane F) (newPane : LeafPane) : StartupAction F :=
  .splitPane (if p.splitState = .horizontal then .down else .right) (1 - p.desiredSplitPosition)
    newPane.getTerminalArgsForPane

/-- The split that makes the agent pane again. -/
def buildAgentSplitPane (p : ParentPane F) (agentPane : LeafPane) (leadingEdge : Bool) :
    StartupAction F :=
  let horizontal := p.splitState = .horizontal
  .splitPane
    (if leadingEdge then (if horizontal then .up else .left)
      else if horizontal then .down else .right)
    (if leadingEdge then p.desiredSplitPosition else 1 - p.desiredSplitPosition)
    agentPane.getTerminalArgsForPane

/-- The state of the sibling of an agent pane, with the agent pane. -/
def addAgentPane (persistAgentPanes : Bool) (p : ParentPane F) (agentPane : LeafPane)
    (leadingEdge : Bool) (state : BuildStartupState F) : BuildStartupState F :=
  if persistAgentPanes then { state with
    args := state.args ++ [buildAgentSplitPane p agentPane leadingEdge]
    panesCreated := state.panesCreated + 1 }
  else state

def buildStartupActions (persistAgentPanes : Bool) : Pane F → ℕ → ℕ → BuildStartupState F
  | leaf p, currentId, _ => {
      args := []
      firstPane := p
      focusedPaneId := if p.lastActive then some currentId else none
      panesCreated := 0 }
  | SplitTree.split p first second, currentId, nextId =>
    match agentLeaf first, agentLeaf second with
    | some agentPane, none => addAgentPane persistAgentPanes p agentPane true
        (buildStartupActions persistAgentPanes second currentId nextId)
    | none, some agentPane => addAgentPane persistAgentPanes p agentPane false
        (buildStartupActions persistAgentPanes first currentId nextId)
    | _, _ =>
      match first, second with
      | leaf firstChild, leaf secondChild => {
          args := [buildSplitPane p secondChild]
          firstPane := firstChild
          focusedPaneId :=
            if firstChild.lastActive then some currentId
            else if secondChild.lastActive then some nextId
            else none
          panesCreated := 1 }
      | _, _ =>
        let firstState := buildStartupActions persistAgentPanes first currentId (nextId + 1)
        let secondState := buildStartupActions persistAgentPanes second nextId
          (nextId + firstState.panesCreated + 1)
        { args := buildSplitPane p secondState.firstPane ::
            (if firstState.args = [] then []
              else .moveFocus .previousInOrder :: firstState.args ++ [.moveFocus .nextInOrder]) ++
            secondState.args
          firstPane := firstState.firstPane
          focusedPaneId := firstState.focusedPaneId.or secondState.focusedPaneId
          panesCreated := firstState.panesCreated + secondState.panesCreated + 1 }

end Pane

/-! ### Replaying them -/

/-- The content that is made from what a layout says of it, with a connection of its own. -/
def PaneContent.ofArgs (args : NewContentArgs) : PaneContent :=
  match args.type with
  | .terminal => .terminal args.settings none
  | .agent | .agentStashed => .agent args.settings none
  | .other name => .other name args.settings

/-- The pane that is made from what a layout says of it. A stashed agent pane is hidden. -/
def LeafPane.ofArgs (args : Option NewContentArgs) : LeafPane :=
  { LeafPane.ofContent (args.map PaneContent.ofArgs) with
    hidden := args.any fun args => args.type = .agentStashed }

/-- `class Tab`: the path is that of the active pane. -/
structure Tab (F : Type*) where
  rootPane : Pane F
  activePane : List Bool
  nextPaneId : ℕ

/-- `Pane::Id`, of a leaf. -/
def Pane.setId (id : Option ℕ) : Pane F → Pane F
  | leaf p => leaf { p with id }
  | SplitTree.split p first second => SplitTree.split p first second

/-- `Pane::Id`. -/
def Pane.id? : Pane F → Option ℕ
  | leaf p => p.id
  | SplitTree.split _ _ _ => none

namespace Tab

variable [One F] [Sub F]

/-- A tab that shows one pane. -/
def new (firstPane : LeafPane) : Tab F where
  rootPane := Pane.setActive (leaf { firstPane with id := some 0 }) []
  activePane := []
  nextPaneId := 1

/-- `Tab::SplitPane`, of a pane that is a leaf. There is no result where it throws. -/
def splitPane (wider : Bool) (splitType : SplitDirection) (splitSize : F) (pane : LeafPane)
    (tab : Tab F) : Option (Tab F) :=
  let newPane : Pane F := leaf { pane with id := some tab.nextPaneId }
  let activePaneId := (tab.rootPane.subtree tab.activePane).bind Pane.id?
  (Pane.split wider splitType splitSize newPane tab.rootPane).bind fun (root, path) =>
    let original := path.dropLast ++ [Pane.isLeading splitType]
    (root.subtree original).map fun originalPane => {
      rootPane := Pane.setActive (root.set original (Pane.setId activePaneId originalPane)) path
      activePane := path
      nextPaneId := tab.nextPaneId + 1 }

/-- `Tab::SplitPaneAtRoot`, of a pane that is a leaf. The focus stays where it is. -/
def splitPaneAtRoot (wider : Bool) (splitType : SplitDirection) (splitSize : F) (pane : LeafPane)
    (tab : Tab F) : Tab F :=
  let newPane : Pane F := leaf { pane with id := some tab.nextPaneId }
  let root := Pane.attachPane wider newPane splitType splitSize tab.rootPane
  let originalTree := [Pane.isLeading splitType]
  let activePane := Pane.isLeading splitType :: tab.activePane
  { rootPane := Pane.setActive (match root.subtree originalTree with
      | none => root
      | some tree => root.set originalTree (Pane.setId (Pane.id? tab.rootPane) tree)) activePane
    activePane
    nextPaneId := tab.nextPaneId + 1 }

def navigateFocus (direction : FocusDirection) (tab : Tab F) : Tab F :=
  let neighbor := match direction with
    | .previousInOrder => Pane.previousPane tab.rootPane tab.activePane
    | .nextInOrder => Pane.nextPane tab.rootPane tab.activePane
  match neighbor with
  | none => tab
  | some newFocus => { tab with
      rootPane := Pane.setActive tab.rootPane newFocus
      activePane := newFocus }

/-- An action of a layout is carried out. -/
def exec (wider : Bool) (tab : Tab F) : StartupAction F → Option (Tab F)
  | .splitPane splitDirection splitSize contentArgs =>
    if contentArgs.any (·.type.isPaneType) then
      some (tab.splitPaneAtRoot wider splitDirection splitSize (LeafPane.ofArgs contentArgs))
    else tab.splitPane wider splitDirection splitSize (LeafPane.ofArgs contentArgs)
  | .moveFocus direction => some (tab.navigateFocus direction)

end Tab

end IntelligentTerminal.Panes
