import IntelligentTerminal.Data.Checked
import IntelligentTerminal.Sessions.Event

/-!
# Recommendations

A recommendation set holds the choices of a card. Before it is shown it is validated, and choices
that would type into the helper's own pane are dropped. When the user picks a choice, its actions
are bound to the pane that the host resolved for the turn.

The text of an `anyhow` error is its message.

Source: `tools/wta/src/coordinator.rs`, lines 38-104, 308-319, 381-416, 705-818 and 1834-1839;
`tools/wta/src/app.rs`, lines 7810-7815 and 7860-7920.
-/

namespace IntelligentTerminal.Proposals

/-! ### Data -/

inductive OpenTarget
  | tab
  | panel
deriving DecidableEq

/-- `enum RecommendedAction`. `openShell` is `Open`. -/
inductive RecommendedAction
  | send (parent : String) (input : String)
  | openAndSend (target : OpenTarget) (parent : Option String) (input : String)
      (agent : Option String) (cwd title direction profile : Option String)
  | openShell (target : OpenTarget) (parent : Option String)
      (cwd title direction profile : Option String)
deriving DecidableEq

structure RecommendationChoice where
  choice : ℕ
  title : String
  rationale : String
  actions : List RecommendedAction
deriving DecidableEq

structure RecommendationSet where
  recommendedChoice : Option ℕ
  choices : List RecommendationChoice
deriving DecidableEq

def recommendedChoiceIndex (set : RecommendationSet) : ℕ :=
  (set.recommendedChoice.bind fun choiceNo =>
    set.choices.findIdx? fun choice => choice.choice = choiceNo).getD 0

/-- `App::is_send_choice`. -/
def RecommendationChoice.isSendChoice (choice : RecommendationChoice) : Bool :=
  choice.actions.any fun
    | .send _ _ => true
    | _ => false

/-! ### Text -/

/-- The text of one action. -/
def formatAction (commandLabel : Option String) : RecommendedAction → String
  | .send _ input =>
    match commandLabel with
    | some label => s!"{label}: {input}"
    | none => input
  | .openAndSend target _ input agent _ _ _ _ =>
    let place := match target with
      | .tab => "new tab"
      | .panel => "new panel"
    let label := agent.getD "agent"
    s!"Open {place} and run {label}: {input}"
  | .openShell target _ cwd title _ _ =>
    let kind := match target with
      | .tab => "tab"
      | .panel => "panel"
    let title := title.filter (· ≠ "")
    let cwd := cwd.filter (· ≠ "")
    match title, cwd with
    | some t, some c => s!"Open new {kind} ({t}) in {c}"
    | some t, none => s!"Open new {kind} ({t})"
    | none, some c => s!"Open new {kind} in {c}"
    | none, none => s!"Open new empty {kind}"

/-- `format_recommendation_choice_for_chat`. Every action has a text, so that of the first one is
taken. -/
def formatRecommendationChoiceForChat (choice : RecommendationChoice)
    (commandLabel : Option String) : String :=
  match choice.actions with
  | [] => choice.title
  | action :: _ => formatAction commandLabel action

def formatRecommendationsForChat (set : RecommendationSet) (actionStatus : Option String) :
    String :=
  "\n".intercalate (set.choices.map fun choice =>
    let action := formatRecommendationChoiceForChat choice none
    match actionStatus with
    | some status => s!"{action} {status}"
    | none => action)

/-! ### Validation -/

def ensureNonEmpty (field value : String) : Except String Unit :=
  if Sessions.trim value = "" then throw s!"field '{field}' must not be empty" else pure ()

def validateDirection : Option String → Except String Unit
  | none => pure ()
  | some value =>
    if value = "" then throw "field 'direction' must not be empty"
    else if value ∈ ["right", "left", "up", "down", "auto", "automatic"] then pure ()
    else
      let other := value.quote
      throw s!"invalid direction {other}; expected right|left|up|down|auto"

/-- `ensure_non_empty` of a field that may be absent. -/
def ensureNonEmptyIfSome (field : String) : Option String → Except String Unit
  | none => pure ()
  | some value => ensureNonEmpty field value

def validateAction : RecommendedAction → Except String Unit
  | .send _ input => ensureNonEmpty "input" input
  | .openAndSend _ parent input agent _ _ direction _ => do
    ensureNonEmpty "input" input
    ensureNonEmptyIfSome "parent" parent
    ensureNonEmptyIfSome "agent" agent
    validateDirection direction
  | .openShell _ parent _ _ direction _ => do
    ensureNonEmptyIfSome "parent" parent
    validateDirection direction

/-- The loop of `validate_recommendation_set`. -/
def validateChoices (seen : List ℕ) : List RecommendationChoice → Except String Unit
  | [] => pure ()
  | choice :: rest => do
    let number := choice.choice
    if ¬(1 ≤ number ∧ number ≤ 3) then throw "choice numbers must be 1..=3"
    if number ∈ seen then throw s!"duplicate choice number {number}"
    ensureNonEmpty "title" choice.title
    if choice.actions = [] then throw s!"choice {number} has no actions"
    choice.actions.forM validateAction
    validateChoices (number :: seen) rest

def validateRecommendationSet (set : RecommendationSet) : Except String Unit :=
  let count := set.choices.length
  if ¬(1 ≤ count ∧ count ≤ 3) then throw s!"expected 1 to 3 choices, got {count}"
  else validateChoices [] set.choices

/-- Whether an action types into the pane. -/
def RecommendedAction.sendsTo (pane : String) : RecommendedAction → Bool
  | .send parent _ => parent = pane
  | _ => false

def validateRecommendationSetForCoordinatorTarget (set : RecommendationSet)
    (coordinatorTarget : Option String) : Except String RecommendationSet :=
  match (coordinatorTarget.map Sessions.trim).filter (· ≠ "") with
  | none => pure set
  | some target =>
    let choices := set.choices.filter fun choice => !choice.actions.any (·.sendsTo target)
    if choices = [] then throw s!"all choices target the current coordinator pane {target}"
    else pure {
      recommendedChoice := set.recommendedChoice.filter fun number =>
        choices.any fun choice => choice.choice = number
      choices }

/-! ### Binding -/

/-- The pane that the host resolved, if there is one. -/
def hostTarget (targetPaneId : Option String) : Except String String :=
  match (targetPaneId.map Sessions.trim).filter (· ≠ "") with
  | some target => pure target
  | none => throw "the host could not resolve a target pane for this recommendation"

/-- One round of the loop of `bind_choice_target`. -/
def bindActionTarget (targetPaneId : Option String) :
    RecommendedAction → Except String RecommendedAction
  | .send _ input => do
    let target ← hostTarget targetPaneId
    return .send target input
  | .openAndSend .panel _ input agent cwd title direction profile => do
    let target ← hostTarget targetPaneId
    return .openAndSend .panel (some target) input agent cwd title direction profile
  | .openShell .panel _ cwd title direction profile => do
    let target ← hostTarget targetPaneId
    return .openShell .panel (some target) cwd title direction profile
  | .openAndSend .tab _ input agent cwd title direction profile =>
    return .openAndSend .tab none input agent cwd title direction profile
  | .openShell .tab _ cwd title direction profile =>
    return .openShell .tab none cwd title direction profile

/-- `bind_choice_target`. A choice that is not bound is not executed, so what the loop did to it
before it failed is left out. -/
def bindChoiceTarget (choice : RecommendationChoice) (targetPaneId : Option String) :
    Except String RecommendationChoice := do
  let actions ← choice.actions.mapM (bindActionTarget targetPaneId)
  return { choice with actions }

end IntelligentTerminal.Proposals
