import IntelligentTerminal.Proposals.Recommendation

/-!
# From a proposal to a recommendation set

A proposal is what the model wrote. It has no field for a pane and none for an agent: the helper
puts in the active pane of the turn and the configured delegate. So what a proposal says decides
only how many actions there are, of which kind, in a tab or in a panel, and whether they are
delegated.

Source: `tools/wta/src/agent_tools/action_proposal/schema.rs`, lines 36-55, 103-178, 284-345 and
672-902.
-/

namespace IntelligentTerminal.Proposals

/-! ### Data -/

def maxChoices : ℕ := 3

def maxActionsPerChoice : ℕ := 3

def maxTitleChars : ℕ := 200

def maxRationaleChars : ℕ := 2000

def maxInputChars : ℕ := 8000

inductive ProposalError
  | tooLarge (size : ℕ)
  | malformed (msg : String)
  | unsupportedSchemaVersion (v : ℕ)
  | policyViolation (msg : String)
deriving DecidableEq

inductive ProposalOrigin
  | terminalAgent
  | autofix
deriving DecidableEq

/-- The `Debug` text of an origin. -/
def ProposalOrigin.debug : ProposalOrigin → String
  | terminalAgent => "TerminalAgent"
  | autofix => "Autofix"

inductive ProposalOpenTargetWire
  | tab
  | panel
deriving DecidableEq

/-- `OpenTarget::from`. -/
def ProposalOpenTargetWire.into : ProposalOpenTargetWire → OpenTarget
  | tab => .tab
  | panel => .panel

/-- `enum ProposalActionWire`. `openShell` is `Open`. -/
inductive ProposalActionWire
  | send (input : String)
  | openShell (target : ProposalOpenTargetWire) (cwd title direction profile : Option String)
  | openAndSend (target : ProposalOpenTargetWire) (input : String) (delegate : Bool)
      (cwd title direction profile : Option String)
deriving DecidableEq

structure ProposalChoiceWire where
  choice : ℕ
  title : String
  rationale : String
  actions : List ProposalActionWire
deriving DecidableEq

structure ProposalWire where
  schemaVersion : ℕ
  origin : ProposalOrigin
  recommendedChoice : Option ℕ
  choices : List ProposalChoiceWire
deriving DecidableEq

/-! ### Conversion -/

def checkLen (field value : String) (maxChars : ℕ) : Except ProposalError Unit :=
  if value.length > maxChars then
    throw (.policyViolation s!"{field} exceeds {maxChars} characters")
  else pure ()

def requireActiveTarget (activeTarget : Option String) : Except ProposalError String :=
  match activeTarget.filter fun target => Sessions.trim target ≠ "" with
  | some target => pure target
  | none => throw (.policyViolation "the prompt has no active pane for this action")

def panelParent (target : ProposalOpenTargetWire) (activeTarget : Option String) :
    Except ProposalError (Option String) :=
  match target with
  | .tab => pure none
  | .panel => some <$> requireActiveTarget activeTarget

def resolveDelegate (delegate : Bool) (configuredDelegateId : Option String) :
    Except ProposalError (Option String) :=
  if !delegate then pure none
  else
    match configuredDelegateId with
    | some id => pure (some id)
    | none => throw (.policyViolation "delegation requested but no delegate agent is configured")

def convertTerminalAgentAction (configuredDelegateId trustedActiveTarget : Option String) :
    ProposalActionWire → Except ProposalError RecommendedAction
  | .send input => do
    checkLen "input" input maxInputChars
    let parent ← requireActiveTarget trustedActiveTarget
    return .send parent input
  | .openShell target cwd title direction profile => do
    let parent ← panelParent target trustedActiveTarget
    return .openShell target.into parent cwd title direction profile
  | .openAndSend target input delegate cwd title direction profile => do
    checkLen "input" input maxInputChars
    let parent ← panelParent target trustedActiveTarget
    let agent ← resolveDelegate delegate configuredDelegateId
    return .openAndSend target.into parent input agent cwd title direction profile

/-- An error of the coordinator, as an error of the proposal. -/
def asPolicyViolation {α : Type} : Except String α → Except ProposalError α
  | .ok a => .ok a
  | .error e => .error (.policyViolation e)

/-- The part of `build_recommendation_set` for a proposal of an autofix turn. -/
def buildAutofixSet (wire : ProposalWire) : Except ProposalError RecommendationSet :=
  match wire.choices with
  | [choice] =>
    match choice.actions with
    | [.send input] => do
      checkLen "title" choice.title maxTitleChars
      checkLen "rationale" choice.rationale maxRationaleChars
      checkLen "input" input maxInputChars
      let set : RecommendationSet := {
        recommendedChoice := some choice.choice
        choices := [{
          choice := choice.choice
          title := choice.title
          rationale := choice.rationale
          actions := [.send "" input] }] }
      asPolicyViolation (validateRecommendationSet set)
      return set
    | [_] => throw (.policyViolation "autofix proposals must use a single send action")
    | actions =>
      let count := actions.length
      throw (.policyViolation s!"autofix proposals must have exactly one action, got {count}")
  | choices =>
    let count := choices.length
    throw (.policyViolation s!"autofix proposals must have exactly one choice, got {count}")

/-- One round of the loop over the choices of a proposal of a terminal agent. -/
def convertChoice (configuredDelegateId trustedActiveTarget : Option String)
    (choice : ProposalChoiceWire) : Except ProposalError RecommendationChoice := do
  let number := choice.choice
  let count := choice.actions.length
  if count = 0 ∨ count > maxActionsPerChoice then
    throw (.policyViolation
      s!"choice {number} must have 1 to {maxActionsPerChoice} actions, got {count}")
  checkLen "title" choice.title maxTitleChars
  checkLen "rationale" choice.rationale maxRationaleChars
  let actions ← choice.actions.mapM
    (convertTerminalAgentAction configuredDelegateId trustedActiveTarget)
  return { choice := choice.choice, title := choice.title, rationale := choice.rationale, actions }

def buildRecommendationSet (wire : ProposalWire) (isAutofixTurn : Bool)
    (configuredDelegateId trustedActiveTarget coordinatorTarget : Option String) :
    Except ProposalError RecommendationSet := do
  let originIsAutofix := wire.origin = .autofix
  let origin := wire.origin.debug
  let count := wire.choices.length
  if decide originIsAutofix ≠ isAutofixTurn then
    throw (.policyViolation
      s!"origin {origin} does not match the current turn (is_autofix={isAutofixTurn})")
  if count = 0 ∨ count > maxChoices then
    throw (.policyViolation s!"expected 1 to {maxChoices} choices, got {count}")
  if originIsAutofix then buildAutofixSet wire
  else
    let choices ← wire.choices.mapM (convertChoice configuredDelegateId trustedActiveTarget)
    let set : RecommendationSet := { recommendedChoice := wire.recommendedChoice, choices }
    asPolicyViolation (validateRecommendationSet set)
    asPolicyViolation (validateRecommendationSetForCoordinatorTarget set coordinatorTarget)

/-! ### Where actions run -/

/-- Whether a pane is the one that an action names, if the action needs a pane. -/
def RecommendedAction.ParentIs (pane : Option String) : RecommendedAction → Prop
  | .send parent _ => pane = some parent
  | .openAndSend .panel parent _ _ _ _ _ _ | .openShell .panel parent _ _ _ _ =>
    parent = pane ∧ pane ≠ none
  | .openAndSend .tab parent _ _ _ _ _ _ | .openShell .tab parent _ _ _ _ => parent = none

/-- Whether an action names no agent but this one. -/
def RecommendedAction.AgentIs (agent : Option String) : RecommendedAction → Prop
  | .openAndSend _ _ _ named _ _ _ _ => named = none ∨ named = agent
  | _ => True

/-- The pane that the actions of a turn name: the trusted target, or the placeholder of autofix. -/
def trustedPane (isAutofixTurn : Bool) (trustedActiveTarget : Option String) : Option String :=
  if isAutofixTurn then some "" else trustedActiveTarget

/-- What a proposal decides of where an action runs. -/
inductive ActionRouting
  | send
  | openShell (target : ProposalOpenTargetWire)
  | openAndSend (target : ProposalOpenTargetWire) (delegate : Bool)
deriving DecidableEq

/-- What a proposal decides of where an action runs. -/
def ProposalActionWire.routing : ProposalActionWire → ActionRouting
  | send _ => .send
  | openShell target _ _ _ _ => .openShell target
  | openAndSend target _ delegate _ _ _ _ => .openAndSend target delegate

/-- The origin of a proposal, and of each action its kind, its placement and whether it is
delegated. -/
def ProposalWire.routing (wire : ProposalWire) : ProposalOrigin × List (List ActionRouting) :=
  (wire.origin, wire.choices.map fun choice => choice.actions.map (·.routing))

/-- Where an action runs, and with which agent. -/
inductive ActionRoute
  | send (parent : String)
  | openShell (target : OpenTarget) (parent : Option String)
  | openAndSend (target : OpenTarget) (parent agent : Option String)
deriving DecidableEq

/-- Where an action runs, and with which agent. -/
def RecommendedAction.route : RecommendedAction → ActionRoute
  | send parent _ => .send parent
  | openShell target parent _ _ _ _ => .openShell target parent
  | openAndSend target parent _ agent _ _ _ _ => .openAndSend target parent agent

/-- Where the actions of a choice run. -/
def RecommendationChoice.routes (choice : RecommendationChoice) : List ActionRoute :=
  choice.actions.map (·.route)

/-- An action without the pane that it names. -/
def RecommendedAction.withoutParent : RecommendedAction → RecommendedAction
  | send _ input => .send "" input
  | openShell target _ cwd title direction profile =>
    .openShell target none cwd title direction profile
  | openAndSend target _ input agent cwd title direction profile =>
    .openAndSend target none input agent cwd title direction profile

/-- A choice without the panes that its actions name. -/
def RecommendationChoice.withoutParents (choice : RecommendationChoice) : RecommendationChoice :=
  { choice with actions := choice.actions.map (·.withoutParent) }

/-- The pane of an action of a panel, if it is in a panel. -/
def ProposalOpenTargetWire.parent (target : ProposalOpenTargetWire) (activeTarget : Option String) :
    Option String :=
  match target with
  | tab => none
  | panel => activeTarget

/-- The route of an action, from what the proposal decides of it. -/
def ActionRouting.route (configuredDelegateId activeTarget : Option String) :
    ActionRouting → ActionRoute
  | send => .send (activeTarget.getD "")
  | openShell target => .openShell target.into (target.parent activeTarget)
  | openAndSend target delegate => .openAndSend target.into (target.parent activeTarget)
      (if delegate then configuredDelegateId else none)

/-! ### What is accepted -/

variable {configured target coordinator : Option String}
  {choices : List RecommendationChoice} {wires : List ProposalChoiceWire} {set : RecommendationSet}
  {wire : ProposalWire} {pane : String}

theorem requireActiveTarget_eq_ok (h : requireActiveTarget target = .ok pane) :
    target = some pane := by
  unfold requireActiveTarget at h
  cases hfilter : target.filter fun target => Sessions.trim target ≠ "" with
  | none =>
    rw [hfilter] at h
    cases h
  | some pane' =>
    rw [hfilter] at h
    cases h
    exact (Option.filter_eq_some_iff.mp hfilter).1

theorem panelParent_eq_ok {place : ProposalOpenTargetWire} {parent : Option String}
    (h : panelParent place target = .ok parent) :
    parent = place.parent target ∧ (place = .panel → target ≠ none) := by
  cases place with
  | tab =>
    cases h
    exact ⟨rfl, fun h => by cases h⟩
  | panel =>
    cases hactive : requireActiveTarget target with
    | error e =>
      rw [panelParent, hactive] at h
      cases h
    | ok pane =>
      rw [panelParent, hactive] at h
      cases h
      rw [requireActiveTarget_eq_ok hactive]
      exact ⟨rfl, fun _ => Option.some_ne_none pane⟩

theorem resolveDelegate_eq_ok {delegate : Bool} {agent : Option String}
    (h : resolveDelegate delegate configured = .ok agent) :
    agent = if delegate then configured else none := by
  cases delegate with
  | false =>
    cases h
    rfl
  | true =>
    cases configured with
    | none => cases h
    | some id =>
      cases h
      rfl

theorem convertTerminalAgentAction_eq_ok {wire : ProposalActionWire} {action : RecommendedAction}
    (h : convertTerminalAgentAction configured target wire = .ok action) :
    action.route = wire.routing.route configured target ∧ action.ParentIs target ∧
      action.AgentIs configured := by
  cases wire with
  | send input =>
    obtain ⟨_, _, h⟩ := bind_eq_ok.mp h
    obtain ⟨parent, hparent, h⟩ := bind_eq_ok.mp h
    cases h
    rw [requireActiveTarget_eq_ok hparent]
    exact ⟨rfl, rfl, trivial⟩
  | openShell place cwd title direction profile =>
    obtain ⟨parent, hparent, h⟩ := bind_eq_ok.mp h
    cases h
    obtain ⟨rfl, hsome⟩ := panelParent_eq_ok hparent
    refine ⟨rfl, ?_, trivial⟩
    cases place with
    | tab => rfl
    | panel => exact ⟨rfl, hsome rfl⟩
  | openAndSend place input delegate cwd title direction profile =>
    obtain ⟨_, _, h⟩ := bind_eq_ok.mp h
    obtain ⟨parent, hparent, h⟩ := bind_eq_ok.mp h
    obtain ⟨agent, hagent, h⟩ := bind_eq_ok.mp h
    cases h
    obtain ⟨rfl, hsome⟩ := panelParent_eq_ok hparent
    rw [resolveDelegate_eq_ok hagent]
    refine ⟨rfl, ?_, ?_⟩
    · cases place with
      | tab => rfl
      | panel => exact ⟨rfl, hsome rfl⟩
    · cases delegate with
      | false => exact .inl rfl
      | true => exact .inr rfl

theorem convertChoice_eq_ok {wire : ProposalChoiceWire} {choice : RecommendationChoice}
    (h : convertChoice configured target wire = .ok choice) :
    List.Forall₂ (fun wire action => convertTerminalAgentAction configured target wire = .ok action)
      wire.actions choice.actions := by
  unfold convertChoice at h
  simp only at h
  split at h
  · obtain ⟨_, hthrow, _⟩ := bind_eq_ok.mp h
    cases hthrow
  · obtain ⟨_, _, h⟩ := bind_eq_ok.mp h
    obtain ⟨_, _, h⟩ := bind_eq_ok.mp h
    obtain ⟨actions, hactions, h⟩ := bind_eq_ok.mp h
    cases h
    exact forall₂_of_mapM_eq_ok hactions

/-- Where the actions of the choices run, from what the proposal decides of them. -/
def routesOf (configuredDelegateId activeTarget coordinatorTarget : Option String) :
    ProposalOrigin × List (List ActionRouting) → List (List ActionRoute)
  | (.autofix, _) => [[.send ""]]
  | (.terminalAgent, choices) =>
    let routes := choices.map fun actions => actions.map (·.route configuredDelegateId activeTarget)
    match (coordinatorTarget.map Sessions.trim).filter (· ≠ "") with
    | none => routes
    | some pane => routes.filter fun actions => !actions.any (· = .send pane)

theorem asPolicyViolation_eq_ok {α : Type} {x : Except String α} {a : α}
    (h : asPolicyViolation x = .ok a) : x = .ok a := by
  cases x with
  | error e => cases h
  | ok b =>
    cases h
    rfl

theorem RecommendedAction.sendsTo_eq (action : RecommendedAction) (pane : String) :
    action.sendsTo pane = decide (action.route = .send pane) := by
  cases action with
  | send parent input => simp [sendsTo, route]
  | openAndSend => simp [sendsTo, route]
  | openShell => simp [sendsTo, route]

theorem validateForCoordinator_eq_ok {set set' : RecommendationSet}
    (h : validateRecommendationSetForCoordinatorTarget set coordinator = .ok set') :
    (∀ choice ∈ set'.choices, choice ∈ set.choices) ∧
      set'.choices.map (·.routes) =
        match (coordinator.map Sessions.trim).filter (· ≠ "") with
        | none => set.choices.map (·.routes)
        | some pane => (set.choices.map (·.routes)).filter fun routes =>
            !routes.any (· = .send pane) := by
  unfold validateRecommendationSetForCoordinatorTarget at h
  cases hpane : (coordinator.map Sessions.trim).filter (· ≠ "") with
  | none =>
    rw [hpane] at h
    cases h
    exact ⟨fun _ => id, rfl⟩
  | some pane =>
    rw [hpane] at h
    simp only at h
    split at h
    · cases h
    · cases h
      refine ⟨fun choice hchoice => (List.mem_filter.mp hchoice).1, ?_⟩
      simp only [List.filter_map]
      congr 1
      refine List.filter_congr fun choice _ => ?_
      simp only [Function.comp_def, RecommendationChoice.routes, List.any_map,
        RecommendedAction.sendsTo_eq]

theorem buildAutofixSet_eq_ok
    (h : buildAutofixSet wire = .ok set) :
    ∃ choice input, set.choices = [choice] ∧ choice.actions = [.send "" input] := by
  unfold buildAutofixSet at h
  split at h
  · split at h
    · obtain ⟨_, _, h⟩ := bind_eq_ok.mp h
      obtain ⟨_, _, h⟩ := bind_eq_ok.mp h
      obtain ⟨_, _, h⟩ := bind_eq_ok.mp h
      obtain ⟨_, _, h⟩ := bind_eq_ok.mp h
      cases h
      exact ⟨_, _, rfl, rfl⟩
    · cases h
    · cases h
  · cases h

theorem routes_of_converted
    (h : List.Forall₂ (fun wire choice => convertChoice configured target wire = .ok choice) wires
      choices) :
    choices.map (·.routes) =
      wires.map fun wire => (wire.actions.map (·.routing)).map (·.route configured target) := by
  refine map_eq_map_of_forall₂ h fun wire choice hconvert => ?_
  rw [RecommendationChoice.routes, List.map_map]
  exact map_eq_map_of_forall₂ (convertChoice_eq_ok hconvert) fun wire action hok =>
    (convertTerminalAgentAction_eq_ok hok).1

theorem confined_of_converted
    (h : List.Forall₂ (fun wire choice => convertChoice configured target wire = .ok choice) wires
      choices) :
    ∀ choice ∈ choices, ∀ action ∈ choice.actions,
      action.ParentIs target ∧ action.AgentIs configured := by
  intro choice hchoice action haction
  obtain ⟨wire, -, hconvert⟩ := exists_of_mem_of_forall₂ h hchoice
  obtain ⟨wireAction, -, hok⟩ :=
    exists_of_mem_of_forall₂ (convertChoice_eq_ok hconvert) haction
  exact (convertTerminalAgentAction_eq_ok hok).2

theorem buildRecommendationSet_eq_ok {isAutofix : Bool}
    (h : buildRecommendationSet wire isAutofix configured target coordinator = .ok set) :
    set.choices.map (·.routes) = routesOf configured target coordinator wire.routing ∧
      ∀ choice ∈ set.choices, ∀ action ∈ choice.actions,
        action.ParentIs (trustedPane isAutofix target) ∧ action.AgentIs configured := by
  unfold buildRecommendationSet at h
  simp only at h
  split at h
  · obtain ⟨_, hthrow, _⟩ := bind_eq_ok.mp h
    cases hthrow
  · next hturn =>
    split at h
    · obtain ⟨_, hthrow, _⟩ := bind_eq_ok.mp h
      cases hthrow
    · rw [not_not] at hturn
      cases horigin : wire.origin with
      | autofix =>
        rw [horigin, decide_eq_true rfl] at hturn
        rw [if_pos horigin] at h
        obtain ⟨choice, input, hset, hactions⟩ := buildAutofixSet_eq_ok h
        rw [hset, ProposalWire.routing, horigin]
        refine ⟨?_, fun choice' hchoice action haction => ?_⟩
        · rw [List.map_singleton, RecommendationChoice.routes, hactions]
          rfl
        · rw [List.mem_singleton.mp hchoice, hactions] at haction
          rw [List.mem_singleton.mp haction, trustedPane, ← hturn]
          exact ⟨rfl, trivial⟩
      | terminalAgent =>
        rw [horigin, decide_eq_false (by decide)] at hturn
        rw [if_neg (by rw [horigin]; decide)] at h
        obtain ⟨choices, hchoices, h⟩ := bind_eq_ok.mp h
        obtain ⟨_, _, h⟩ := bind_eq_ok.mp h
        obtain ⟨hsubset, hroutes⟩ := validateForCoordinator_eq_ok (asPolicyViolation_eq_ok h)
        have hconverted := forall₂_of_mapM_eq_ok hchoices
        rw [routes_of_converted hconverted] at hroutes
        refine ⟨?_, fun choice hchoice => ?_⟩
        · rw [hroutes, ProposalWire.routing, horigin, routesOf, List.map_map]
          rfl
        · rw [trustedPane, ← hturn]
          exact confined_of_converted hconverted choice (hsubset choice hchoice)

/-! ### What is bound -/

def ActionRoute.bind (targetPaneId : Option String) : ActionRoute → Except String ActionRoute
  | send _ => do
    let target ← hostTarget targetPaneId
    return .send target
  | openAndSend .panel _ agent => do
    let target ← hostTarget targetPaneId
    return .openAndSend .panel (some target) agent
  | openShell .panel _ => do
    let target ← hostTarget targetPaneId
    return .openShell .panel (some target)
  | openAndSend .tab _ agent => return .openAndSend .tab none agent
  | openShell .tab _ => return .openShell .tab none

variable {host : Option String}

theorem bindActionTarget_withoutParent (action : RecommendedAction) :
    bindActionTarget host action.withoutParent = bindActionTarget host action := by
  cases action with
  | send => rfl
  | openAndSend place => cases place <;> rfl
  | openShell place => cases place <;> rfl

theorem bindActionTarget_route (action : RecommendedAction) :
    (·.route) <$> bindActionTarget host action = action.route.bind host := by
  cases hhost : hostTarget host with
  | error e =>
    cases action with
    | send =>
      simp only [bindActionTarget, RecommendedAction.route, ActionRoute.bind, hhost]
      rfl
    | openAndSend place =>
      cases place <;> simp only [bindActionTarget, RecommendedAction.route, ActionRoute.bind, hhost]
        <;> rfl
    | openShell place =>
      cases place <;> simp only [bindActionTarget, RecommendedAction.route, ActionRoute.bind, hhost]
        <;> rfl
  | ok pane =>
    cases action with
    | send =>
      simp only [bindActionTarget, RecommendedAction.route, ActionRoute.bind, hhost]
      rfl
    | openAndSend place =>
      cases place <;> simp only [bindActionTarget, RecommendedAction.route, ActionRoute.bind, hhost]
        <;> rfl
    | openShell place =>
      cases place <;> simp only [bindActionTarget, RecommendedAction.route, ActionRoute.bind, hhost]
        <;> rfl

theorem hostTarget_eq_ok (h : hostTarget host = .ok pane) :
    (host.map Sessions.trim).filter (· ≠ "") = some pane := by
  unfold hostTarget at h
  cases hfilter : (host.map Sessions.trim).filter (· ≠ "") with
  | none =>
    rw [hfilter] at h
    cases h
  | some pane' =>
    rw [hfilter] at h
    cases h
    rfl

theorem parentIs_of_bound {action bound : RecommendedAction}
    (h : bindActionTarget host action = .ok bound) :
    bound.ParentIs ((host.map Sessions.trim).filter (· ≠ "")) := by
  cases action with
  | send _ input =>
    obtain ⟨pane, hpane, h⟩ := bind_eq_ok.mp h
    cases h
    exact hostTarget_eq_ok hpane
  | openAndSend place _ input agent cwd title direction profile =>
    cases place with
    | tab =>
      cases h
      rfl
    | panel =>
      obtain ⟨pane, hpane, h⟩ := bind_eq_ok.mp h
      cases h
      rw [hostTarget_eq_ok hpane]
      exact ⟨rfl, Option.some_ne_none pane⟩
  | openShell place _ cwd title direction profile =>
    cases place with
    | tab =>
      cases h
      rfl
    | panel =>
      obtain ⟨pane, hpane, h⟩ := bind_eq_ok.mp h
      cases h
      rw [hostTarget_eq_ok hpane]
      exact ⟨rfl, Option.some_ne_none pane⟩

theorem bindChoiceTarget_withoutParents (choice : RecommendationChoice) :
    bindChoiceTarget choice.withoutParents host = bindChoiceTarget choice host := by
  have hactions : (choice.actions.map (·.withoutParent)).mapM (bindActionTarget host) =
      choice.actions.mapM (bindActionTarget host) := by
    rw [List.mapM_map]
    exact congrArg (choice.actions.mapM ·) (funext bindActionTarget_withoutParent)
  simp only [bindChoiceTarget, RecommendationChoice.withoutParents, hactions]

theorem parentIs_of_bindChoiceTarget {choice bound : RecommendationChoice}
    (h : bindChoiceTarget choice host = .ok bound) :
    ∀ action ∈ bound.actions, action.ParentIs ((host.map Sessions.trim).filter (· ≠ "")) := by
  obtain ⟨actions, hactions, h⟩ := bind_eq_ok.mp h
  cases h
  intro action haction
  obtain ⟨_, -, hbound⟩ := exists_of_mem_of_forall₂ (forall₂_of_mapM_eq_ok hactions) haction
  exact parentIs_of_bound hbound

theorem mapM_bindActionTarget_route (actions : List RecommendedAction) :
    List.map (·.route) <$> actions.mapM (bindActionTarget host) =
      (actions.map (·.route)).mapM (ActionRoute.bind host) := by
  induction actions with
  | nil => rfl
  | cons action actions ih =>
    rw [List.mapM_cons, List.map_cons, List.mapM_cons, ← ih, ← bindActionTarget_route action]
    cases bindActionTarget host action with
    | error e => rfl
    | ok bound =>
      cases actions.mapM (bindActionTarget host) with
      | error e => rfl
      | ok bounds => rfl

theorem bindChoiceTarget_routes (choice : RecommendationChoice) :
    (·.routes) <$> bindChoiceTarget choice host = choice.routes.mapM (ActionRoute.bind host) := by
  rw [RecommendationChoice.routes, ← mapM_bindActionTarget_route]
  simp only [bindChoiceTarget]
  cases choice.actions.mapM (bindActionTarget host) with
  | error e => rfl
  | ok bounds => rfl

/-! ### Confinement -/

/-- Model output cannot choose the pane or the agent of an action. The actions of an accepted
proposal name the trusted pane and the configured delegate or nothing. Whatever panes a choice
names, binding fails or puts the host's pane into each action that needs one. So two accepted
proposals with the same routing run in the same panes with the same agents. -/
theorem build_recommendation_set_confined :
    (∀ (wire : ProposalWire) (isAutofix : Bool) (configured target coordinator : Option String)
      (set : RecommendationSet),
      buildRecommendationSet wire isAutofix configured target coordinator = .ok set →
      ∀ choice ∈ set.choices, ∀ action ∈ choice.actions,
        action.ParentIs (trustedPane isAutofix target) ∧ action.AgentIs configured) ∧
    (∀ (choice choice' : RecommendationChoice) (host : Option String),
      choice.withoutParents = choice'.withoutParents →
      bindChoiceTarget choice host = bindChoiceTarget choice' host ∧
        ∀ bound, bindChoiceTarget choice host = .ok bound →
          ∀ action ∈ bound.actions, action.ParentIs ((host.map Sessions.trim).filter (· ≠ ""))) ∧
    ∀ (wire wire' : ProposalWire) (isAutofix : Bool)
      (configured target coordinator host : Option String) (set set' : RecommendationSet),
      wire.routing = wire'.routing →
      buildRecommendationSet wire isAutofix configured target coordinator = .ok set →
      buildRecommendationSet wire' isAutofix configured target coordinator = .ok set' →
      set.choices.map (fun choice => (·.routes) <$> bindChoiceTarget choice host) =
        set'.choices.map (fun choice => (·.routes) <$> bindChoiceTarget choice host) := by
  refine ⟨fun _ _ _ _ _ _ h => (buildRecommendationSet_eq_ok h).2, ?_, ?_⟩
  · intro choice choice' host hsame
    refine ⟨?_, fun bound hbound => parentIs_of_bindChoiceTarget hbound⟩
    rw [← bindChoiceTarget_withoutParents choice, hsame, bindChoiceTarget_withoutParents]
  · intro wire wire' isAutofix configured target coordinator host set set' hrouting hset hset'
    have hroutes : set.choices.map (·.routes) = set'.choices.map (·.routes) := by
      rw [(buildRecommendationSet_eq_ok hset).1, (buildRecommendationSet_eq_ok hset').1, hrouting]
    have hbound := congrArg (List.map (·.mapM (ActionRoute.bind host))) hroutes
    rw [List.map_map, List.map_map] at hbound
    simpa only [bindChoiceTarget_routes, Function.comp_def] using hbound

/-- A proposal of a command in the current shell. -/
def proposedCommand (input : String) : ProposalWire where
  schemaVersion := 1
  origin := .terminalAgent
  recommendedChoice := some 1
  choices := [{ choice := 1, title := "Run tests", rationale := "", actions := [.send input] }]

/-- The card of a command in the current shell. -/
def commandCard (parent input : String) : RecommendationSet where
  recommendedChoice := some 1
  choices := [{
    choice := 1, title := "Run tests", rationale := "", actions := [.send parent input] }]

/-- Two proposals of a command, with different commands, run in the same pane. -/
theorem build_recommendation_set_confined_commands :
    (∀ choice ∈ (commandCard "pane" "make").choices, ∀ action ∈ choice.actions,
      action.ParentIs (some "pane") ∧ action.AgentIs none) ∧
    bindChoiceTarget ⟨1, "", "", [.send "other" "ls"]⟩ (some "host") =
      bindChoiceTarget ⟨1, "", "", [.send "" "ls"]⟩ (some "host") ∧
    (commandCard "pane" "make").choices.map
        (fun choice => (·.routes) <$> bindChoiceTarget choice (some "host")) =
      (commandCard "pane" "ls").choices.map
        (fun choice => (·.routes) <$> bindChoiceTarget choice (some "host")) := by
  have hmake : buildRecommendationSet (proposedCommand "make") false none (some "pane") none =
      .ok (commandCard "pane" "make") := by
    rfl
  have hls : buildRecommendationSet (proposedCommand "ls") false none (some "pane") none =
      .ok (commandCard "pane" "ls") := by
    rfl
  have hrouting : (proposedCommand "make").routing = (proposedCommand "ls").routing := rfl
  exact ⟨build_recommendation_set_confined.1 _ _ _ _ _ _ hmake,
    (build_recommendation_set_confined.2.1 _ _ _ rfl).1,
    build_recommendation_set_confined.2.2 _ _ _ _ _ _ _ _ _ hrouting hmake hls⟩

end IntelligentTerminal.Proposals
