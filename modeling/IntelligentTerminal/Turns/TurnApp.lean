import IntelligentTerminal.Turns.Turn

/-!
# The calls that move the turns of the tabs

Events are about sessions or prompts; the app finds the tab they are for. A session is bound to a
tab, or it is that of the tab on the screen. The end of a prompt is also accepted of a session that
was replaced in the meantime, if a cancelled prompt is bound to it.

What the proposal channel and the executor answer to `turn_execute_card`, and what is decoded from
a proposal, are arguments.

Source: `tools/wta/src/app.rs`, lines 5310-5428 and 7776-7781; `tools/wta/src/app_turn.rs`;
`tools/wta/src/app_events.rs`, lines 1229-1254.
-/

namespace IntelligentTerminal.Turns

open Proposals (RecommendationSet RecommendationChoice ProposalError ProposalWire)

/-- `struct ChoiceExecution`, without the run of an offer. -/
structure ChoiceExecution where
  choice : RecommendationChoice
  insertOnly : Bool
  context : TurnContext
  completion : String × ℕ
deriving DecidableEq

structure App where
  tabSessions : Table String TabSession := ∅
  tabId : Option String := none
  sessionToTab : Table String String := ∅
  /-- The configured delegate agents, of which only the ids are used. -/
  delegateAgents : List String := []
  paneId : Option String := none
  texts : Texts
  /-- The tokens that were cancelled. -/
  cancelledTokens : List ℕ := []
  /-- What was sent on `recommendation_tx`. -/
  executions : List ChoiceExecution := []

def defaultTabId : String := "0"

namespace App

variable (app : App)

/-! ### Finding the tab -/

/-- `App::tab_mut`: the tab, which is made if there is none. -/
def tabAt (key : String) : TabSession := (app.tabSessions.lookup key).getD {}

/-- `App::tab_mut`, and what is done to the tab. -/
def tabMut (key : String) (f : TabSession → TabSession) : App :=
  { app with tabSessions := app.tabSessions.insert key (f (app.tabAt key)) }

def activeTabKey : String := app.tabId.getD defaultTabId

def currentTab : Option TabSession := app.tabSessions.lookup app.activeTabKey

def tabForSession (sessionId : String) : String :=
  (app.sessionToTab.lookup sessionId).getD app.activeTabKey

def sessionTab (sessionId : String) : Option TabSession :=
  (app.tabSessions.lookup (app.tabForSession sessionId)).or (app.tabSessions.lookup defaultTabId)

def boundTabForSession (sessionId : String) : Option String :=
  (app.sessionToTab.lookup sessionId).or
    (if app.currentTab.any fun tab => tab.sessionId = some sessionId then some app.activeTabKey
    else none)

def currentTabForSession (order : List String) (sessionId : String) : Option String :=
  let loading := order.find? fun key => (app.tabSessions.lookup key).any fun tab =>
    tab.loadingSession ∧ tab.loadingTargetSessionId = some sessionId
  let bound := (app.boundTabForSession sessionId).filter fun key =>
    (app.tabSessions.lookup key).any fun tab =>
      !tab.loadingSession ∧ tab.sessionId = some sessionId
  loading.or bound

def terminalEventTabForSession (order : List String) (sessionId : String) :
    Option (String × Bool) :=
  let current := (app.boundTabForSession sessionId).filter fun key =>
    (app.tabSessions.lookup key).any fun tab => tab.sessionId = some sessionId
  let retired := order.find? fun key => (app.tabSessions.lookup key).any fun tab =>
    match tab.turn with
    | .cancelling promptId => tab.activePromptMatchesSession promptId sessionId
    | _ => false
  (current.map (·, true)).or (retired.map (·, false))

/-! ### Prompts and chunks -/

def turnSubmitPromptForTab (key : String) (prompt : SubmittedPrompt) (token : ℕ) : App :=
  app.tabMut key fun tab => tab.submit prompt token

def turnObserveChunk (order : List String) (sessionId : String) (kind : ChunkKind)
    (text : String) : App × Bool :=
  match app.currentTabForSession order sessionId with
  | none => (app, false)
  | some key =>
    match app.tabSessions.lookup key with
    | none => (app, false)
    | some tab => (app.tabMut key fun _ => (tab.observeChunk kind text).1,
        (tab.observeChunk kind text).2)

/-! ### Proposals -/

inductive DirectProposalEvaluation
  | presented
  | duplicate (reason : String)
  | stale (reason : String)
  | rejected (error : ProposalError)
  | unavailable (reason : String)
deriving DecidableEq

/-- `validate_and_stage_terminal_action_proposal`. `decode` is what the payload is decoded to, in a
turn of autofix or in another one. -/
def validateAndStageTerminalActionProposal (sessionId : String) (promptId : ℕ)
    (activeTarget : Option String) (decode : Bool → Except ProposalError ProposalWire)
    (proposalId : String) : App × DirectProposalEvaluation :=
  if app.sessionToTab.lookup sessionId = none then
    (app, .unavailable "session is not bound to this helper")
  else
    match app.sessionTab sessionId with
    | none => (app, .unavailable "session is not bound to this helper")
    | some tab =>
      match tab.turn with
      | .surfaced _ _ _ => (app, .duplicate "a card is already showing for this turn")
      | .idle | .cancelling _ => (app, .stale "no turn is in flight for this session")
      | .submitted prompt | .streaming prompt =>
        if prompt.id ≠ promptId then (app, .stale "proposal belongs to an earlier prompt")
        else if tab.turn.isAutofix ∧ tab.turn.autofixGeneration ≠ some tab.autofixGeneration then
          (app, .stale "autofix turn was superseded")
        else
          let built := do
            let wire ← decode tab.turn.isAutofix
            Proposals.buildRecommendationSet wire tab.turn.isAutofix app.delegateAgents.head?
              activeTarget app.paneId
          match built with
          | .error error => (app, .rejected error)
          | .ok recommendations =>
            (app.tabMut (app.tabForSession sessionId) fun tab => { tab with
              pendingTerminalActionProposal := some {
                proposalId, sessionId, promptId
                isAutofix := prompt.autofix.isSome
                recommendations } }, .presented)

/-- The first tab with this pending proposal. -/
def pendingProposal (order : List String) (proposalId : String) :
    Option (String × PendingTerminalActionProposal) :=
  order.findSome? fun key =>
    ((app.tabSessions.lookup key).bind (·.pendingTerminalActionProposal)).bind fun pending =>
      if pending.proposalId = proposalId then some (key, pending) else none

/-- The part of `commit_terminal_action_proposal` after the pending proposal is taken. A proposal
of autofix only surfaces in a turn of autofix. -/
def surfaceProposal (pending : PendingTerminalActionProposal) : App × Bool :=
  match (app.sessionTab pending.sessionId).map TabSession.turn with
  | some (.submitted prompt) | some (.streaming prompt) =>
    if prompt.id = pending.promptId then
      (app.tabMut (app.tabForSession pending.sessionId) fun tab =>
        let tab := if pending.isAutofix ∧ !tab.turn.isAutofix then tab
          else tab.surfaceRecommendation pending.recommendations
        { tab with activeDirectProposalId := some pending.proposalId }, true)
    else (app, false)
  | _ => (app, false)

def commitTerminalActionProposal (order : List String) (proposalId : String) : App × Bool :=
  match app.pendingProposal order proposalId with
  | none => (app, false)
  | some (key, pending) =>
    (app.tabMut key fun tab => { tab with pendingTerminalActionProposal := none }).surfaceProposal
      pending

/-! ### Cancelling -/

def cancelToken (token : Option ℕ) : App :=
  { app with cancelledTokens := token.toList ++ app.cancelledTokens }

def teardownTurnForTab (key : String) (userCancelled : Bool) : App :=
  match app.tabSessions.lookup key with
  | none => app
  | some tab =>
    match tab.turn with
    | .cancelling promptId => app.cancelToken (tab.cancelActivePrompt promptId)
    | turn =>
      let token := if turn.isInFlight then turn.promptId.bind tab.cancelActivePrompt else none
      (app.cancelToken token).tabMut key fun tab => tab.teardown app.texts userCancelled

/-- `turn_cancel_for_tab`, and the part of `turn_cancel` that is about the turn. -/
def turnCancelForTab (key : String) : App := app.teardownTurnForTab key true

/-! ### Executing a card -/

def selectedRecommendationChoice : Option RecommendationChoice :=
  app.currentTab.bind fun tab => tab.turn.recommendations.bind fun recs =>
    recs.choices[tab.selectedRecommendation]?

/-- `turn_execute_card`. `claimed` is whether the proposal channel gives the confirmation of a
proposal, `dispatched` whether the executor still takes choices. -/
def turnExecuteCard (sessionId : String) (claimed dispatched : Bool) : App :=
  match app.selectedRecommendationChoice, app.sessionTab sessionId with
  | some choice, some tab =>
    match tab.turn with
    | .surfaced prompt (.recommendation recommendations) _ =>
      let key := app.tabForSession sessionId
      if tab.activeDirectProposalId.isSome ∧ !claimed then app.turnCancelForTab key
      else
        let insertOnly := tab.selectedButton = 1 ∧ choice.isSendChoice
        let label := if insertOnly then app.texts.toolInsert else app.texts.toolRun
        if dispatched then
          let execution : ChoiceExecution := {
            choice, insertOnly, context := prompt.context, completion := (key, prompt.id) }
          let app := { app with executions := app.executions ++ [execution] }
          app.tabMut key fun tab => { tab with pendingQueueAction := some prompt.id }.resolveCard
            (Proposals.formatRecommendationsForChat recommendations none)
            (Proposals.formatRecommendationChoiceForChat choice (some label))
        else
          let app := app.tabMut key fun tab => { tab with
            pendingQueueAction := none
            messages := tab.messages ++ [.error app.texts.connectionLost] }
          app.teardownTurnForTab key false
    | _ => app
  | _, _ => app

/-! ### The end of a prompt -/

def turnCloseTerminalEvent (order : List String) (sessionId : String) : App :=
  match app.terminalEventTabForSession order sessionId with
  | none => app
  | some (key, sessionIsCurrent) =>
    match (app.tabSessions.lookup key).map TabSession.turn with
    | some (.cancelling promptId) => app.tabMut key fun tab =>
      if tab.activePromptMatchesSession promptId sessionId then
        let tab := if sessionIsCurrent then { tab with hasMeaningfulConversation := true } else tab
        { tab.finishActivePrompt promptId with turn := .idle }
      else tab
    | _ =>
      if sessionIsCurrent then
        app.tabMut (app.tabForSession sessionId) fun tab => tab.close app.texts
      else app

def settlePromptCancellation (order : List String) (promptId : ℕ) (started : Bool) : App :=
  let target := order.find? fun key => (app.tabSessions.lookup key).any fun tab =>
    tab.turn = .cancelling promptId
  match target with
  | none => app
  | some key => app.tabMut key fun tab =>
    let startedOnCurrentSession := started ∧
      (tab.activePromptCancellation.bind (·.sessionId)).any fun id => tab.sessionId = some id
    let tab := if startedOnCurrentSession then { tab with hasMeaningfulConversation := true }
      else tab
    { tab.finishActivePrompt promptId with turn := .idle }

/-- The first loop of `settle_retired_transport_prompts`, over the keys of the tabs. -/
def cancelInFlight (keys : List String) : App :=
  keys.foldl (fun app key =>
    if (app.tabSessions.lookup key).any (·.turn.isInFlight) then app.turnCancelForTab key
    else app) app

/-- The second loop of `settle_retired_transport_prompts`. -/
def settleCancelling (keys : List String) : App :=
  keys.foldl (fun app key =>
    match (app.tabSessions.lookup key).map TabSession.turn with
    | some (.cancelling promptId) => app.tabMut key fun tab =>
      { tab.finishActivePrompt promptId with turn := .idle }
    | _ => app) app

def settleRetiredTransportPrompts : App :=
  let tabIds := app.tabSessions.keys
  (app.cancelInFlight tabIds).settleCancelling tabIds

/-! ### What else happens to tabs -/

/-- A session is attached to a tab, for a prompt or not: the part of `SessionAttached` that is
about the binding. -/
def attachSession (key sessionId : String) (promptId : Option ℕ) : App :=
  { app with sessionToTab := app.sessionToTab.insert sessionId key }.tabMut key fun tab =>
    let tab := { tab with sessionId := some sessionId }
    match promptId with
    | some promptId => tab.bindActivePromptSession promptId sessionId
    | none => tab

end App

/-! ### Runs -/

/-- The calls that move turns, and what else happens to the tabs meanwhile. -/
inductive TurnOp
  | submit (key : String) (prompt : SubmittedPrompt) (token : ℕ)
  | observeChunk (order : List String) (sessionId : String) (kind : ChunkKind) (text : String)
  | stageProposal (sessionId : String) (promptId : ℕ) (activeTarget : Option String)
      (decode : Bool → Except ProposalError ProposalWire) (proposalId : String)
  | commitProposal (order : List String) (proposalId : String)
  | executeCard (sessionId : String) (claimed dispatched : Bool)
  | closeTerminalEvent (order : List String) (sessionId : String)
  | cancel (key : String)
  | settleCancellation (order : List String) (promptId : ℕ) (started : Bool)
  | settleRetired
  /-- A session is attached to a tab. -/
  | attach (key sessionId : String) (promptId : Option ℕ)
  /-- The session of a tab is given up, or begins to be loaded. -/
  | rebind (key : String) (sessionId : Option String) (loading : Bool) (target : Option String)
  /-- A later trigger makes a turn of autofix stale. -/
  | advanceGeneration (key : String)
  /-- The user selects a choice of a card and a button. -/
  | select (key : String) (choice button : ℕ)
  /-- Another tab is on the screen. -/
  | focus (key : String)

namespace TurnOp

/-- What a call does. -/
def step (app : App) : TurnOp → App
  | submit key prompt token => app.turnSubmitPromptForTab key prompt token
  | observeChunk order sessionId kind text => (app.turnObserveChunk order sessionId kind text).1
  | stageProposal sessionId promptId activeTarget decode proposalId =>
    (app.validateAndStageTerminalActionProposal sessionId promptId activeTarget decode proposalId).1
  | commitProposal order proposalId => (app.commitTerminalActionProposal order proposalId).1
  | executeCard sessionId claimed dispatched => app.turnExecuteCard sessionId claimed dispatched
  | closeTerminalEvent order sessionId => app.turnCloseTerminalEvent order sessionId
  | cancel key => app.turnCancelForTab key
  | settleCancellation order promptId started => app.settlePromptCancellation order promptId started
  | settleRetired => app.settleRetiredTransportPrompts
  | attach key sessionId promptId => app.attachSession key sessionId promptId
  | rebind key sessionId loading target => app.tabMut key fun tab => { tab with
      sessionId, loadingSession := loading, loadingTargetSessionId := target
      activePromptCancellation :=
        tab.invalidateActivePromptAttachment.activePromptCancellation }
  | advanceGeneration key => app.tabMut key fun tab =>
    { tab with autofixGeneration := tab.autofixGeneration + 1 }
  | select key choice button => app.tabMut key fun tab =>
    { tab with selectedRecommendation := choice, selectedButton := button }
  | focus key => { app with tabId := some key }

/-- A prompt is only submitted when the turn of the tab accepts one. -/
def Enabled (app : App) : TurnOp → Prop
  | submit key _ _ => (app.tabAt key).turn.acceptsNewPrompt
  | _ => True

end TurnOp

end IntelligentTerminal.Turns
