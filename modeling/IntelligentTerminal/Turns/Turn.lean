import IntelligentTerminal.Data.Table
import IntelligentTerminal.Proposals.Schema

/-!
# The turn of a tab

A tab has one turn. A prompt is submitted, the agent streams, a proposal surfaces as a card, the
user executes the card or cancels, and the agent ends. A cancelled prompt keeps the turn until the
agent's side is settled. What was said is kept as one completed turn.

The tables of tabs are walked in an order that the source does not fix: it is an argument of the
functions that walk one. Where the source would panic, because the tab of a session was never made
or has no prompt, nothing changes.

Left out are the screen (selection, scrolling, drafts), the bar and the offers of autofix, the
prompt queue, permission requests, and everything that is only logged or sent to the host.

Source: `tools/wta/src/app/turn_state.rs`; `tools/wta/src/app_turn.rs`;
`tools/wta/src/app/tab_state.rs`, lines 84-196, 282-287, 775-841, 1325-1420, 1515-1580 and
1586-1625; `tools/wta/src/app.rs`, lines 5310-5428 and 7776-7781;
`tools/wta/src/app_events.rs`, lines 1229-1254.
-/

namespace IntelligentTerminal.Turns

open Proposals (RecommendationSet RecommendationChoice ProposalError ProposalWire)

/-! ### Turns -/

structure AutofixContext where
  generation : UInt64
deriving DecidableEq

structure TurnContext where
  targetPaneId : Option String
deriving DecidableEq

/-- `struct SubmittedPrompt`, without its time. -/
structure SubmittedPrompt where
  id : ℕ
  text : String
  context : TurnContext
  autofix : Option AutofixContext
deriving DecidableEq

inductive TurnOutcome
  | recommendation (set : RecommendationSet)
  | resolvedRecommendation (summary : String)
  | chatTurn
  | empty
deriving DecidableEq

inductive TurnState
  | idle
  | submitted (prompt : SubmittedPrompt)
  | streaming (prompt : SubmittedPrompt)
  | surfaced (prompt : SubmittedPrompt) (outcome : TurnOutcome) (endPending : Bool)
  | cancelling (promptId : ℕ)
deriving DecidableEq

inductive ChunkKind
  | thought
  | message
deriving DecidableEq

namespace TurnState

def acceptsNewPrompt : TurnState → Bool
  | idle => true
  | surfaced _ _ endPending => !endPending
  | submitted _ | streaming _ | cancelling _ => false

def isInFlight : TurnState → Bool
  | submitted _ | streaming _ => true
  | surfaced _ _ endPending => endPending
  | idle | cancelling _ => false

def isCancelling : TurnState → Bool
  | cancelling _ => true
  | _ => false

def promptId : TurnState → Option ℕ
  | idle => none
  | submitted prompt | streaming prompt | surfaced prompt _ _ => some prompt.id
  | cancelling promptId => some promptId

def prompt : TurnState → Option SubmittedPrompt
  | idle | cancelling _ => none
  | submitted prompt | streaming prompt | surfaced prompt _ _ => some prompt

def recommendations : TurnState → Option RecommendationSet
  | surfaced _ (.recommendation set) _ => some set
  | _ => none

def autofixGeneration (turn : TurnState) : Option UInt64 :=
  turn.prompt.bind fun prompt => prompt.autofix.map (·.generation)

def isAutofix (turn : TurnState) : Bool := turn.prompt.any (·.autofix.isSome)

end TurnState

/-! ### Tabs -/

/-- `enum ChatMessage`. The kinds that no function here looks at are `other`. -/
inductive ChatMessage
  | user (text : String)
  | agent (text : String)
  | thought (text : String) (expanded : Bool)
  | error (text : String)
  | other (text : String)
deriving DecidableEq

structure CompletedTurn where
  prompt : String
  details : List ChatMessage
  expanded : Bool
  trailingMarker : Option String
deriving DecidableEq

/-- `struct ActivePromptCancellation`. A cancellation token is a number. -/
structure ActivePromptCancellation where
  promptId : ℕ
  token : ℕ
  sessionId : Option String
  attachmentValid : Bool
deriving DecidableEq

structure PendingTerminalActionProposal where
  proposalId : String
  sessionId : String
  promptId : ℕ
  isAutofix : Bool
  recommendations : RecommendationSet
deriving DecidableEq

structure TabSession where
  turn : TurnState := .idle
  activePromptCancellation : Option ActivePromptCancellation := none
  completedTurns : List CompletedTurn := []
  messages : List ChatMessage := []
  /-- Whether `streaming_thought` is set. -/
  streamingThought : Bool := false
  sessionId : Option String := none
  loadingSession : Bool := false
  loadingTargetSessionId : Option String := none
  hasMeaningfulConversation : Bool := false
  autofixGeneration : UInt64 := 0
  pendingTerminalActionProposal : Option PendingTerminalActionProposal := none
  activeDirectProposalId : Option String := none
  selectedRecommendation : ℕ := 0
  selectedButton : ℕ := 0
  pendingQueueAction : Option ℕ := none

/-- The translated texts. -/
structure Texts where
  turnCanceled : String
  autofixPromptLabel : String
  toolInsert : String
  toolRun : String
  connectionLost : String

def maxStreamingThoughtChars : ℕ := 4000

namespace TabSession

/-! ### The token of the running prompt -/

def setPromptCancellation (tab : TabSession) (promptId token : ℕ) : TabSession :=
  { tab with activePromptCancellation := some {
      promptId, token, sessionId := tab.sessionId, attachmentValid := true } }

def bindActivePromptSession (tab : TabSession) (promptId : ℕ) (sessionId : String) : TabSession :=
  { tab with activePromptCancellation := tab.activePromptCancellation.map fun active =>
      if active.promptId = promptId ∧ active.attachmentValid ∧ active.sessionId = none then
        { active with sessionId := some sessionId }
      else active }

def invalidateActivePromptAttachment (tab : TabSession) : TabSession :=
  { tab with activePromptCancellation := tab.activePromptCancellation.map fun active =>
      { active with attachmentValid := false } }

/-- `TabSession::cancel_active_prompt`: the token that is cancelled. -/
def cancelActivePrompt (tab : TabSession) (promptId : ℕ) : Option ℕ :=
  (tab.activePromptCancellation.filter fun active => active.promptId = promptId).map (·.token)

def activePromptMatchesSession (tab : TabSession) (promptId : ℕ) (sessionId : String) : Bool :=
  tab.activePromptCancellation.any fun active =>
    active.promptId = promptId ∧ active.sessionId = some sessionId

def finishActivePrompt (tab : TabSession) (promptId : ℕ) : TabSession :=
  { tab with activePromptCancellation :=
      tab.activePromptCancellation.filter fun active => active.promptId ≠ promptId }

/-! ### The transcript -/

def streamingThoughtMessageIndex (tab : TabSession) : Option ℕ :=
  if tab.streamingThought then
    (tab.messages.reverse.findIdx? fun
      | .thought _ _ => true
      | _ => false).map fun i => tab.messages.length - 1 - i
  else none

def streamingThoughtText (tab : TabSession) : Option String :=
  tab.streamingThoughtMessageIndex.bind fun index =>
    match tab.messages[index]? with
    | some (.thought text _) => some text
    | _ => none

def finishThought (tab : TabSession) : TabSession :=
  match tab.streamingThoughtMessageIndex with
  | none => tab
  | some index => { tab with
      streamingThought := false
      messages := tab.messages.modify index fun
        | .thought text _ => .thought text false
        | message => message }

def appendAgentChunk (tab : TabSession) (text : String) : TabSession :=
  match tab.messages.getLast? with
  | some (.agent current) =>
    { tab with messages := tab.messages.dropLast ++ [.agent (current ++ text)] }
  | _ => { tab with messages := tab.messages ++ [.agent text] }

def appendThoughtChunk (tab : TabSession) (text : String) : TabSession :=
  if text = "" then tab.finishThought
  else
    let (tab, index) := match tab.streamingThoughtMessageIndex with
      | some index => (tab, index)
      | none =>
        ({ tab with
          messages := tab.messages ++ [ChatMessage.thought "" (!tab.loadingSession)]
          streamingThought := true }, tab.messages.length)
    { tab with messages := tab.messages.modify index fun
        | .thought current expanded =>
          let chars := (current ++ text).toList
          .thought (String.ofList (chars.drop (chars.length - maxStreamingThoughtChars))) expanded
        | message => message }

def activeAgentText (tab : TabSession) : String :=
  String.join (tab.messages.filterMap fun
    | .agent text => some text
    | _ => none)

/-- `TabSession::take_current_turn_details`: the messages that are taken. -/
def currentTurnDetails (tab : TabSession) : List ChatMessage :=
  tab.finishThought.messages.filter fun
    | .user _ => false
    | _ => true

/-- `TabSession::take_current_turn_details`: the tab they are taken from. -/
def takeCurrentTurnDetails (tab : TabSession) : TabSession :=
  { tab.finishThought with messages := [] }

/-- `TabSession::retain_current_messages`, keeping nothing. -/
def dropCurrentMessages (tab : TabSession) : TabSession :=
  { tab with
    messages := []
    streamingThought :=
      if tab.streamingThoughtMessageIndex.isSome then false else tab.streamingThought }

def pushCompletedTurn (tab : TabSession) (turn : CompletedTurn) : TabSession :=
  { tab with completedTurns := tab.completedTurns ++ [turn] }

/-- `completed_turns.iter_mut().next_back()`, as it is changed when a card is resolved: a last
detail with the old text gets the new one. -/
def resolveLastTurn (tab : TabSession) (old new : String) : TabSession :=
  match tab.completedTurns.getLast? with
  | none => tab
  | some last =>
    let details := if last.details.getLast? = some (.agent old) then
      last.details.dropLast ++ [.agent new] else last.details
    { tab with
      completedTurns := tab.completedTurns.dropLast ++ [{ last with details, trailingMarker := none }] }

end TabSession

/-- The label of a prompt in the history. -/
def SubmittedPrompt.label (prompt : SubmittedPrompt) (texts : Texts) : String :=
  if prompt.autofix.isSome then texts.autofixPromptLabel else prompt.text

namespace TabSession

/-! ### What happens to the turn -/

/-- `turn_submit_prompt_for_tab_with_cancellation`. -/
def submit (tab : TabSession) (prompt : SubmittedPrompt) (token : ℕ) : TabSession :=
  let tab := { tab with
    messages := if prompt.autofix.isSome then [] else [.user prompt.text]
    streamingThought := false
    selectedRecommendation := 0
    selectedButton := 0
    pendingTerminalActionProposal := none
    activeDirectProposalId := none }
  { tab.setPromptCancellation prompt.id token with turn := .submitted prompt }

/-- The `match` of `turn_observe_chunk`, and whether the chunk is accepted. -/
def acceptChunk (tab : TabSession) (kind : ChunkKind) (text : String) : TabSession × Bool :=
  match tab.turn, kind with
  | .submitted prompt, .message =>
    ({ tab with turn := .streaming prompt }.appendAgentChunk text, true)
  | .submitted prompt, .thought =>
    ({ tab with turn := .streaming prompt }.appendThoughtChunk text, text ≠ "")
  | .streaming _, .message =>
    let tab := if tab.streamingThoughtText.isSome then tab.finishThought else tab
    (tab.appendAgentChunk text, true)
  | .streaming _, .thought => (tab.appendThoughtChunk text, text ≠ "")
  | .surfaced _ outcome endPending, .message =>
    if tab.activeDirectProposalId.isSome then (tab.appendAgentChunk text, true)
    else
      match outcome, endPending with
      -- a card that was executed before the agent ended
      | .resolvedRecommendation _, true => (tab.appendAgentChunk text, true)
      | _, _ => (tab, false)
  | .surfaced _ _ _, .thought => (tab, false)
  | .idle, _ | .cancelling _, _ => (tab, false)

def observeChunk (tab : TabSession) (kind : ChunkKind) (text : String) : TabSession × Bool :=
  if tab.turn.autofixGeneration.any (· ≠ tab.autofixGeneration) then (tab, false)
  else
    let (tab, accepted) := tab.acceptChunk kind text
    (if accepted then { tab with hasMeaningfulConversation := true } else tab, accepted)

/-- `turn_surface_recommendation` and `turn_surface_fix`. -/
def surfaceRecommendation (tab : TabSession) (set : RecommendationSet) : TabSession :=
  match tab.turn.prompt with
  | none => tab
  | some prompt =>
    let tab := { tab with
      selectedRecommendation := Proposals.recommendedChoiceIndex set
      selectedButton := 0 }
    { tab.finishThought with turn := .surfaced prompt (.recommendation set) true }

/-- `turn_release_end_pending`, and `turn_release_end_pending_logged`. -/
def releaseEndPending (tab : TabSession) : TabSession :=
  match tab.turn with
  | .surfaced prompt outcome true =>
    { tab with turn := .surfaced prompt outcome false }.finishActivePrompt prompt.id
  | _ => tab

/-- `turn_commit_recommendation_history`. -/
def commitRecommendationHistory (tab : TabSession) (texts : Texts) (summary : String) : TabSession :=
  match tab.turn.prompt with
  | none => tab
  | some prompt => tab.takeCurrentTurnDetails.pushCompletedTurn {
      prompt := prompt.label texts
      details := tab.currentTurnDetails ++ [.agent summary]
      expanded := true
      trailingMarker := none }

/-- `turn_close_no_chunks`, of a prompt that was submitted. -/
def closeNoChunks (tab : TabSession) (prompt : SubmittedPrompt) : TabSession :=
  ({ tab with turn := .surfaced prompt .empty true }.releaseEndPending).finishThought

/-- `turn_surface_explain`, of a prompt of autofix. -/
def surfaceExplain (tab : TabSession) (texts : Texts) (prompt : SubmittedPrompt) : TabSession :=
  let tab := tab.takeCurrentTurnDetails.pushCompletedTurn {
    prompt := texts.autofixPromptLabel
    details := tab.currentTurnDetails
    expanded := true
    trailingMarker := none }
  let tab := { tab with selectedRecommendation := 0, selectedButton := 0 }
  { tab.finishThought with turn := .surfaced prompt .chatTurn true }

def closeFinalizeAutofixText (tab : TabSession) (texts : Texts) (prompt : SubmittedPrompt) :
    TabSession :=
  if Sessions.trim tab.activeAgentText ≠ "" then (tab.surfaceExplain texts prompt).releaseEndPending
  else
    let details := tab.currentTurnDetails
    let tab := tab.takeCurrentTurnDetails
    let tab := if details = [] then tab else tab.pushCompletedTurn {
      prompt := texts.autofixPromptLabel, details, expanded := true, trailingMarker := none }
    { tab.finishActivePrompt prompt.id with turn := .surfaced prompt .empty false }

/-- `turn_close_finalize_chat`. -/
def closeFinalizeChat (tab : TabSession) (prompt : SubmittedPrompt) : TabSession :=
  let tab := tab.takeCurrentTurnDetails.pushCompletedTurn {
    prompt := prompt.text
    details := tab.currentTurnDetails
    expanded := true
    trailingMarker := none }
  { tab with turn := .surfaced prompt .chatTurn true }.releaseEndPending

/-- `turn_close`. -/
def close (tab : TabSession) (texts : Texts) : TabSession :=
  if tab.turn.isCancelling then tab
  else if tab.turn.autofixGeneration.any (· ≠ tab.autofixGeneration) then
    -- a stale turn of autofix is discarded
    let tab := tab.finishThought
    let tab := match tab.turn.promptId with
      | some promptId => tab.finishActivePrompt promptId
      | none => tab
    { tab.dropCurrentMessages with turn := .idle }
  else
    let tab := if tab.turn = .idle then tab else { tab with hasMeaningfulConversation := true }
    match tab.turn with
    | .surfaced _ (.recommendation set) true =>
      let summary := Proposals.formatRecommendationsForChat set none
      (tab.commitRecommendationHistory texts summary).releaseEndPending.finishThought
    | .surfaced prompt (.resolvedRecommendation summary) true =>
      let tab := tab.commitRecommendationHistory texts summary
      { tab with turn := .surfaced prompt .empty true }.releaseEndPending.finishThought
    | .surfaced _ _ true => tab.releaseEndPending.finishThought
    | .submitted prompt => tab.closeNoChunks prompt
    | .streaming prompt =>
      if prompt.autofix.isSome then (tab.closeFinalizeAutofixText texts prompt).finishThought
      else (tab.closeFinalizeChat prompt).finishThought
    | .idle | .surfaced _ _ false | .cancelling _ => tab

/-- The part of `teardown_turn_for_tab` that is about the history: a turn in flight is kept as a
completed turn, and the card of a turn that ended is resolved. -/
def commitCancelled (tab : TabSession) (texts : Texts) (userCancelled : Bool) : TabSession :=
  let marker := if userCancelled then some texts.turnCanceled else none
  match tab.turn with
  | .submitted prompt | .streaming prompt => tab.takeCurrentTurnDetails.pushCompletedTurn {
      prompt := prompt.label texts
      details := tab.currentTurnDetails
      expanded := true
      trailingMarker := marker }
  | .surfaced prompt (.recommendation set) true => tab.takeCurrentTurnDetails.pushCompletedTurn {
      prompt := prompt.label texts
      details := tab.currentTurnDetails ++
        [.agent (Proposals.formatRecommendationsForChat set marker)]
      expanded := true
      trailingMarker := none }
  | .surfaced prompt (.resolvedRecommendation summary) true =>
    tab.takeCurrentTurnDetails.pushCompletedTurn {
      prompt := prompt.label texts
      details := tab.currentTurnDetails ++ [.agent summary]
      expanded := true
      trailingMarker := none }
  | .surfaced _ (.recommendation set) false =>
    tab.resolveLastTurn (Proposals.formatRecommendationsForChat set none)
      (Proposals.formatRecommendationsForChat set marker)
  | _ => tab

/-- `teardown_turn_for_tab`, for a turn that is not cancelled already. -/
def teardown (tab : TabSession) (texts : Texts) (userCancelled : Bool) : TabSession :=
  let cancelled := if tab.turn.isInFlight then tab.turn.promptId else none
  let tab := { tab with autofixGeneration := tab.autofixGeneration + 1 }
  let tab := { tab.commitCancelled texts userCancelled with
    selectedRecommendation := 0
    selectedButton := 0 }.finishThought
  { tab with
    turn := match cancelled with
      | some promptId => .cancelling promptId
      | none => .idle
    activePromptCancellation := cancelled.bind fun _ => tab.activePromptCancellation
    pendingTerminalActionProposal := none
    activeDirectProposalId := none }

/-- The end of `turn_execute_card`, of a choice that was dispatched. -/
def resolveCard (tab : TabSession) (old executed : String) : TabSession :=
  match tab.turn with
  | .surfaced prompt _ endPending =>
    let tab := { tab with
      selectedRecommendation := 0
      selectedButton := 0
      activeDirectProposalId := none }
    if endPending then { tab with turn := .surfaced prompt (.resolvedRecommendation executed) true }
    else { tab.resolveLastTurn old executed with turn := .surfaced prompt .empty false }
  | _ => tab

end TabSession

end IntelligentTerminal.Turns
