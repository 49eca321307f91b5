import IntelligentTerminal.Editor.InputEdit
import IntelligentTerminal.Sessions.Event

/-!
# The queue of prompts

A prompt that the agent cannot take yet waits in the queue of its tab, and a `/fix` waits for a
snapshot of its terminal before it joins the queue. The last request of the user can be recalled
into an empty draft: the tokens of its images are cut out of its text, and the images are inserted
again, with new tokens.

`App` is what the functions of the queue read and write for one tab: the prompt, the queue, the
captures, the notices in the chat, and the counter for the ids of prompts. What other parts of the
application decide is in `Surroundings`. Cancellation tokens, the echoes of automatic requests and
what is displayed about them are read by none of these functions, and are left out. Sums of sizes
saturate far above the bound they are compared with, and are sums of natural numbers here.

Source: `tools/wta/src/app/prompt_queue.rs`, lines 1-950; `tools/wta/src/commands.rs`, lines 80-282;
`tools/wta/src/protocol/acp/client.rs`, lines 496-580; `tools/wta/src/app/input_edit.rs`, lines
274-289 and 494-514; `tools/wta/src/app.rs`, lines 6452-6464.
-/

namespace IntelligentTerminal.Editor

open Data

/-! ### Commands -/

inductive CommandKind
  | help | clear | new | fix | restart | stop | sessions | agent | model | config | move
deriving DecidableEq

/-- The names and kinds of `REGISTRY`. -/
def registry : List (String × CommandKind) :=
  [("help", .help), ("clear", .clear), ("new", .new), ("fix", .fix), ("restart", .restart),
    ("stop", .stop), ("sessions", .sessions), ("agent", .agent), ("model", .model),
    ("config", .config), ("move", .move)]

/-- `commands::lookup`. -/
def lookup (name : List Char) : Option CommandKind :=
  (registry.find? fun spec => eqIgnoreAsciiCase spec.1.toList name).map (·.2)

/-- `char::is_whitespace`. -/
abbrev isSpace (ch : Char) : Bool := Sessions.isWhitespace ch

/-- `commands::parse`: the kind of the command, and its arguments. -/
def parse (input : List Char) : Option (CommandKind × List Char) :=
  match input.dropWhile isSpace with
  | '/' :: rest =>
    if rest.head? = some '/' then none
    else
      let name := rest.takeWhile fun ch => !isSpace ch
      let args := ((rest.dropWhile fun ch => !isSpace ch).dropWhile isSpace).rdropWhile isSpace
      if name = [] then none else (lookup name).map fun kind => (kind, args)
  | _ => none

/-- `agent_command_for_input`: the command of the agent that the input begins with. -/
def agentCommandForInput (sessionCommands : List (List Char)) (input : List Char) :
    Option (List Char) :=
  match input.dropWhile isSpace with
  | '/' :: rest =>
    if rest.head? = some '/' then none
    else
      let name := (rest.dropWhile isSpace).takeWhile fun ch => !isSpace ch
      if name = [] || (lookup name).isSome then none
      else sessionCommands.find? fun command => eqIgnoreAsciiCase command name
  | _ => none

/-! ### Requests -/

inductive RequestKind
  | prompt
  | agentCommand
  | manualFix
  | automaticFix
deriving DecidableEq

inductive AutofixTextKind
  | userRequest
  | failureSummary
deriving DecidableEq

structure PaneContext where
  paneId : Option (List Char) := none
  tabId : Option (List Char) := none
  windowId : Option (List Char) := none
  cwd : Option (List Char) := none
  sourcePaneId : Option (List Char) := none

/-- `struct AutofixSnapshot`: its pane, and what `payload_bytes` says. -/
structure AutofixSnapshot where
  sourcePaneId : List Char
  payloadBytes : ℕ

structure PromptSubmission where
  id : ℕ
  text : List Char
  paneContext : Option PaneContext := none
  autofixTextKind : Option AutofixTextKind := none
  autofixSnapshot : Option AutofixSnapshot := none
  agentCommand : Bool := false
  images : List PastedImage := []

structure QueuedRequest where
  submission : PromptSubmission
  displayText : List Char
  kind : RequestKind
  queuedAt : ℕ
  needsResubmission : Bool := false
  restoreText : Option (List Char) := none
  imageTokenRanges : List Range := []

def PastedImage.bytes (image : PastedImage) : ℕ :=
  len image.dataBase64 + len image.label + len image.mimeType

def PendingAttachments.payloadBytes (a : PendingAttachments) : ℕ :=
  (a.images.map (·.image.bytes)).sum

def PendingAttachments.tokenRanges (a : PendingAttachments) : List Range :=
  a.images.map (·.tokenRange)

def snapshotReservation : ℕ := 256 * 1024

def maxRequests : ℕ := 32

def maxPayloadBytes : ℕ := 16 * 1024 * 1024

/-- The bytes of a context in `QueuedRequest::bytes`. -/
def PaneContext.bytes (context : PaneContext) : ℕ :=
  (([context.paneId, context.tabId, context.windowId, context.cwd,
    context.sourcePaneId].filterMap id).map len).sum

namespace QueuedRequest

/-- `QueuedRequest::bytes`; a `Range<usize>` takes 16 bytes. -/
def bytes (q : QueuedRequest) : ℕ :=
  len q.submission.text + len q.displayText + (q.restoreText.map len).getD 0 +
    q.imageTokenRanges.length * 16 + (q.submission.paneContext.map (·.bytes)).getD 0 +
    (q.submission.images.map (·.bytes)).sum +
    (q.submission.autofixSnapshot.map (·.payloadBytes)).getD
      (if q.kind = .manualFix ∨ q.kind = .automaticFix then snapshotReservation else 0)

def source (q : QueuedRequest) : Option (List Char) := q.submission.paneContext.bind (·.sourcePaneId)

def requireResubmission (q : QueuedRequest) : QueuedRequest := { q with needsResubmission := true }

def replacesAutomatic (q entry : QueuedRequest) : Bool :=
  entry.kind == .automaticFix && entry.source == q.source &&
    (q.kind == .automaticFix ||
      q.kind == .manualFix && q.submission.autofixTextKind == some .failureSummary)

/-- The context of a request is changed. -/
def mapContext (f : PaneContext → PaneContext) (q : QueuedRequest) : QueuedRequest :=
  { q with submission := { q.submission with paneContext := q.submission.paneContext.map f } }

/-- The pane that the test of `invalidate_pending_autofix_source` is about. -/
def concerns (pane : List Char) (q : QueuedRequest) : Bool := q.source.all (· == pane)

/-- The text that `recall_last_pending_input` begins with. -/
def recalledText (q : QueuedRequest) : List Char :=
  q.restoreText.getD
    (if q.kind = .manualFix then "/fix ".toList ++ q.submission.text else q.displayText)

end QueuedRequest

/-! ### The queue -/

structure PromptQueue where
  entries : List QueuedRequest := []
  paused : Bool := false

namespace PromptQueue

def rename (queue : PromptQueue) (tabId : List Char) (windowId : Option (List Char)) :
    PromptQueue :=
  { queue with
    entries := queue.entries.map <| QueuedRequest.mapContext fun context =>
      { context with tabId := some tabId, windowId := windowId.or context.windowId } }

def pause (queue : PromptQueue) : PromptQueue :=
  let entries := queue.entries.filter fun entry => entry.kind ≠ .automaticFix
  { entries, paused := !entries.isEmpty }

def invalidateAutomatic (queue : PromptQueue) (pane : List Char) : PromptQueue :=
  { queue with
    entries := queue.entries.filter fun entry =>
      !(entry.kind == .automaticFix && entry.source == some pane) }

def canFit (queue : PromptQueue) (item : QueuedRequest) (pendingImageBytes : ℕ)
    (captures : List QueuedRequest) : Bool :=
  let kept := (queue.entries ++ captures).filter fun entry => !item.replacesAutomatic entry
  kept.length < maxRequests &&
    (kept.map (·.bytes)).sum + item.bytes + pendingImageBytes ≤ maxPayloadBytes

def insert (queue : PromptQueue) (item : QueuedRequest) : PromptQueue :=
  if item.kind = .automaticFix then
    match queue.entries.findIdx? item.replacesAutomatic with
    | some index => { queue with entries := queue.entries.set index item }
    | none => { queue with entries := queue.entries ++ [item] }
  else
    let entries := queue.entries.filter fun entry => !item.replacesAutomatic entry
    let index := entries.findIdx fun entry =>
      entry.kind == .automaticFix || item.queuedAt < entry.queuedAt
    { queue with entries := entries.insertIdx index item }

/-- The last request that is not automatic, as `recall_last_pending_input` looks for it. -/
def lastUserRequest (queue : PromptQueue) : Option QueuedRequest :=
  (queue.entries.filter fun entry => entry.kind ≠ .automaticFix).getLast?

end PromptQueue

/-! ### The prompt -/

namespace TabSession

def inputHistoryMaxEntries : ℕ := 50

def recordInputHistory (t : TabSession) (input : List Char) : TabSession :=
  let t := t.resetInputUndoHistory.resetInputHistoryNavigation
  if input = [] then t
  else
    { t with
      inputHistory := { t.inputHistory with
        entries := (input :: t.inputHistory.entries.erase input).take inputHistoryMaxEntries } }

def discardInput (t : TabSession) : Option TabSession := t.clearInput.map (·.resetInputUndoHistory)

end TabSession

/-! ### The application -/

/-- A notice in the chat, by the key of its text. -/
inductive Notice
  | stopped
  | cancelled (count : ℕ)
  | resumeBlocked
  | draftBusy
  | full
  | enqueued
  | captureFailed (error : List Char)
  | connectionLost

/-- What other parts of the application decide: whether `ensure_prompt_connection` succeeds,
whether the barriers of `queue_dispatch_barriers_settled` other than the captures are settled,
whether `prompt_tx` is open, and what a new request records. -/
structure Surroundings where
  connected : Bool := true
  barriersSettled : Bool := false
  channelOpen : Bool := true
  sessionCommands : List (List Char) := []
  context : PaneContext := {}
  now : ℕ := 0

/-- The part of `struct App` for the queue of one tab. -/
structure App where
  tabId : List Char := []
  tab : TabSession := {}
  promptQueue : PromptQueue := {}
  pendingAutofixCaptures : List QueuedRequest := []
  messages : List Notice := []
  nextPromptId : ℕ := 1

namespace App

/-- `queue_notice`, and other notices. -/
def notify (app : App) (notice : Notice) : App :=
  { app with messages := app.messages ++ [notice] }

/-- `TabSession::pause_pending_prompts`. -/
def pausePendingPrompts (app : App) : App :=
  let promptQueue := app.promptQueue.pause
  let app' := { app with pendingAutofixCaptures := [], promptQueue }
  if promptQueue.paused && !app.promptQueue.paused then app'.notify .stopped else app'

/-- `TabSession::invalidate_pending_prompt_session`. -/
def invalidatePendingPromptSession (app : App) : App :=
  let app := app.pausePendingPrompts
  { app with
    promptQueue := { app.promptQueue with
      entries := app.promptQueue.entries.map fun entry =>
        if entry.kind = .manualFix then entry.requireResubmission else entry } }

/-- `TabSession::cancel_pending_prompts`. -/
def cancelPendingPrompts (app : App) : App :=
  let discarded := app.promptQueue.entries.length
  let app := { app with pendingAutofixCaptures := [], promptQueue := {} }
  if 0 < discarded then app.notify (.cancelled discarded) else app

/-- `queue_dispatch_barriers_settled`. -/
def barriersSettled (w : Surroundings) (app : App) : Bool :=
  w.barriersSettled && app.pendingAutofixCaptures.isEmpty

/-- `dispatch_prompt_queues`, for the tab. -/
def dispatchPromptQueues (w : Surroundings) (app : App) : App :=
  if app.promptQueue.paused || !app.barriersSettled w then app
  else
    match app.promptQueue.entries with
    | [] => app
    | item :: entries =>
      if item.needsResubmission then app
      else if w.channelOpen then { app with promptQueue := { app.promptQueue with entries } }
      else
        let item := item.mapContext fun context => { context with tabId := some app.tabId }
        let app := { app with promptQueue := { app.promptQueue with entries := item :: entries } }
        (app.notify .connectionLost).pausePendingPrompts

def pendingQueueCanResume (w : Surroundings) (app : App) : Bool :=
  app.promptQueue.paused && !app.promptQueue.entries.isEmpty && w.channelOpen &&
    !app.promptQueue.entries.any (·.needsResubmission) && app.barriersSettled w

def resumePendingInputs (w : Surroundings) (app : App) : App :=
  if !app.pendingQueueCanResume w then app.notify .resumeBlocked
  else
    { app with promptQueue := { app.promptQueue with paused := false } }.dispatchPromptQueues w

def notifyQueuedInput (app : App) (requestId : ℕ) : App :=
  if app.promptQueue.entries.any fun entry => entry.submission.id = requestId then
    app.notify (if app.promptQueue.paused then .stopped else .enqueued)
  else app

/-- `item` in `enqueue_input`, before it gets its images. -/
def inputRequest (w : Surroundings) (app : App) (manualFix : Option (List Char))
    (historyText : List Char) : QueuedRequest :=
  let kind : RequestKind :=
    if manualFix.isSome then .manualFix
    else if (agentCommandForInput w.sessionCommands historyText).isSome then .agentCommand
    else .prompt
  let text := match manualFix with
    | some hint => (((parse historyText).filter (·.1 = .fix)).map (·.2)).getD hint
    | none => historyText
  { submission :=
      { id := app.nextPromptId
        text
        paneContext := some { w.context with tabId := some app.tabId }
        autofixTextKind := if kind = .manualFix then some .userRequest else none
        agentCommand := kind = .agentCommand }
    displayText := if kind = .manualFix then "/fix ".toList ++ text else app.tab.input
    kind
    queuedAt := w.now
    restoreText := if kind = .manualFix ∧ app.tab.input ≠ [] then some app.tab.input else none
    imageTokenRanges := app.tab.attachments.tokenRanges }

/-- The images are moved into a request. -/
def withImages (item : QueuedRequest) (images : List PastedImage) : QueuedRequest :=
  { item with submission := { item.submission with images } }

/-- A request of the user joins the captures or the queue. -/
def admitRequest (app : App) (item : QueuedRequest) : App :=
  if item.kind = .manualFix then
    { app with pendingAutofixCaptures := app.pendingAutofixCaptures ++ [item] }
  else { app with promptQueue := app.promptQueue.insert item }

/-- Whether `enqueue_input` gets past its checks. -/
def accepts (w : Surroundings) (app : App) (manualFix : Option (List Char)) : Bool :=
  w.connected && (app.tab.attachments.submissionText app.tab.input).any fun historyText =>
    app.promptQueue.canFit (app.inputRequest w manualFix historyText)
      app.tab.attachments.payloadBytes app.pendingAutofixCaptures

def enqueueInput (w : Surroundings) (app : App) (manualFix : Option (List Char)) : Option App :=
  if !w.connected then some (app.notify .connectionLost)
  else do
    let historyText ← app.tab.attachments.submissionText app.tab.input
    let item := app.inputRequest w manualFix historyText
    let app := { app with nextPromptId := app.nextPromptId + 1 }
    if !app.promptQueue.canFit item app.tab.attachments.payloadBytes app.pendingAutofixCaptures then
      some (app.notify .full)
    else do
      let (images, attachments) := app.tab.attachments.takeImages
      let tab ← ({ app.tab.resetInputUndoHistory with attachments }.recordInputHistory
        historyText).discardInput
      let app := { app with tab }.admitRequest (withImages item images)
      some ((app.dispatchPromptQueues w).notifyQueuedInput item.submission.id)

/-- `item` in `enqueue_autofix`. -/
def autofixRequest (w : Surroundings) (app : App) (pane summary : List Char) (forced : Bool) :
    QueuedRequest where
  submission :=
    { id := app.nextPromptId
      text := summary
      paneContext := some { w.context with
        tabId := some app.tabId, cwd := none, sourcePaneId := some pane }
      autofixTextKind := some .failureSummary }
  displayText := summary
  kind := if forced then .manualFix else .automaticFix
  queuedAt := w.now

def enqueueAutofix (w : Surroundings) (app : App) (pane summary : List Char) (forced : Bool) :
    App :=
  if !forced && app.promptQueue.paused then app
  else if !w.connected then app.notify .connectionLost
  else
    let item := app.autofixRequest w pane summary forced
    let app := { app with nextPromptId := app.nextPromptId + 1 }
    if !app.promptQueue.canFit item 0 app.pendingAutofixCaptures then app.notify .full
    else
      { app with
        pendingAutofixCaptures :=
          (app.pendingAutofixCaptures.filter fun entry => !item.replacesAutomatic entry) ++
            [item] }

/-- `autofix_snapshot_ready`; an error that the snapshot makes the queue too full has the text of
`Notice.full`, which is not looked at. -/
def autofixSnapshotReady (w : Surroundings) (app : App) (requestId : ℕ)
    (result : Except (List Char) AutofixSnapshot) : App :=
  match app.pendingAutofixCaptures.findIdx? fun entry => entry.submission.id = requestId with
  | none => app
  | some index =>
    match app.pendingAutofixCaptures[index]? with
    | none => app
    | some item =>
      let app := { app with pendingAutofixCaptures := app.pendingAutofixCaptures.eraseIdx index }
      match result with
      | .error error => (app.dispatchPromptQueues w).notify (.captureFailed error)
      | .ok snapshot =>
        let item := item.mapContext fun context =>
          { context with sourcePaneId := some snapshot.sourcePaneId }
        let item : QueuedRequest :=
          { item with submission := { item.submission with autofixSnapshot := some snapshot } }
        if app.promptQueue.canFit item 0 app.pendingAutofixCaptures then
          let app := { app with promptQueue := app.promptQueue.insert item }.dispatchPromptQueues w
          if item.kind = .manualFix ∧ item.submission.autofixTextKind = some .userRequest then
            app.notifyQueuedInput requestId
          else app
        else (app.dispatchPromptQueues w).notify (.captureFailed "queue.full".toList)

/-- What `invalidate_pending_autofix_source` does to the captures; its notices carry the pane. -/
def invalidateCaptures (app : App) (pane : List Char) : App :=
  let (invalid, captures) := app.pendingAutofixCaptures.partition (·.concerns pane)
  let app := { app with pendingAutofixCaptures := captures }
  if invalid.any (·.kind = .manualFix) then app.notify (.captureFailed pane) else app

/-- What `invalidate_pending_autofix_source` does to the queue. -/
def invalidateEntries (app : App) (pane : List Char) (closed : Bool) : App :=
  let affected := fun entry : QueuedRequest =>
    entry.concerns pane && entry.kind == .manualFix && closed
  if app.promptQueue.entries.any affected then
    let app := app.notify (.captureFailed pane)
    { app with
      promptQueue := { app.promptQueue with
        entries := app.promptQueue.entries.map fun entry =>
          if affected entry then entry.requireResubmission else entry } }.pausePendingPrompts
  else { app with promptQueue := app.promptQueue.invalidateAutomatic pane }

def invalidatePendingAutofixSource (app : App) (pane : List Char) (closed : Bool) : App :=
  (app.invalidateCaptures pane).invalidateEntries pane closed

/-- What the session of a tab does when the tab is renamed. -/
def rename (app : App) (tabId : List Char) (windowId : Option (List Char)) : App :=
  { app with
    tabId
    promptQueue := app.promptQueue.rename tabId windowId
    pendingAutofixCaptures :=
      app.pendingAutofixCaptures.map <| QueuedRequest.mapContext fun context =>
        { context with tabId := some tabId, windowId := windowId.or context.windowId } }

/-! ### Recalling -/

/-- The body of the loop of `recall_last_pending_input` over the images; a position that would be
negative panics. -/
def restoreImage (env : Env) (state : PendingAttachments × List Char × ℕ × ℕ)
    (pair : PastedImage × Range) : Option (PendingAttachments × List Char × ℕ × ℕ) := do
  let (attachments, input, removedBytes, insertedBytes) := state
  let (image, range) := pair
  if range.start < removedBytes then none
  else do
    let cursor := range.start - removedBytes + insertedBytes
    let before := len input
    let (attachments, input, _) ← attachments.insertImage env input cursor image
    some (attachments, input, removedBytes + (range.stop - range.start),
      insertedBytes + (len input - before))

/-- The draft that `recall_last_pending_input` makes of a request. -/
def restoreDraft (env : Env) (attachments : PendingAttachments) (item : QueuedRequest) :
    Option (PendingAttachments × List Char) := do
  let input ← item.imageTokenRanges.reverse.foldlM (fun input range => replaceRange input range [])
    item.recalledText
  let (attachments, input, _, _) ←
    (item.submission.images.zip item.imageTokenRanges).foldlM (restoreImage env)
      (attachments, input, 0, 0)
  some (attachments, input)

def recallLastPendingInput (env : Env) (app : App) : Option App :=
  if app.tab.input ≠ [] ∨ app.tab.attachments.images ≠ [] then some (app.notify .draftBusy)
  else
    match app.promptQueue.lastUserRequest with
    | none => some app
    | some last =>
      match app.promptQueue.entries.findIdx? fun entry =>
        entry.submission.id = last.submission.id with
      | none => some app
      | some index =>
        match app.promptQueue.entries[index]? with
        | none => some app
        | some item => do
          let entries := app.promptQueue.entries.eraseIdx index
          let tab := app.tab.resetInputUndoHistory
          let (attachments, input) ← restoreDraft env tab.attachments item
          some { app with
            tab := { tab with
              attachments, input, cursorPos := len input, inputAllSelected := false }
            promptQueue := { entries, paused := app.promptQueue.paused && !entries.isEmpty } }

end App

/-! ### Runs -/

/-- What can happen to the queue of a tab, to its draft, and to the counter. -/
inductive Action
  | edit (tab : TabSession)
  | otherPrompt
  | enqueueInput (w : Surroundings) (manualFix : Option (List Char))
  | enqueueAutofix (w : Surroundings) (pane summary : List Char) (forced : Bool)
  | autofixSnapshotReady (w : Surroundings) (requestId : ℕ)
      (result : Except (List Char) AutofixSnapshot)
  | dispatchPromptQueues (w : Surroundings)
  | pausePendingPrompts
  | invalidatePendingPromptSession
  | cancelPendingPrompts
  | resumePendingInputs (w : Surroundings)
  | invalidatePendingAutofixSource (pane : List Char) (closed : Bool)
  | rename (tabId : List Char) (windowId : Option (List Char))
  | recallLastPendingInput

/-- One action. The editor may leave any draft behind. -/
def App.step (env : Env) (app : App) : Action → Option App
  | .edit tab => some { app with tab }
  | .otherPrompt => some { app with nextPromptId := app.nextPromptId + 1 }
  | .enqueueInput w manualFix => app.enqueueInput w manualFix
  | .enqueueAutofix w pane summary forced => some (app.enqueueAutofix w pane summary forced)
  | .autofixSnapshotReady w requestId result => some (app.autofixSnapshotReady w requestId result)
  | .dispatchPromptQueues w => some (app.dispatchPromptQueues w)
  | .pausePendingPrompts => some app.pausePendingPrompts
  | .invalidatePendingPromptSession => some app.invalidatePendingPromptSession
  | .cancelPendingPrompts => some app.cancelPendingPrompts
  | .resumePendingInputs w => some (app.resumePendingInputs w)
  | .invalidatePendingAutofixSource pane closed =>
    some (app.invalidatePendingAutofixSource pane closed)
  | .rename tabId windowId => some (app.rename tabId windowId)
  | .recallLastPendingInput => app.recallLastPendingInput env

def App.run (env : Env) (app : App) (actions : List Action) : Option App :=
  actions.foldlM (App.step env) app

end IntelligentTerminal.Editor
