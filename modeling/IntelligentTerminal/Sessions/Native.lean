import Mathlib.Data.List.Sort
import IntelligentTerminal.Sessions.RegistryEvent

/-!
# Native panes in the master's registry

A pane whose agent is observed by the terminal itself is a native pane. `reset` observations
establish an epoch and switch a pane between native observation and hooks; other observations are
admitted in their epoch only. Listings of an agent's own sessions may say which session runs in a
native pane.

Source: `tools/wta/src/session_registry.rs`, lines 2164-2439 and 3107-3640.
-/

namespace IntelligentTerminal.Sessions

/-- `SessionHookCliSource::Known`, as a `CliSource`. -/
def CliSource.ofKnown (value : String) : CliSource :=
  if value = "Claude" ∨ value = "claude" then .claude
  else if value = "Codex" ∨ value = "codex" then .codex
  else if value = "Copilot" ∨ value = "copilot" then .copilot
  else if value = "Gemini" ∨ value = "gemini" then .gemini
  else if value = "OpenCode" ∨ value = "opencode" then .openCode
  else if value = "Antigravity" ∨ value = "antigravity" then .antigravity
  else .unknown value

namespace RegistryState

variable (crates : Crates)

/-! ### A pane that was born with its session -/

/-- The row keeps its own pane, or it belongs to an agent pane. -/
def refusesBirth (s : RegistryState) (identity : SessionIdentity) (pane : String) : Bool :=
  (s.sessions.lookup identity).any fun row =>
    row.origin = some .agentPane ∨
      ((row.paneSessionId.any fun owner => crates.paneKey owner ≠ pane) ∧ !row.isOver)

/-- The admitted native pane is of another provider, place or session. -/
def conflictsWithNative (s : RegistryState) (key : HistoryRowKey) (pane : String) : Bool :=
  (s.nativePanes.lookup pane).any fun native =>
    native.observation.providerId ≠ key.providerId ∨
      (native.observation.location.any fun location => location ≠ key.location) ∨
      (native.observation.agentSessionId.any fun id => id ≠ key.sessionId)

/-- The owner of the native pane may be replaced by what is started in the foreground. -/
def authorizesReplacement (s : RegistryState) (previous : SessionIdentity) (pane : String)
    (modeEpoch : Option ℕ) (predecessor : Option NativePaneBindingPredecessor) : Bool :=
  (s.nativePanes.lookup pane).any fun native =>
    native.boundIdentity = some previous ∧
      s.nativeBoundIdentity crates native.observation = some previous ∧
      (predecessor.any fun expected =>
        expected.agentSessionId = previous.sessionId ∧
          expected.modeEpoch = native.observation.modeEpoch) ∧
      (modeEpoch.any fun epoch => native.observation.modeEpoch < epoch)

/-- The owner that is replaced gives up its pane, without an end. -/
def detachPrevious (s : RegistryState) (previous : SessionIdentity) (pane : String) :
    RegistryState :=
  { s with
    activeByPane := s.activeByPane.erase pane
    sessions := s.sessions.adjust previous fun row =>
      { row with paneSessionId := none, status := some .historical, bornBoundPane := false } }

/-- The row of a session that is born in a native pane. -/
def bornRow (identity : SessionIdentity) (key : HistoryRowKey) (cwd : PathBuf) (clock : ℕ) :
    SessionInfo :=
  { SessionInfo.new identity.sessionId cwd with
    providerId := some key.providerId, cliSource := some (CliSource.ofKnown key.providerId)
    location := key.location, sessionUniverse := key.sessionUniverse, status := some .idle
    lastActivityAtMs := some clock }

/-- The native pane of an owner that was replaced is that of its successor. -/
def succeedNative (s : RegistryState) (identity : SessionIdentity) (key : HistoryRowKey)
    (pane : String) (clock : ℕ) : RegistryState :=
  match s.sessions.lookup identity with
  | none => s
  | some row =>
    { s with
      nativePanes := s.nativePanes.adjust pane fun native =>
        { native with
          boundIdentity := some identity
          observation :=
            { native.observation with
              agentSessionId := some identity.sessionId, inferredAgentSessionId := none
              inferredHistoryKey := none, providerId := key.providerId
              location := some key.location, status := row.status.getD .idle
              lastActivityAtMs := row.lastActivityAtMs.getD clock } } }

/-- The second half of `register_native_born_binding_locked`: the pane is bound. -/
def bindBorn (s : RegistryState) (identity : SessionIdentity) (pane : String) (created : Bool)
    (clock : ℕ) : RegistryState × Bool :=
  let (s, assigned) := s.assignResumePaneIdentityLocked crates identity pane clock clock
  let confirmed := (s.sessions.lookup identity).any fun row =>
    row.paneSessionId = some pane ∧ !row.bornBoundPane
  let s :=
    { s with
      sessions := s.sessions.adjust identity fun row =>
        if row.paneSessionId = some pane then { row with bornBoundPane := true } else row }
  let bindNative := (s.nativePanes.lookup pane).any fun native =>
    native.boundIdentity = none ∧ s.nativeBoundIdentity crates native.observation = some identity
  let s :=
    if bindNative then
      { s with
        nativePanes := s.nativePanes.adjust pane fun native =>
          { native.clearInferred with boundIdentity := some identity } }
    else s
  (s, created || assigned || confirmed || bindNative)

def registerNativeBornBindingLocked (s : RegistryState) (identity : SessionIdentity)
    (pane : String) (cwd : PathBuf) (modeEpoch : Option ℕ)
    (predecessor : Option NativePaneBindingPredecessor) (clock : ℕ) : RegistryState × Bool :=
  match identity.historyKey with
  | none => (s, false)
  | some key =>
    if key.sessionId ≠ identity.sessionId ∨ !key.location.isActionable ∨ pane = "" then (s, false)
    else
      let pane := crates.paneKey pane
      if (identity, pane) ∈ s.failedResumeAssignments then (s, false)
      else if s.refusesBirth crates identity pane then (s, false)
      else
        let previous := (s.activeByPane.lookup pane).filter fun owner => owner ≠ identity
        if (previous = none ∧ s.conflictsWithNative key pane) ∨
            (previous.any fun previous =>
              !s.authorizesReplacement crates previous pane modeEpoch predecessor) then
          (s, false)
        else
          let s := previous.elim s fun previous => s.detachPrevious previous pane
          let created := (s.sessions.lookup identity).isNone
          let s := if created then s.upsertLocked crates (bornRow identity key cwd clock) else s
          let s := if previous.isSome then s.succeedNative identity key pane clock else s
          s.bindBorn crates identity pane created clock

/-! ### Observations -/

def oscActivity : Option ℕ → Option AgentStatus
  | some 0 | some 4 => some .idle
  | some 1 | some 3 => some .working
  | _ => none

/-- The observation is well formed. -/
def isValidObservation (paneId : Uuid) (provider : String) (event : NativeAgentObservation) :
    Bool :=
  paneId ≠ 0 && trim event.tabId ≠ "" &&
    (isKnownId provider ||
      (stripPrefix provider "custom:").any fun name =>
        trim name ≠ "" && !(provider.toList.any fun c => c = '\r' || c = '\n' || c = '\t')) &&
    event.agentSessionId.all fun id => trim id ≠ "" && !startsWith id "pane:"

/-- An observation of a pane that is tracked by hooks. -/
def applyHookProgress (s : RegistryState) (pane provider : String)
    (admission event : NativeAgentObservation) : RegistryState × Bool :=
  if admission.modeEpoch ≠ event.modeEpoch ∨ admission.providerId ≠ provider ∨
      admission.windowId ≠ event.windowId ∨ admission.tabId ≠ event.tabId ∨
      admission.agentSessionId ≠ event.agentSessionId ∨ admission.location ≠ event.location then
    (s, false)
  else
    match event.event with
    | .progress progressState =>
      if progressState ≤ 4 then
        ({ s with
            hookPaneProgress := s.hookPaneProgress.insert pane
              { admission with currentProgressState := some progressState } },
          decide (oscActivity admission.currentProgressState ≠ oscActivity (some progressState)))
      else (s, false)
    | .removed => ({ s with hookPaneProgress := s.hookPaneProgress.erase pane }, true)
    | _ => (s, false)

/-- `NativeObservationKind::Reset`. -/
def isReset (event : NativeAgentObservation) : Bool :=
  match event.event with
  | .reset _ => true
  | _ => false

/-- The fence of epochs: a reset is newer than all before it, and any other observation is of the
pane's own epoch, window, tab and session. -/
def admits (s : RegistryState) (paneId : Uuid) (pane provider : String)
    (event : NativeAgentObservation) : Bool :=
  let old := s.nativePanes.lookup pane
  if isReset event then
    !(old.any fun old => event.modeEpoch ≤ old.observation.modeEpoch) &&
      !((s.nativeRetiredEpochs.lookup paneId).any fun epoch => event.modeEpoch ≤ epoch)
  else
    old.any fun old =>
      old.observation.modeEpoch = event.modeEpoch ∧ old.observation.providerId = provider ∧
        old.observation.windowId = event.windowId ∧ old.observation.tabId = event.tabId ∧
        (event.agentSessionId.all fun id => old.observation.agentSessionId = some id) ∧
        (event.location.all fun location => old.observation.location.all fun old => old = location)

/-- The status that is observed, whether the pane is native afterwards, and whether it is gone. -/
def observedStatus : NativeObservationKind → Option (AgentStatus × Bool × Bool)
  | .reset trackingEnabled => some (.idle, !trackingEnabled, false)
  | .progress 0 | .progress 4 => some (.idle, true, false)
  | .progress 1 | .progress 3 => some (.working, true, false)
  | .progress 2 => some (.error, true, false)
  | .progress _ => none
  | .bell => some (.attention, true, false)
  | .removed => some (.ended, false, true)

def newObservation (old : Option NativePaneState) (pane provider : String)
    (event : NativeAgentObservation) (status : AgentStatus) (clock : ℕ) : NativePaneObservation :=
  let reset := isReset event
  { paneId := pane
    providerId := provider
    windowId := event.windowId
    tabId := event.tabId
    modeEpoch := event.modeEpoch
    cwd :=
      if reset then event.launchCwd.filter fun cwd => cwd ≠ []
      else old.bind fun old => old.observation.cwd
    agentSessionId := event.agentSessionId.or
      (if reset then none else old.bind fun old => old.observation.agentSessionId)
    location := event.location.or (old.bind fun old => old.observation.location)
    paneCreatedAtMs := (old.bind fun old => old.observation.paneCreatedAtMs).or event.paneCreatedAtMs
    paneCreationSequence :=
      (old.bind fun old => old.observation.paneCreationSequence).or event.paneCreationSequence
    status
    lastActivityAtMs := clock }

/-- The session that the pane is bound to. -/
def observedIdentity (s : RegistryState) (old : Option NativePaneState) (reset : Bool)
    (observation : NativePaneObservation) : Option SessionIdentity :=
  let found := s.nativeBoundIdentity crates observation
  if reset then found
  else
    ((old.bind (·.boundIdentity)).filter fun identity => found = some identity).or
      (observation.agentSessionId.bind fun _ => found)

/-- The same owner is admitted again: not a new baseline of activity. -/
def isContinuation (old : Option NativePaneState) (reset active : Bool)
    (observation : NativePaneObservation) (boundIdentity : Option SessionIdentity) : Bool :=
  reset && active &&
    old.any fun old =>
      old.observation.providerId = observation.providerId ∧
        old.observation.agentSessionId = observation.agentSessionId ∧
        (old.observation.location = observation.location ∨ old.observation.location = none) ∧
        old.boundIdentity = boundIdentity

/-- What is kept of the old observation. -/
def carryOver (s : RegistryState) (old : Option NativePaneState) (reset continuation : Bool)
    (boundIdentity : Option SessionIdentity) (observation : NativePaneObservation) :
    NativePaneObservation :=
  match old with
  | none => observation
  | some old =>
    let row := boundIdentity.bind fun identity => s.sessions.lookup identity
    let observation :=
      if continuation then
        { observation with
          status := (row.bind (·.status)).getD old.observation.status
          lastActivityAtMs := (row.bind (·.lastActivityAtMs)).getD old.observation.lastActivityAtMs }
      else observation
    if !reset || continuation then
      { observation with
        inferredAgentSessionId := old.observation.inferredAgentSessionId
        inferredHistoryKey := old.observation.inferredHistoryKey }
    else observation

/-- A live session has the pane. -/
def hasActiveRow (s : RegistryState) (pane : String) : Bool :=
  s.sessions.values.any fun row =>
    row.activeSourcePaneSession && row.paneSessionId.any fun value => crates.paneKey value = pane

/-- The one row without a pane that the terminal has resumed. -/
def historyCandidate (s : RegistryState) (observation : NativePaneObservation) :
    Option SessionIdentity :=
  observation.agentSessionId.bind fun id =>
    observation.location.bind fun location =>
      if location.isActionable then
        (only (s.sessions.entries.filter fun e =>
          e.2.sessionId = id ∧ e.2.providerId = some observation.providerId ∧
            e.2.location = location ∧ e.2.origin ≠ some .agentPane ∧
            e.2.paneSessionId = none)).map (·.1)
      else none

/-- Binds the history row that the terminal has resumed. -/
def bindHistoryRow (s : RegistryState) (pane : String) (reset active : Bool)
    (observation : NativePaneObservation) (boundIdentity : Option SessionIdentity) (clock : ℕ) :
    RegistryState × Option SessionIdentity :=
  if reset ∧ active ∧ boundIdentity = none ∧ !s.hasActiveRow crates pane then
    match s.historyCandidate observation with
    | none => (s, boundIdentity)
    | some identity =>
      let s := (s.assignResumePaneIdentityLocked crates identity pane
        observation.lastActivityAtMs clock).1
      (s, s.nativeBoundIdentity crates observation)
  else (s, boundIdentity)

/-- What the observation makes of the bound row. A question that is known to wait is not answered
by progress of the terminal. -/
def observeRow (row : SessionInfo) (genericActivity : Bool) (status : AgentStatus)
    (activityAtMs : ℕ) : SessionInfo :=
  let canonicalAttention : Bool :=
    row.status = some .attention && (row.attentionReason.isSome || row.currentTool.any isUserInputTool)
  if genericActivity && canonicalAttention then row
  else
    { row with
      status := some status, currentTool := none, attentionReason := none, lastError := none
      lastActivityAtMs := some activityAtMs }

/-- `BEL` and the progress states that any program may report. -/
def isGenericActivity : NativeObservationKind → Bool
  | .bell | .progress 0 | .progress 1 | .progress 3 | .progress 4 => true
  | _ => false

def updateBoundRow (s : RegistryState) (pane : String) (event : NativeAgentObservation)
    (status : AgentStatus) (active continuation removed : Bool)
    (boundIdentity : Option SessionIdentity) (activityAtMs : ℕ) : RegistryState :=
  match boundIdentity with
  | none => s
  | some identity =>
    let connectionFailed : Bool :=
      match s.paneConnections.lookup pane with
      | some (.failed _ _) => true
      | _ => false
    if removed then (s.endEntry crates identity activityAtMs).1
    else if active && !continuation && !connectionFailed then
      { s with
        sessions := s.sessions.adjust identity fun row =>
          observeRow row (isGenericActivity event.event) status activityAtMs }
    else s

/-- Admits the pane as a native one, or retires its epoch. -/
def commitNative (s : RegistryState) (paneId : Uuid) (pane : String)
    (event : NativeAgentObservation) (active : Bool) (native : NativePaneState) : RegistryState :=
  if active then
    { s with
      hookPaneProgress := s.hookPaneProgress.erase pane
      nativeRetiredEpochs := s.nativeRetiredEpochs.erase paneId
      nativePanes := s.nativePanes.insert pane native }
  else
    { s with
      nativePanes := s.nativePanes.erase pane
      hookPaneProgress :=
        if event.event = .reset true then
          (s.hookPaneProgress.erase pane).insert pane
            { event with providerId := native.observation.providerId }
        else s.hookPaneProgress.erase pane
      nativeRetiredEpochs := s.nativeRetiredEpochs.insert paneId
        (((s.nativeRetiredEpochs.lookup paneId).map
          (max · native.observation.modeEpoch)).getD native.observation.modeEpoch) }

/-- The second half of `apply_native_observation_locked`: the observation was admitted. -/
def observeNative (s : RegistryState) (paneId : Uuid) (pane provider : String)
    (event : NativeAgentObservation) (clock : ℕ) : RegistryState × Bool :=
  match observedStatus event.event with
  | none => (s, false)
  | some (status, active, removed) =>
    let reset := isReset event
    let old := s.nativePanes.lookup pane
    let observation := newObservation old pane provider event status clock
    let boundIdentity := s.observedIdentity crates old reset observation
    if reset ∧ active ∧ observation.agentSessionId.isSome ∧
        (old.any fun old => old.boundIdentity.any fun owner =>
          s.activeByPane.lookup pane = some owner ∧ boundIdentity ≠ some owner) then
      -- another session needs its birth first
      (s, false)
    else
      let continuation := isContinuation old reset active observation boundIdentity
      let observation := s.carryOver old reset continuation boundIdentity observation
      let inferenceBlocked := (!reset || continuation) && old.any (·.inferenceBlocked)
      let (s, boundIdentity) :=
        s.bindHistoryRow crates pane reset active observation boundIdentity clock
      let native : NativePaneState := { observation, boundIdentity, inferenceBlocked }
      let native := if boundIdentity.isSome then native.clearInferred else native
      let s := s.updateBoundRow crates pane event status active continuation removed boundIdentity
        observation.lastActivityAtMs
      (s.commitNative paneId pane event active native, true)

def applyNativeObservationLocked (s : RegistryState) (event : NativeAgentObservation)
    (clock : ℕ) : RegistryState × Bool :=
  match crates.parseStr event.paneId with
  | none => (s, false)
  | some paneId =>
    let provider := toAsciiLowercase (trim event.providerId)
    if !isValidObservation paneId provider event then (s, false)
    else
      let pane := crates.hyphenated paneId
      match if isReset event then none else s.hookPaneProgress.lookup pane with
      | some admission => s.applyHookProgress pane provider admission event
      | none =>
        if s.admits paneId pane provider event then
          s.observeNative crates paneId pane provider event clock
        else (s, false)

/-! ### Activity that a watcher reports -/

def applyNativeWatcherActivity (s : RegistryState) (cli : CliSource) (key : String)
    (event : SessionEvent) (now : ℕ) : RegistryState × Option Bool :=
  let owners := s.nativePanes.values.filter fun native =>
    native.boundIdentity.any fun identity => identity.sessionId = key
  if owners = [] then (s, none)
  else
    let found := owners.filterMap fun native =>
      native.boundIdentity.bind fun identity =>
        (s.sessions.lookup identity).bind fun row =>
          if cli.canonicalProviderId = some native.observation.providerId ∧
              row.location = .host ∧ row.sessionUniverse = none ∧
              s.nativeBoundIdentity crates native.observation = some identity then
            some identity
          else none
    match only found with
    | none => (s, some false)
    | some identity =>
      match event with
      | .toolStarting eventKey _ | .toolCompleted eventKey | .notification eventKey _ _ =>
        if eventKey ≠ key then (s, some false)
        else
          let (s, applied) := s.applyEventQualifiedAtMs crates event (some identity) now now
          (s, some applied)
      | _ => (s, some false)

def refineNativeLaunchSource (s : RegistryState) (pane provider : String)
    (location : SessionLocation) : RegistryState × Bool :=
  if !location.isActionable then (s, false)
  else
    match s.nativePanes.lookup (crates.paneKey pane) with
    | none => (s, false)
    | some native =>
      if native.observation.providerId ≠ toAsciiLowercase (trim provider) ∨
          native.observation.agentSessionId.isSome ∨ native.boundIdentity.isSome ∨
          native.observation.location.any SessionLocation.isActionable then
        (s, false)
      else
        ({ s with
            nativePanes := s.nativePanes.insert (crates.paneKey pane)
              { native with
                observation := { native.observation with location := some location } } },
          true)

/-! ### Listings -/

def startupWindowMs : ℕ := 5 * 60 * 1000

/-- A pane that waits for its session: when it was created, its place in the order of creation and
its id. -/
abbrev PendingPane := ℕ × ℕ × String

/-- The order in which panes are created. -/
def PendingPane.le (a b : PendingPane) : Bool :=
  a.1 < b.1 || (a.1 = b.1 && (a.2.1 < b.2.1 || (a.2.1 = b.2.1 && decide (a.2.2 ≤ b.2.2))))

/-- The native panes of the scope without a session, in the order of their creation. -/
def pendingPanes (s : RegistryState) (scope : String × SessionLocation) (startedAtMs : ℕ) :
    List PendingPane :=
  (s.nativePanes.entries.filterMap fun e =>
    let row := e.2.observation
    row.paneCreatedAtMs.bind fun birth =>
      row.paneCreationSequence.bind fun sequence =>
        if row.providerId = scope.1 ∧ row.location = some scope.2 ∧ row.agentSessionId = none ∧
            e.2.boundIdentity = none ∧ row.inferredAgentSessionId = none ∧
            !e.2.inferenceBlocked ∧ birth ≤ startedAtMs ∧ startedAtMs - birth ≤ startupWindowMs then
          some (birth, sequence, e.1)
        else none).insertionSort fun a b => a.le b

/-- The local variables of the loop over the rows of a listing. -/
structure ListingState where
  evidence : Table HistoryRowKey NativeListingEvidence
  candidates : List (ℕ × HistoryRowKey) := []
  ambiguous : Bool := false

/-- Something else may be meant by the row. -/
def isTaken (s : RegistryState) (rows : List SessionInfo) (row : SessionInfo)
    (key : HistoryRowKey) : Bool :=
  row.origin = some .agentPane || row.paneSessionId.isSome ||
    (s.nativePanes.values.any fun pane =>
      pane.observation.inferredAgentSessionId = some row.sessionId ||
        pane.observation.agentSessionId = some row.sessionId) ||
    (rows.filter fun other => other.sessionId = row.sessionId).length ≠ 1 ||
    ((s.identitiesByRaw.lookup row.sessionId).any fun identities =>
      identities.any fun identity => identity.historyKey ≠ some key)

/-- What a row with evidence says: it is skipped, it makes the listing ambiguous, or it is a
candidate. -/
def listEvidence (s : RegistryState) (rows : List SessionInfo) (firstBirth : Option ℕ)
    (row : SessionInfo) (key : HistoryRowKey) (evidence : NativeListingEvidence)
    (l : ListingState) : ListingState :=
  if firstBirth.all fun birth => evidence.firstObservedAtMs < birth then l
  else
    match evidence.providerActivityAtMs with
    | none => { l with ambiguous := true }
    | some activity =>
      if activity = 0 then { l with ambiguous := true }
      else if firstBirth.all fun birth => activity < birth then l
      else if evidence.firstObservedAtMs < activity then { l with ambiguous := true }
      else if s.isTaken rows row key then { l with ambiguous := true }
      else { l with candidates := l.candidates ++ [(activity, key)] }

/-- The body of the loop over the rows of a listing. -/
def listRow (s : RegistryState) (scope : String × SessionLocation) (rows : List SessionInfo)
    (previouslyListed : List String) (completedAtMs : ℕ) (firstBirth : Option ℕ)
    (l : ListingState) (row : SessionInfo) : ListingState :=
  match row.historyRowKey with
  | none => { l with ambiguous := l.ambiguous || !s.knownRawIds.contains row.sessionId }
  | some key =>
    if key.providerId ≠ scope.1 ∨ key.location ≠ scope.2 ∨ key.sessionUniverse.isSome then
      { l with ambiguous := true }
    else
      match l.evidence.lookup key with
      | some evidence => s.listEvidence rows firstBirth row key evidence l
      | none =>
        if previouslyListed.contains row.sessionId || s.knownRawIds.contains row.sessionId then l
        else
          let evidence : NativeListingEvidence :=
            { firstObservedAtMs := completedAtMs, providerActivityAtMs := row.lastActivityAtMs }
          s.listEvidence rows firstBirth row key evidence
            { l with evidence := l.evidence.insert key evidence }

/-- Evidence that is still young enough. -/
def retainEvidence (evidence : Table HistoryRowKey NativeListingEvidence) (completedAtMs : ℕ) :
    Table HistoryRowKey NativeListingEvidence :=
  (evidence.entries.filter fun e =>
    completedAtMs - e.2.firstObservedAtMs > startupWindowMs).foldl (fun t e => t.erase e.1) evidence

/-- Two neighbours in a list are related. -/
def anyNeighbours {α : Type*} (p : α → α → Bool) : List α → Bool
  | a :: b :: l => p a b || anyNeighbours p (b :: l)
  | _ => false

/-- The candidates do not say which pane is whose. -/
def rejectsListing (panes : List PendingPane) (candidates : List (ℕ × HistoryRowKey))
    (ambiguous : Bool) : Bool :=
  ambiguous || panes.length < candidates.length ||
    anyNeighbours (fun a b => a.1 = b.1) candidates ||
    anyNeighbours (fun a b => a.1 = b.1 && a.2.1 = b.2.1) panes ||
    (panes.zip candidates).any fun p =>
      p.2.1 < p.1.1 || p.2.1 - p.1.1 > startupWindowMs

/-- Blocks the panes of a listing that was rejected. -/
def blockPanes (s : RegistryState) (panes : List PendingPane) : RegistryState :=
  { s with
    nativePanes := panes.foldl (fun native pane =>
      native.adjust pane.2.2 fun native => { native with inferenceBlocked := true }) s.nativePanes }

/-- Notes which session is inferred to run in which pane. -/
def inferPanes (s : RegistryState) (panes : List PendingPane)
    (candidates : List (ℕ × HistoryRowKey)) : RegistryState :=
  { s with
    nativePanes := (panes.zip candidates).foldl (fun native p =>
      native.adjust p.1.2.2 fun native =>
        { native with
          observation :=
            { native.observation with
              inferredAgentSessionId := some p.2.2.sessionId
              inferredHistoryKey := some p.2.2 } }) s.nativePanes }

def enrichNativeFromListing (s : RegistryState) (provider : String) (location : SessionLocation)
    (rows : List SessionInfo) (previouslyListed : List String) (startedAtMs completedAtMs : ℕ)
    (listingComplete : Bool) : RegistryState × Bool :=
  let scope := (toAsciiLowercase provider, location)
  if !location.isActionable ∨ completedAtMs < startedAtMs ∨
      (s.nativeListingCompletedAt.lookup scope).any fun last => startedAtMs ≤ last then
    (s, false)
  else
    let s :=
      { s with
        nativeListingCompletedAt := s.nativeListingCompletedAt.insert scope completedAtMs
        nativeListingEvidence := retainEvidence s.nativeListingEvidence completedAtMs }
    let panes := s.pendingPanes scope startedAtMs
    let firstBirth := panes.head?.map (·.1)
    let l := rows.foldl (s.listRow scope rows previouslyListed completedAtMs firstBirth)
      { evidence := s.nativeListingEvidence }
    let s :=
      { s with
        nativeListingEvidence := l.evidence
        knownRawIds := rows.foldl (fun known row => known.insert row.sessionId) s.knownRawIds }
    if !listingComplete ∨ panes = [] then (s, false)
    else
      let candidates := l.candidates.insertionSort fun a b => a.1 ≤ b.1
      if rejectsListing panes candidates l.ambiguous then (s.blockPanes panes, false)
      else if candidates.length < panes.length then (s, false)
      else (s.inferPanes panes candidates, true)

end RegistryState

end IntelligentTerminal.Sessions
