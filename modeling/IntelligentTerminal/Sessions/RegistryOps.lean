import IntelligentTerminal.Sessions.Native

/-!
# The operations of the master's registry

`InMemoryRegistry` runs each operation under one lock, so a run of the registry is a sequence of
operations on its state. Each operation is given the time that it reads off the clock.

Source: `tools/wta/src/session_registry.rs`, lines 2087-2099, 2164-2192, 2375-2460 and 2523-3048.
-/

namespace IntelligentTerminal.Sessions

def SessionInfo.canRecoverCopilotPrompt (crates : Crates) (info : SessionInfo) : Bool :=
  info.providerId = some "copilot" && info.cliSource = some .copilot && info.location = .host &&
    info.sessionUniverse = none && info.origin ≠ some .agentPane &&
    info.status = some .historical && info.paneSessionId = none && !info.bornBoundPane &&
    info.lastError = none && (crates.parseStr info.sessionId).isSome

def titleIsSynthetic (crates : Crates) (info : SessionInfo) : Bool :=
  match info.title with
  | none => true
  | some t =>
    t = "" || t = (fileName info.cwd).getD "" ||
      info.cliSource.any fun cli => titleIsPlaceholder crates cli t

/-- A path that starts with a drive and a root. -/
def isAbsolute : PathBuf → Bool
  | .drive _ :: .rootDir :: _ => true
  | _ => false

namespace RegistryState

variable (crates : Crates)

/-! ### Rows -/

def upsertIfAbsent (s : RegistryState) (info : SessionInfo) : RegistryState :=
  if (s.sessions.lookup (SessionIdentity.fromInfo info)).isSome then s
  else s.upsertLocked crates info

def lookup (s : RegistryState) (sid : String) : Option SessionInfo :=
  (s.uniqueIdentityForRaw sid).bind fun identity => s.sessions.lookup identity

def remove (s : RegistryState) (sid : String) : RegistryState × Option SessionInfo :=
  match s.uniqueIdentityForRaw sid with
  | none => (s, none)
  | some identity => s.removeIdentityLocked crates identity

def removeIf (s : RegistryState) (sid : String) (predicate : SessionInfo → Bool) :
    RegistryState × Option SessionInfo :=
  match s.uniqueMatchingIdentityForRaw sid predicate with
  | none => (s, none)
  | some identity => s.removeIdentityLocked crates identity

def removeIdentityIf (s : RegistryState) (identity : SessionIdentity)
    (predicate : SessionInfo → Bool) : RegistryState × Option SessionInfo :=
  if (s.sessions.lookup identity).any predicate then s.removeIdentityLocked crates identity
  else (s, none)

def setOrigin (s : RegistryState) (sid : String) (origin : SessionOrigin) : RegistryState × Bool :=
  match s.uniqueIdentityForRaw sid with
  | none => (s, false)
  | some identity =>
    match s.sessions.lookup identity with
    | none => (s, false)
    | some entry =>
      if entry.origin = some origin then (s, false)
      else (s.setRow identity { entry with origin := some origin }, true)

def markResumeDispatched (s : RegistryState) (sid : String) (clock : ℕ) :
    RegistryState × Option (Bool × String) :=
  match s.uniqueIdentityForRaw sid with
  | none => (s, none)
  | some identity => s.markResumeDispatchedIdentityLocked crates identity clock

/-! ### Titles -/

def adoptAgentTitleIdentity (s : RegistryState) (identity : SessionIdentity) (candidate : String) :
    RegistryState × Bool :=
  if candidate = "" then (s, false)
  else
    match s.sessions.lookup identity with
    | none => (s, false)
    | some entry =>
      if entry.title = some candidate then (s, false)
      else (s.setRow identity { entry with title := some candidate }, true)

def adoptAgentTitle (s : RegistryState) (sid candidate : String) : RegistryState × Bool :=
  if candidate = "" then (s, false)
  else
    match s.uniqueIdentityForRaw sid with
    | none => (s, false)
    | some identity => s.adoptAgentTitleIdentity identity candidate

def upgradeTitleIfSyntheticIdentity (s : RegistryState) (identity : SessionIdentity)
    (candidate : String) : RegistryState × Bool :=
  if candidate = "" then (s, false)
  else
    match s.sessions.lookup identity with
    | none => (s, false)
    | some entry =>
      if !titleIsSynthetic crates entry ∨ entry.title = some candidate then (s, false)
      else (s.setRow identity { entry with title := some candidate }, true)

def upgradeTitleIfSynthetic (s : RegistryState) (sid candidate : String) : RegistryState × Bool :=
  if candidate = "" then (s, false)
  else
    match s.uniqueIdentityForRaw sid with
    | none => (s, false)
    | some identity => s.upgradeTitleIfSyntheticIdentity crates identity candidate

/-! ### Directories -/

def adoptAcpCwdIdentity (s : RegistryState) (identity : SessionIdentity) (revision : ℕ)
    (agentInstance : Uuid) (cwd : PathBuf) : RegistryState × Bool :=
  if !isAbsolute cwd then (s, false)
  else
    match s.sessions.lookup identity with
    | none => (s, false)
    | some row =>
      if row.cwdEvidence.revision ≠ revision ∨
          row.providerId ∉ [some "copilot", some "claude", some "opencode"] ∨
          row.location ≠ .host ∨ row.sessionUniverse.isSome ∨
          (row.paneSessionId.any fun pane =>
            s.activeByPane.lookup (crates.paneKey pane) ≠ some identity) then
        (s, false)
      else if row.cwd = cwd ∧ row.cwdEvidence.acp = some cwd ∧
          row.cwdEvidence.acpAgent = some agentInstance ∧ !row.cwdEvidence.hookAfterAcp then
        (s, false)
      else
        let s := s.advanceCwdRevision
        (s.setRow identity
          { row with
            cwd
            cwdEvidence :=
              { row.cwdEvidence with
                acp := some cwd, acpAgent := some agentInstance, hookAfterAcp := false
                revision := s.nextCwdRevision } },
          decide (row.cwd ≠ cwd))

def clearAcpCwdIdentity (s : RegistryState) (identity : SessionIdentity) (revision : ℕ) :
    RegistryState × Bool :=
  match s.sessions.lookup identity with
  | none => (s, false)
  | some row =>
    if row.cwdEvidence.revision ≠ revision ∨ row.cwdEvidence.acp = none then (s, false)
    else
      let s := s.advanceCwdRevision
      let newerHook := if row.cwdEvidence.hookAfterAcp then row.cwdEvidence.hook else none
      (s.setRow identity
        { row with
          cwd := newerHook.getD row.cwd
          cwdEvidence :=
            { row.cwdEvidence with
              acp := none, acpAgent := none, hookAfterAcp := false
              revision := s.nextCwdRevision } },
        newerHook.any fun hook => row.cwd ≠ hook)

/-! ### Panes -/

def recoverCopilotPrompt (s : RegistryState) (expected : SessionInfo) (paneSessionId : String)
    (cwd : PathBuf) (now : ℕ) : RegistryState × Bool :=
  if !expected.canRecoverCopilotPrompt crates ∨ (crates.parseStr paneSessionId).isNone ∨
      cwd = [] then
    (s, false)
  else
    let pane := crates.paneKey paneSessionId
    let identity := SessionIdentity.fromInfo expected
    if s.uniqueIdentityForRaw expected.sessionId ≠ some identity ∨
        !((s.sessions.lookup identity).any fun row => row.eq expected) ∨
        (s.activeByPane.lookup pane).isSome ∨ (s.nativePanes.lookup pane).isSome ∨
        (identity, pane) ∈ s.failedResumeAssignments ∨
        s.paneConnections.lookup pane ≠ some .connected then
      (s, false)
    else
      let (s, started) := s.applyEventQualifiedAtMs crates
        (.sessionStarted expected.sessionId .copilot pane cwd "") none now now
      if started then
        s.applyEventQualifiedAtMs crates (.toolStarting expected.sessionId "prompt") none now now
      else (s, false)

def recordPaneConnected (s : RegistryState) (paneSessionId : String) : RegistryState :=
  { s with
    paneConnections := s.paneConnections.insert (crates.paneKey paneSessionId) .connected }

/-- Whether the process of a pane is known to have started. -/
def processStarted (previous : Option PaneConnectionState) (started : Option Bool) : Option Bool :=
  match previous with
  | some .connected | some (.failed (some true) _) => some true
  | some (.failed previous _) => started.or previous
  | none => started

/-- The native pane takes over what became of its owner. -/
def reconcileNative (s : RegistryState) (pane : String) : RegistryState :=
  let owner := s.activeByPane.lookup pane
  let row := owner.bind fun identity => s.sessions.lookup identity
  { s with
    nativePanes := s.nativePanes.adjust pane fun native =>
      { native with
        boundIdentity := owner
        observation :=
          match row with
          | none => native.observation
          | some row =>
            { native.observation with
              status := row.status.getD .error
              lastActivityAtMs := row.lastActivityAtMs.getD native.observation.lastActivityAtMs } } }

def recordPaneConnectionFailure (s : RegistryState) (paneSessionId reason : String)
    (started : Option Bool) (now : ℕ) : RegistryState × Bool :=
  let pane := crates.paneKey paneSessionId
  let s :=
    { s with
      paneConnections := s.paneConnections.insert pane
        (.failed (processStarted (s.paneConnections.lookup pane) started) reason) }
  let (s, changed) := s.applyConnectionFailureLocked crates pane reason now
  (s.reconcileNative pane, changed)

structure BornBoundEventResult where
  applied : Bool
  nativePaneOwned : Bool
  rejected : Bool
deriving DecidableEq

def startedIdentity (provider : String) (location : SessionLocation) (key : AgentKey) :
    SessionIdentity where
  sessionId := key
  historyKey := HistoryRowKey.new provider location key none

/-- The last part of `apply_born_bound_event`: the event is an ordinary one. -/
def applyOrdinaryBornEvent (s : RegistryState) (ev : SessionEvent) (location : SessionLocation)
    (preserveLiveBinding : Bool) (now : ℕ) : RegistryState × BornBoundEventResult :=
  let sid :=
    match ev with
    | .sessionStarted key _ _ _ _ => some key
    | _ => none
  let (s, applied) :=
    if preserveLiveBinding then (s, false) else s.applyEventQualifiedAtMs crates ev none now now
  let (s, applied) :=
    match location, sid with
    | .wsl _, some sid =>
      let (s, moved) := s.setLocationLocked crates sid location
      (s, applied || moved)
    | _, _ => (s, applied)
  (s, { applied, nativePaneOwned := false, rejected := false })

def applyBornBoundEvent (s : RegistryState) (ev : SessionEvent) (location : SessionLocation)
    (preserveLiveBinding : Bool) (now : ℕ) : RegistryState × BornBoundEventResult :=
  match ev with
  | .sessionStarted key cliSource paneSessionId cwd _ =>
    let pane := crates.paneKey paneSessionId
    if cliSource.canonicalProviderId.any fun provider =>
        (startedIdentity provider location key, pane) ∈ s.failedResumeAssignments then
      (s, { applied := false, nativePaneOwned := false, rejected := true })
    else if (s.nativePanes.lookup pane).isSome then
      let (s, applied) :=
        match cliSource.canonicalProviderId with
        | none => (s, false)
        | some provider =>
          s.registerNativeBornBindingLocked crates (startedIdentity provider location key)
            paneSessionId cwd none none now
      (s, { applied, nativePaneOwned := true, rejected := false })
    else s.applyOrdinaryBornEvent crates ev location preserveLiveBinding now
  | _ => s.applyOrdinaryBornEvent crates ev location preserveLiveBinding now

end RegistryState

/-! ### Runs -/

/-- The operations that change the registry. -/
inductive RegistryOp
  | upsert (info : SessionInfo)
  | upsertIfAbsent (info : SessionInfo)
  | remove (sid : String)
  | removeIf (sid : String) (predicate : SessionInfo → Bool)
  | removeIdentity (identity : SessionIdentity)
  | removeIdentityIf (identity : SessionIdentity) (predicate : SessionInfo → Bool)
  | setOrigin (sid : String) (origin : SessionOrigin)
  | setLocation (sid : String) (location : SessionLocation)
  | applyEvent (ev : SessionEvent) (now : ℕ)
  | applyBornBoundEvent (ev : SessionEvent) (location : SessionLocation) (preserve : Bool) (now : ℕ)
  | applyNativeObservation (event : NativeAgentObservation) (now : ℕ)
  | applyNativeWatcherActivity (cli : CliSource) (key : String) (ev : SessionEvent) (now : ℕ)
  | registerNativeBornBinding (identity : SessionIdentity) (pane : String) (cwd : PathBuf)
      (modeEpoch : Option ℕ) (predecessor : Option NativePaneBindingPredecessor) (now : ℕ)
  | recoverCopilotPrompt (expected : SessionInfo) (pane : String) (cwd : PathBuf) (now : ℕ)
  | recordPaneConnected (pane : String)
  | recordPaneConnectionFailure (pane reason : String) (started : Option Bool) (now : ℕ)
  | markResumeDispatched (sid : String) (now : ℕ)
  | markResumeDispatchedIdentity (identity : SessionIdentity) (now : ℕ)
  | assignResumePaneIdentity (identity : SessionIdentity) (pane : String) (now : ℕ)
  | upgradeTitleIfSynthetic (sid candidate : String)
  | upgradeTitleIfSyntheticIdentity (identity : SessionIdentity) (candidate : String)
  | adoptAgentTitle (sid candidate : String)
  | adoptAgentTitleIdentity (identity : SessionIdentity) (candidate : String)
  | adoptAcpCwdIdentity (identity : SessionIdentity) (revision : ℕ) (agent : Uuid) (cwd : PathBuf)
  | clearAcpCwdIdentity (identity : SessionIdentity) (revision : ℕ)
  | refineNativeLaunchSource (pane provider : String) (location : SessionLocation)
  | enrichNativeFromListing (provider : String) (location : SessionLocation)
      (rows : List SessionInfo) (previouslyListed : List String) (startedAtMs completedAtMs : ℕ)
      (listingComplete : Bool)

/-- What an operation returns. -/
inductive OpResult
  | unit
  | flag (applied : Bool)
  | row (info : Option SessionInfo)
  | label (marked : Option (Bool × String))
  | activity (applied : Option Bool)
  | born (result : RegistryState.BornBoundEventResult)
deriving DecidableEq

namespace RegistryOp

variable (crates : Crates)

/-- What an operation does and returns. -/
def run (s : RegistryState) : RegistryOp → RegistryState × OpResult
  | upsert info => (s.upsertLocked crates info, .unit)
  | upsertIfAbsent info => (s.upsertIfAbsent crates info, .unit)
  | remove sid => (s.remove crates sid).map id .row
  | removeIf sid predicate => (s.removeIf crates sid predicate).map id .row
  | removeIdentity identity => (s.removeIdentityLocked crates identity).map id .row
  | removeIdentityIf identity predicate =>
    (s.removeIdentityIf crates identity predicate).map id .row
  | setOrigin sid origin => (s.setOrigin sid origin).map id .flag
  | setLocation sid location => (s.setLocationLocked crates sid location).map id .flag
  | applyEvent ev now => (s.applyEventQualifiedAtMs crates ev none now now).map id .flag
  | applyBornBoundEvent ev location preserve now =>
    (s.applyBornBoundEvent crates ev location preserve now).map id .born
  | applyNativeObservation event now =>
    (s.applyNativeObservationLocked crates event now).map id .flag
  | applyNativeWatcherActivity cli key ev now =>
    (s.applyNativeWatcherActivity crates cli key ev now).map id .activity
  | registerNativeBornBinding identity pane cwd modeEpoch predecessor now =>
    (s.registerNativeBornBindingLocked crates identity pane cwd modeEpoch predecessor now).map id
      .flag
  | recoverCopilotPrompt expected pane cwd now =>
    (s.recoverCopilotPrompt crates expected pane cwd now).map id .flag
  | recordPaneConnected pane => (s.recordPaneConnected crates pane, .unit)
  | recordPaneConnectionFailure pane reason started now =>
    (s.recordPaneConnectionFailure crates pane reason started now).map id .flag
  | markResumeDispatched sid now => (s.markResumeDispatched crates sid now).map id .label
  | markResumeDispatchedIdentity identity now =>
    (s.markResumeDispatchedIdentityLocked crates identity now).map id .label
  | assignResumePaneIdentity identity pane now =>
    (s.assignResumePaneIdentityLocked crates identity pane now now).map id .flag
  | upgradeTitleIfSynthetic sid candidate =>
    (s.upgradeTitleIfSynthetic crates sid candidate).map id .flag
  | upgradeTitleIfSyntheticIdentity identity candidate =>
    (s.upgradeTitleIfSyntheticIdentity crates identity candidate).map id .flag
  | adoptAgentTitle sid candidate => (s.adoptAgentTitle sid candidate).map id .flag
  | adoptAgentTitleIdentity identity candidate =>
    (s.adoptAgentTitleIdentity identity candidate).map id .flag
  | adoptAcpCwdIdentity identity revision agent cwd =>
    (s.adoptAcpCwdIdentity crates identity revision agent cwd).map id .flag
  | clearAcpCwdIdentity identity revision =>
    (s.clearAcpCwdIdentity identity revision).map id .flag
  | refineNativeLaunchSource pane provider location =>
    (s.refineNativeLaunchSource crates pane provider location).map id .flag
  | enrichNativeFromListing provider location rows previouslyListed startedAtMs completedAtMs
      listingComplete =>
    (s.enrichNativeFromListing provider location rows previouslyListed startedAtMs completedAtMs
      listingComplete).map id .flag

def step (s : RegistryState) (op : RegistryOp) : RegistryState := (op.run crates s).1

end RegistryOp

end IntelligentTerminal.Sessions
