import IntelligentTerminal.Data.Table
import IntelligentTerminal.Sessions.Event

/-!
# The master's registry of sessions

`RegistryState` has a row for each qualified session identity. Three maps are kept together by
hand: the rows, the identities of each raw session id, and the owner of each pane. A row is keyed
by what it says of itself, so a change of its provider or location moves it to another identity.

Hash sets are lists without duplicates here; no result depends on their order. `now` and `clock`
are the times that a function is given or reads off the clock.

Source: `tools/wta/src/session_registry.rs`, lines 36-115, 455-572, 1549-1725, 2031-2060,
3244-3297 and 3640-4008.
-/

namespace IntelligentTerminal.Sessions

/-! ### Identities -/

structure HistoryRowKey where
  providerId : String
  location : SessionLocation
  sessionId : String
  sessionUniverse : Option String
deriving DecidableEq

def HistoryRowKey.new (providerId : String) (location : SessionLocation) (sessionId : String)
    (sessionUniverse : Option String) : Option HistoryRowKey :=
  let providerId := toAsciiLowercase (trim providerId)
  let sessionId := trim sessionId
  if providerId = "" ∨ sessionId = "" ∨ !location.isActionable then none
  else
    some
      { providerId, location, sessionId
        sessionUniverse := sessionUniverse.filter fun value => trim value ≠ "" }

structure SessionIdentity where
  sessionId : String
  historyKey : Option HistoryRowKey
deriving DecidableEq

/-- Rows and panes that failed to be resumed are looked up in a list. -/
instance : LawfulBEq (SessionIdentity × String) := inferInstance

/-! ### Rows -/

structure CwdEvidence where
  hook : Option PathBuf := none
  acp : Option PathBuf := none
  acpAgent : Option Uuid := none
  hookAfterAcp : Bool := false
  revision : ℕ := 0
deriving DecidableEq

structure SessionInfo where
  sessionId : String
  providerId : Option String := none
  sessionUniverse : Option String := none
  cwd : PathBuf
  title : Option String := none
  updatedAt : Option String := none
  paneSessionId : Option String := none
  ownerWindowId : Option ℕ := none
  backgroundTab : Option Bool := none
  status : Option AgentStatus := none
  cliSource : Option CliSource := none
  currentTool : Option String := none
  attentionReason : Option String := none
  attentionTimestampMs : Option ℕ := none
  attentionCooldownUntilMs : Option ℕ := none
  lastActivityAtMs : Option ℕ := none
  origin : Option SessionOrigin := none
  lastError : Option String := none
  location : SessionLocation := .unknown
  boundPid : Option ℕ := none
  bornBoundPane : Bool := false
  cwdEvidence : CwdEvidence := {}
deriving DecidableEq

namespace SessionInfo

def new (sessionId : String) (cwd : PathBuf) : SessionInfo := { sessionId, cwd }

/-- Equality of rows, which does not look at the evidence for the directory. -/
def eq (a b : SessionInfo) : Bool := { a with cwdEvidence := {} } = { b with cwdEvidence := {} }

def historyRowKey (info : SessionInfo) : Option HistoryRowKey :=
  info.providerId.bind fun providerId =>
    HistoryRowKey.new providerId info.location info.sessionId info.sessionUniverse

/-- The row is live: `Idle`, `Working`, `Attention` or `Error`. -/
def isLive (info : SessionInfo) : Bool :=
  info.status ∈ [some AgentStatus.idle, some .working, some .attention, some .error]

/-- The row is over: `Ended` or `Historical`. -/
def isOver (info : SessionInfo) : Bool := info.status ∈ [some AgentStatus.ended, some .historical]

def sourcePaneSessionIdentity (info : SessionInfo) : Bool :=
  let isCopilot : Bool :=
    match info.providerId with
    | none => info.cliSource = some .copilot
    | some provider => eqIgnoreAsciiCase (trim provider) "copilot"
  trim info.sessionId ≠ "" && !startsWith info.sessionId "pane:" &&
    !(isCopilot && startsWith info.sessionId "sidekick-")

def activeSourcePaneSession (info : SessionInfo) : Bool :=
  info.isLive && info.sourcePaneSessionIdentity

/-- The provider of a row, or else the one that its command line tool stands for. -/
def provider (info : SessionInfo) : Option String :=
  info.providerId.or (info.cliSource.bind CliSource.canonicalProviderId)

end SessionInfo

def SessionIdentity.fromInfo (info : SessionInfo) : SessionIdentity where
  sessionId := info.sessionId
  historyKey := info.historyRowKey

/-! ### Native panes -/

inductive NativeObservationKind
  | reset (trackingEnabled : Bool)
  | progress (progressState : ℕ)
  | bell
  | removed
deriving DecidableEq

structure NativeAgentObservation where
  paneId : String
  providerId : String
  windowId : ℕ
  tabId : String
  modeEpoch : ℕ
  agentSessionId : Option String := none
  location : Option SessionLocation := none
  launchCwd : Option PathBuf := none
  paneCreatedAtMs : Option ℕ := none
  paneCreationSequence : Option ℕ := none
  currentProgressState : Option ℕ := none
  event : NativeObservationKind
deriving DecidableEq

structure NativePaneObservation where
  paneId : String
  providerId : String
  windowId : ℕ
  tabId : String
  modeEpoch : ℕ
  agentSessionId : Option String
  location : Option SessionLocation
  cwd : Option PathBuf
  paneCreatedAtMs : Option ℕ
  paneCreationSequence : Option ℕ
  inferredAgentSessionId : Option String := none
  inferredHistoryKey : Option HistoryRowKey := none
  status : AgentStatus
  lastActivityAtMs : ℕ
deriving DecidableEq

structure NativePaneState where
  observation : NativePaneObservation
  boundIdentity : Option SessionIdentity
  inferenceBlocked : Bool
deriving DecidableEq

/-- What was inferred of a pane is forgotten. -/
def NativePaneState.clearInferred (native : NativePaneState) : NativePaneState :=
  { native with
    observation :=
      { native.observation with inferredAgentSessionId := none, inferredHistoryKey := none } }

structure NativePaneBindingPredecessor where
  agentSessionId : String
  modeEpoch : ℕ

/-! ### The state -/

inductive PaneConnectionState
  | connected
  | failed (processStarted : Option Bool) (reason : String)
deriving DecidableEq

structure NativeListingEvidence where
  firstObservedAtMs : ℕ
  providerActivityAtMs : Option ℕ
deriving DecidableEq

structure RegistryState where
  sessions : Table SessionIdentity SessionInfo := ∅
  identitiesByRaw : Table String (List SessionIdentity) := ∅
  activeByPane : Table String SessionIdentity := ∅
  paneConnections : Table String PaneConnectionState := ∅
  failedResumeAssignments : List (SessionIdentity × String) := []
  nativePanes : Table String NativePaneState := ∅
  nativeRetiredEpochs : Table Uuid ℕ := ∅
  hookPaneProgress : Table String NativeAgentObservation := ∅
  nextCwdRevision : ℕ := 0
  knownRawIds : List String := []
  nativeListingCompletedAt : Table (String × SessionLocation) ℕ := ∅
  nativeListingEvidence : Table HistoryRowKey NativeListingEvidence := ∅

namespace RegistryState

variable (crates : Crates)

/-- `advance_cwd_revision`: the state afterwards has the revision in `nextCwdRevision`. -/
def advanceCwdRevision (s : RegistryState) : RegistryState :=
  { s with nextCwdRevision := saturatingAdd s.nextCwdRevision 1 }

/-- Stores a row in the place of the one with the same identity. -/
def setRow (s : RegistryState) (identity : SessionIdentity) (row : SessionInfo) : RegistryState :=
  { s with sessions := s.sessions.insert identity row }

/-- Takes the pane away from `identity` if the index names it as the owner. -/
def releasePane (s : RegistryState) (identity : SessionIdentity) (pane : Option String) :
    RegistryState :=
  match pane with
  | none => s
  | some pane =>
    if s.activeByPane.lookup (crates.paneKey pane) = some identity then
      { s with activeByPane := s.activeByPane.erase (crates.paneKey pane) }
    else s

/-- What a bound native pane says of the new row for its identity. -/
def keepNativeBinding (s : RegistryState) (identity : SessionIdentity) (info : SessionInfo) :
    SessionInfo :=
  match s.sessions.lookup identity with
  | none => info
  | some old =>
    match old.paneSessionId.bind fun pane => s.nativePanes.lookup (crates.paneKey pane) with
    | none => info
    | some native =>
      if native.boundIdentity = some identity then
        let info :=
          { info with paneSessionId := old.paneSessionId, bornBoundPane := old.bornBoundPane }
        if !info.activeSourcePaneSession then
          { info with
            status := old.status, currentTool := old.currentTool
            attentionReason := old.attentionReason, lastActivityAtMs := old.lastActivityAtMs }
        else info
      else info

def upsertLocked (s : RegistryState) (info : SessionInfo) : RegistryState :=
  let s := s.advanceCwdRevision
  let info := { info with cwdEvidence := { info.cwdEvidence with revision := s.nextCwdRevision } }
  let s := { s with knownRawIds := s.knownRawIds.insert info.sessionId }
  let identity := SessionIdentity.fromInfo info
  let info := s.keepNativeBinding crates identity info
  let s := s.releasePane crates identity ((s.sessions.lookup identity).bind (·.paneSessionId))
  let s :=
    match info.paneSessionId with
    | none => s
    | some pane =>
      if pane ≠ "" then
        { s with activeByPane := s.activeByPane.insert (crates.paneKey pane) identity }
      else s
  { s with
    identitiesByRaw := s.identitiesByRaw.insert info.sessionId
      (((s.identitiesByRaw.lookup info.sessionId).getD []).insert identity)
    sessions := s.sessions.insert identity info }

/-- Removes an identity from those of a raw session id. -/
def forgetIdentity (s : RegistryState) (sessionId : String) (identity : SessionIdentity) :
    RegistryState :=
  match s.identitiesByRaw.lookup sessionId with
  | none => s
  | some identities =>
    { s with
      identitiesByRaw :=
        if identities.erase identity = [] then s.identitiesByRaw.erase sessionId
        else s.identitiesByRaw.insert sessionId (identities.erase identity) }

def removeIdentityLocked (s : RegistryState) (identity : SessionIdentity) :
    RegistryState × Option SessionInfo :=
  match s.sessions.lookup identity with
  | none => (s, none)
  | some info =>
    let s := { s with sessions := s.sessions.erase identity }
    let s := s.releasePane crates identity info.paneSessionId
    (s.forgetIdentity info.sessionId identity, some info)

/-- The only element of a list. -/
def only {α : Type*} : List α → Option α
  | [a] => some a
  | _ => none

def uniqueIdentityForRaw (s : RegistryState) (sid : String) : Option SessionIdentity :=
  (s.identitiesByRaw.lookup sid).bind only

def uniqueMatchingIdentityForRaw (s : RegistryState) (sid : String)
    (predicate : SessionInfo → Bool) : Option SessionIdentity :=
  (s.identitiesByRaw.lookup sid).bind fun identities =>
    only (identities.filter fun identity => (s.sessions.lookup identity).any predicate)

/-- The `Debug` text of a status. -/
def statusLabel : AgentStatus → String
  | .idle => "Idle"
  | .working => "Working"
  | .attention => "Attention"
  | .error => "Error"
  | .ended => "Ended"
  | .historical => "Historical"
  | .inUse => "InUse"

def markResumeDispatchedIdentityLocked (s : RegistryState) (identity : SessionIdentity)
    (clock : ℕ) : RegistryState × Option (Bool × String) :=
  let s := s.advanceCwdRevision
  match s.sessions.lookup identity with
  | none => (s, none)
  | some row =>
    if row.isOver then
      ((s.releasePane crates identity row.paneSessionId).setRow identity
        { row with
          paneSessionId := none, bornBoundPane := false, boundPid := none, status := some .idle
          cwdEvidence := { row.cwdEvidence with revision := s.nextCwdRevision }
          lastActivityAtMs := some clock },
        some (true, "Idle"))
    else (s, some (false, (row.status.map statusLabel).getD "Idle"))

def endEntry (s : RegistryState) (identity : SessionIdentity) (now : ℕ) : RegistryState × Bool :=
  let s := s.advanceCwdRevision
  match s.sessions.lookup identity with
  | none => (s, false)
  | some entry =>
    ((s.releasePane crates identity entry.paneSessionId).setRow identity
      { entry with
        cwdEvidence := { entry.cwdEvidence with revision := s.nextCwdRevision }
        status := some .ended, paneSessionId := none, bornBoundPane := false, currentTool := none
        attentionReason := none, attentionTimestampMs := none, attentionCooldownUntilMs := none
        lastActivityAtMs := some now },
      true)

def restoreFailedResumeIdentityLocked (s : RegistryState) (identity : SessionIdentity)
    (reason : String) (now : ℕ) : RegistryState × Bool :=
  if (s.sessions.lookup identity).all fun entry =>
      entry.status = some .historical ∧ entry.paneSessionId = none ∧
        entry.lastError = some reason then
    (s, false)
  else
    let s := (s.endEntry crates identity now).1
    match s.sessions.lookup identity with
    | none => (s, true)
    | some entry =>
      (s.setRow identity
        { entry with status := some .historical, lastError := some reason, boundPid := none },
        true)

/-- `apply_connection_failure_locked`. A pane that never started gives a resumed session back. -/
def applyConnectionFailureLocked (s : RegistryState) (pane reason : String) (now : ℕ) :
    RegistryState × Bool :=
  match s.activeByPane.lookup pane with
  | none => (s, false)
  | some identity =>
    if ((s.sessions.lookup identity).any fun entry =>
        entry.bornBoundPane ∧ (entry.status = some .idle ∨ entry.status = some .error)) ∧
        ((s.paneConnections.lookup pane).any fun
          | .failed (some false) _ => true
          | _ => false) then
      let (s, restored) := s.restoreFailedResumeIdentityLocked crates identity reason now
      ({ s with failedResumeAssignments := s.failedResumeAssignments.insert (identity, pane) },
        restored)
    else
      match s.sessions.lookup identity with
      | none => (s, false)
      | some entry =>
        if entry.status = some .error ∧ entry.lastError = some reason then (s, false)
        else
          (s.setRow identity
            { entry with
              status := some .error, attentionCooldownUntilMs := none, lastError := some reason
              lastActivityAtMs := some now },
            true)

/-- `native_bound_identity`: the one live session with the observed pane, if it fits the
observation. -/
def nativeBoundIdentity (s : RegistryState) (observation : NativePaneObservation) :
    Option SessionIdentity :=
  (only (s.sessions.entries.filter fun e =>
      e.2.activeSourcePaneSession &&
        e.2.paneSessionId.any fun pane => crates.paneKey pane = observation.paneId)).bind
    fun e =>
      let row := e.2
      if row.origin = some .agentPane ∨
          !(row.bornBoundPane || (observation.agentSessionId.isSome &&
            observation.location.any SessionLocation.isActionable)) ∨
          !(row.provider.any fun provider => eqIgnoreAsciiCase provider observation.providerId) ∨
          !(observation.agentSessionId.all fun id => row.sessionId = id) ∨
          (observation.location.any fun location => row.location ≠ location) then
        none
      else some e.1

/-! ### Binding a pane to a resumed session -/

/-- The row of a session that is bound to a pane takes over what was observed there. -/
def adoptNativeActivity (row : SessionInfo) (previousActivityAtMs : Option ℕ) (status : AgentStatus)
    (activityAtMs : ℕ) : SessionInfo :=
  let canonicalActivity : Bool :=
    row.status ∈ [some AgentStatus.working, some .attention, some .error] ||
      row.currentTool.isSome || row.attentionReason.isSome || row.lastError.isSome
  if canonicalActivity && previousActivityAtMs.any (activityAtMs ≤ ·) then
    { row with lastActivityAtMs := previousActivityAtMs }
  else
    { row with
      status := some status, lastActivityAtMs := some activityAtMs, currentTool := none
      attentionReason := none, lastError := none }

/-- Links a native pane to the session that was bound to it. -/
def linkNativePane (s : RegistryState) (identity : SessionIdentity) (pane : String)
    (previousActivityAtMs : Option ℕ) : RegistryState :=
  match s.nativePanes.lookup pane with
  | none => s
  | some native =>
    if s.nativeBoundIdentity crates native.observation = some identity then
      let s :=
        if native.boundIdentity = none then
          { s with
            sessions := s.sessions.adjust identity fun row =>
              adoptNativeActivity row previousActivityAtMs native.observation.status
                native.observation.lastActivityAtMs }
        else s
      { s with
        nativePanes := s.nativePanes.adjust pane fun native =>
          { native.clearInferred with boundIdentity := some identity } }
    else s

/-- What was inferred of native panes for a session is forgotten. -/
def forgetInferred (s : RegistryState) (sessionId : String) : RegistryState :=
  { s with
    nativePanes := s.nativePanes.mapValues fun native =>
      if native.observation.inferredAgentSessionId = some sessionId then native.clearInferred
      else native }

/-- Drops the binding of a row to another pane than `pane`. -/
def dropOldPane (s : RegistryState) (identity : SessionIdentity) (oldPane : Option String)
    (pane : String) : RegistryState :=
  match oldPane with
  | none => s
  | some oldPane =>
    if crates.paneKey oldPane ≠ pane ∧
        s.activeByPane.lookup (crates.paneKey oldPane) = some identity then
      { s with activeByPane := s.activeByPane.erase (crates.paneKey oldPane) }
    else s

/-- The second half of `assign_resume_pane_identity_locked`: the pane has not failed to start. -/
def bindResumePane (s : RegistryState) (identity : SessionIdentity) (pane : String)
    (now clock : ℕ) : RegistryState × Bool :=
  let (s, marked) := s.markResumeDispatchedIdentityLocked crates identity clock
  let revived := marked.any (·.1)
  let s :=
    match s.activeByPane.lookup pane with
    | none => s
    | some previous => if previous ≠ identity then (s.endEntry crates previous now).1 else s
  let s := s.advanceCwdRevision
  match s.sessions.lookup identity with
  | none => (s, false)
  | some entry =>
    if entry.paneSessionId = some pane then (s, revived)
    else
      let s := s.dropOldPane crates identity entry.paneSessionId pane
      let s := s.setRow identity
        { entry with
          paneSessionId := some pane
          cwdEvidence :=
            { entry.cwdEvidence with
              acp := none, acpAgent := none, hookAfterAcp := false, revision := s.nextCwdRevision }
          lastActivityAtMs := some now, bornBoundPane := true }
      let s := { s with activeByPane := s.activeByPane.insert pane identity }
      let s := s.forgetInferred identity.sessionId
      let s := s.linkNativePane crates identity pane entry.lastActivityAtMs
      match s.paneConnections.lookup pane with
      | some (.failed _ reason) => ((s.applyConnectionFailureLocked crates pane reason now).1, true)
      | _ => (s, true)

def assignResumePaneIdentityLocked (s : RegistryState) (identity : SessionIdentity)
    (paneSessionId : String) (now clock : ℕ) : RegistryState × Bool :=
  match s.sessions.lookup identity with
  | none => (s, false)
  | some entry =>
    let pane := crates.paneKey paneSessionId
    if (identity, pane) ∈ s.failedResumeAssignments then (s, false)
    else
      match s.paneConnections.lookup pane with
      | some (.failed (some false) reason) =>
        if (entry.paneSessionId.any fun p =>
            p ≠ pane ∨ !entry.bornBoundPane ∨ entry.status = some .working ∨
              entry.status = some .attention) ∧ entry.isLive then
          (s, false)
        else
          let (s, restored) := s.restoreFailedResumeIdentityLocked crates identity reason now
          ({ s with failedResumeAssignments := s.failedResumeAssignments.insert (identity, pane) },
            restored)
      | _ => s.bindResumePane crates identity pane now clock

def setLocationLocked (s : RegistryState) (sid : String) (location : SessionLocation) :
    RegistryState × Bool :=
  match s.uniqueIdentityForRaw sid with
  | none => (s, false)
  | some identity =>
    match s.removeIdentityLocked crates identity with
    | (s, none) => (s, false)
    | (s, some entry) =>
      (s.upsertLocked crates { entry with location }, decide (entry.location ≠ location))

end RegistryState

end IntelligentTerminal.Sessions
