import IntelligentTerminal.RichTab.Contracts
import Mathlib.Data.Finmap

/-!
# The broker of rich tab fields

The broker keeps the sessions of the panes, who is attached to them, and for each session the last
snapshot of every provider. One run of a provider is in progress at a time for a session; a request
made meanwhile is parked, and a newer one replaces it. Three counters say what is out of date: the
`generation` of a provider's state, the `contextRevision` of a session and its `updateSequence`.

Each entry point is one section under the broker's lock, followed by the callbacks and by
refreshes, each of which is a locked section of its own. A definition here is one locked section:
it returns the broker, the updates for the callbacks and the refreshes that the call will still
make.

Source: `src/src/cascadia/RichTabProvider/ProviderBroker.cpp` and `ProviderBroker.h`. The records
of the diagnostic log and the tokens made for them are left out. The iteration order of an
`unordered_map` is the order of its table.
-/

namespace IntelligentTerminal.RichTab

abbrev AttachmentId := ℕ

/-- A time of the steady clock, in nanoseconds. -/
abbrev Time := ℤ

def detachedSessionRetention : Time := 30 * 10 ^ 9

structure SessionContext where
  sessionId : String := ""
  workingDirectory : Path := []
  workingDirectoryAuthoritative : Bool := false
  shellType : Option String := none
  firstPartyFields : Table String String := ∅

structure BrokerUpdate where
  sessionId : String
  sessionIncarnation : ℕ
  contextRevision : ℕ
  updateSequence : ℕ
  presentation : Option Presentation
  diagnostics : List String

structure PendingRequest where
  request : Request
  generation : ℕ

structure ProviderState where
  generation : ℕ := 0
  runningGeneration : ℕ := 0
  running : Bool := false
  pending : Option PendingRequest := none
  snapshot : Option Snapshot := none

structure SessionState where
  context : SessionContext := {}
  agentActive : Bool := false
  agentWorkingDirectory : Option String := none
  activeAgentWorkingDirectories : Table AttachmentId (Option String) := ∅
  sessionIncarnation : ℕ := 0
  contextRevision : ℕ := 0
  updateSequence : ℕ := 0
  detachedAt : Option Time := none
  callbacks : List AttachmentId := []
  visibleFieldsByAttachment : Table AttachmentId VisibleFieldMap := ∅
  providers : Table String ProviderState := ∅

structure Broker where
  packageRoot : Path
  gitBinary : Option String
  processEpoch : ℕ
  providers : Catalog := ⟨[], List.nodup_nil⟩
  visibleFields : VisibleFieldMap := ∅
  fieldDisplayNames : FieldDisplayNameMap := ∅
  sessions : Table String SessionState := ∅
  attachmentSessions : Table AttachmentId String := ∅
  nextSessionIncarnation : ℕ := 1
  nextAttachment : ℕ := 1
  nextRequest : ℕ := 1
  nextGeneration : ℕ := 1

structure RefreshCall where
  sessionId : String
  reason : ActivationEvent
  initial : Bool := false
  onlyProvider : Option String := none
  deriving DecidableEq, Repr

/-- What a locked section leaves to do: the callbacks to call and the refreshes to make. -/
structure Locked where
  broker : Broker
  notifications : List (AttachmentId × BrokerUpdate) := []
  refreshes : List RefreshCall := []

/-! ### What is shown -/

namespace Broker

def findProvider (b : Broker) (providerId : String) : Option Registration :=
  b.providers.registrations.find? (·.manifest.id = providerId)

/-- The provider with this identifier is the built-in git status. -/
def isGitStatus (b : Broker) (id : String) : Bool :=
  b.providers.registrations.any fun registration =>
    registration.manifest.id = id && isBuiltInGitStatus b.packageRoot registration

/-- The selection of fields of a provider that counts for an attachment. -/
def selection (b : Broker) (session : SessionState) (attachment : AttachmentId)
    (providerId : String) : Option (Finset String) :=
  ((session.visibleFieldsByAttachment.lookup attachment).bind (·.lookup providerId)).or
    (b.visibleFields.lookup providerId)

def visibleFieldsForSession (b : Broker) (session : SessionState) (provider : Registration) :
    List String :=
  let selectedFor := fun (field : FieldDeclaration) attachment =>
    field.isVisible (b.selection session attachment provider.manifest.id)
  (provider.manifest.fields.filter fun field =>
    if session.callbacks = [] then selectedFor field 0
    else session.callbacks.any (selectedFor field)).map (·.id)

/-- The status that the host owns, in the snapshot of the git status. -/
def withAgentStatus (firstPartyFields : Table String String) (snapshot : Snapshot) : Snapshot :=
  let snapshot := { snapshot with fields := snapshot.fields.erase "agentStatus", agentStatus := "" }
  match firstPartyFields.lookup "agentStatus" with
  | none => snapshot
  | some status =>
    if status = "" then snapshot
    else { snapshot with
      fields := snapshot.fields.insert "agentStatus" (.string status)
      agentStatus := (firstPartyFields.lookup "agentStatusId").getD "" }

def shownSnapshots (b : Broker) (session : SessionState) : Table String Snapshot :=
  let stored := session.providers.entries.foldl (fun snapshots entry =>
    match entry.2.snapshot with
    | none => snapshots
    | some snapshot => snapshots.insert entry.1 snapshot) (∅ : Table String Snapshot)
  b.providers.registrations.foldl (fun snapshots provider =>
    if isBuiltInGitStatus b.packageRoot provider then
      snapshots.insert provider.manifest.id (withAgentStatus session.context.firstPartyFields
        ((snapshots.lookup provider.manifest.id).getD {}))
    else snapshots) stored

def updateFor (b : Broker) (sessionId : String) (session : SessionState)
    (diagnostics : List String) (attachment : AttachmentId) : BrokerUpdate where
  sessionId
  sessionIncarnation := session.sessionIncarnation
  contextRevision := session.contextRevision
  updateSequence := session.updateSequence
  presentation :=
    let visibleFields := match session.visibleFieldsByAttachment.lookup attachment with
      | none => b.visibleFields
      | some selection => selection ∪ b.visibleFields
    composePresentation b.providers.registrations (b.shownSnapshots session) visibleFields
      b.fieldDisplayNames
  diagnostics

def notificationsFor (b : Broker) (sessionId : String) (session : SessionState)
    (diagnostics : List String) : List (AttachmentId × BrokerUpdate) :=
  session.callbacks.map fun attachment =>
    (attachment, b.updateFor sessionId session diagnostics attachment)

/-- The notifications of all sessions. -/
def notificationsForAll (b : Broker) : List (AttachmentId × BrokerUpdate) :=
  b.sessions.entries.flatMap fun entry => b.notificationsFor entry.1 entry.2 []

end Broker

/-! ### Generations -/

namespace ProviderState

def invalidate (state : ProviderState) (generation : ℕ) : ProviderState :=
  { state with generation, pending := none }

def invalidateDirectory (state : ProviderState) (generation : ℕ) : ProviderState :=
  { state.invalidate generation with
    snapshot := state.snapshot.map Snapshot.clearGitStatusCwdDependentFields }

def reset (state : ProviderState) (generation : ℕ) : ProviderState :=
  { state.invalidate generation with snapshot := none }

end ProviderState

namespace SessionState

/-- The states of the chosen providers are changed, each with a generation of its own. -/
def renumber (session : SessionState) (chosen : String → Bool)
    (change : ProviderState → ℕ → ProviderState) (nextGeneration : ℕ) : SessionState × ℕ :=
  let r := session.providers.mapAccum
    (fun next id state => if chosen id then (change state next, next + 1) else (state, next))
    nextGeneration
  ({ session with providers := r.1 }, r.2)

/-- The loop over all provider states that discards what they run and wait for. -/
def invalidateProviders (session : SessionState) (nextGeneration : ℕ) : SessionState × ℕ :=
  session.renumber (fun _ => true) ProviderState.invalidate nextGeneration

def invalidateGitStatusWorkingDirectory (isGit : String → Bool) (session : SessionState)
    (nextGeneration : ℕ) : SessionState × ℕ :=
  session.renumber isGit ProviderState.invalidateDirectory nextGeneration

/-- Whether `_RecomputeAgentWorkingDirectoryLocked` finds an agent. -/
def hasAgent (session : SessionState) : Bool :=
  session.activeAgentWorkingDirectories.entries ≠ []

/-- The directory that `_RecomputeAgentWorkingDirectoryLocked` finds. -/
def agentDirectory (session : SessionState) : Option String :=
  if session.callbacks.length = 1 then
    session.activeAgentWorkingDirectories.entries.head?.bind (·.2)
  else none

/-- `_RecomputeAgentWorkingDirectoryLocked`; the last component tells whether something changed. -/
def recomputeAgentWorkingDirectory (isGit : String → Bool) (session : SessionState)
    (nextGeneration : ℕ) : SessionState × ℕ × Bool :=
  if session.agentActive = session.hasAgent ∧
      session.agentWorkingDirectory = session.agentDirectory then
    (session, nextGeneration, false)
  else
    let r := { session with
      agentActive := session.hasAgent
      agentWorkingDirectory := session.agentDirectory
      updateSequence := session.updateSequence + 1
      : SessionState }.invalidateGitStatusWorkingDirectory isGit nextGeneration
    (r.1, r.2, true)

def nextUpdate (session : SessionState) : SessionState :=
  { session with updateSequence := session.updateSequence + 1 }

/-- The directory and the shell are the given ones. -/
def HasContext (session : SessionState) (workingDirectory : Path) (authoritative : Bool)
    (shellType : Option String) : Prop :=
  session.context.workingDirectory = workingDirectory ∧
    session.context.workingDirectoryAuthoritative = authoritative ∧
    session.context.shellType = shellType

instance (session : SessionState) (workingDirectory : Path) (authoritative : Bool)
    (shellType : Option String) :
    Decidable (session.HasContext workingDirectory authoritative shellType) :=
  inferInstanceAs (Decidable (_ ∧ _ ∧ _))

def setContext (session : SessionState) (workingDirectory : Path) (authoritative : Bool)
    (shellType : Option String) : SessionState :=
  { session with
    context := { session.context with
      workingDirectory, workingDirectoryAuthoritative := authoritative, shellType }
    contextRevision := session.contextRevision + 1 }

def selectFields (session : SessionState) (attachment : AttachmentId)
    (visibleFields : VisibleFieldMap) : SessionState :=
  { session with
    visibleFieldsByAttachment :=
      session.visibleFieldsByAttachment.insert attachment visibleFields }

/-- The states of providers that are no longer there are dropped. -/
def keepProviders (session : SessionState) (catalog : Catalog) : SessionState :=
  { session with providers := session.providers.keep fun id _ =>
      catalog.registrations.any (·.manifest.id = id) }

def setProvider (session : SessionState) (id : String) (state : ProviderState) : SessionState :=
  { session with providers := session.providers.insert id state }

end SessionState

/-! ### The entry points -/

namespace Broker

/-- The session is written back, with the counter of generations. -/
def store (b : Broker) (sessionId : String) (session : SessionState) (nextGeneration : ℕ) :
    Broker :=
  { b with sessions := b.sessions.insert sessionId session, nextGeneration }

/-- All sessions are changed one after another. -/
def changeSessions (b : Broker) (change : SessionState → ℕ → SessionState × ℕ) : Broker :=
  let r := b.sessions.mapAccum (fun next _ session => change session next) b.nextGeneration
  { b with sessions := r.1, nextGeneration := r.2 }

/-- `_PruneDetachedSessionsLocked` -/
def pruneDetachedSessions (b : Broker) (now : Time) : Broker :=
  let oldestRetained := now - detachedSessionRetention
  { b with sessions := b.sessions.keep fun _ session => !(session.callbacks.isEmpty &&
      session.detachedAt.any (· ≤ oldestRetained)) }

def reloadProviders (b : Broker) (builtIns : Catalog) : Locked :=
  let b := { b with providers := builtIns.sorted }
  let b := b.changeSessions fun session next =>
    let r := (session.keepProviders builtIns.sorted).renumber (fun _ => true)
      ProviderState.reset next
    (r.1.nextUpdate, r.2)
  { broker := b, notifications := b.notificationsForAll }

/-- What both overloads of `SetVisibleFields` do to a session after the selection changed. -/
def afterSelection (b : Broker) (provider : Registration) (session : SessionState)
    (nextGeneration : ℕ) : SessionState × ℕ :=
  let r := if b.visibleFieldsForSession session provider = [] then
      session.renumber (· = provider.manifest.id) ProviderState.reset nextGeneration
    else (session, nextGeneration)
  (r.1.nextUpdate, r.2)

/-- Those of the fields that the provider declares. -/
def selectedFields (provider : Registration) (fields : List String) : Finset String :=
  (fields.filter fun field => provider.manifest.fields.any (·.id = field)).toFinset

/-- `SetVisibleFields` for all attachments without a selection of their own. -/
def setVisibleFields (b : Broker) (providerId : String) (fields : List String) : Locked :=
  match b.findProvider providerId with
  | none => { broker := b }
  | some provider =>
    let selected := selectedFields provider fields
    if b.visibleFields.lookup provider.manifest.id = some selected then { broker := b }
    else
      let b := { b with visibleFields := b.visibleFields.insert provider.manifest.id selected }
      let refreshes := (b.sessions.entries.filter fun entry => entry.2.callbacks ≠ []).map
        fun entry => { sessionId := entry.1, reason := .manualRefresh : RefreshCall }
      let b := b.changeSessions (b.afterSelection provider)
      { broker := b, notifications := b.notificationsForAll, refreshes }

def setVisibleFieldsFor (b : Broker) (attachment : AttachmentId) (providerId : String)
    (fields : List String) : Locked :=
  match b.attachmentSessions.lookup attachment, b.findProvider providerId with
  | some sessionId, some provider =>
    match b.sessions.lookup sessionId with
    | none => { broker := b }
    | some session =>
      let selected := selectedFields provider fields
      let ownerFields := (session.visibleFieldsByAttachment.lookup attachment).getD ∅
      if ownerFields.lookup provider.manifest.id = some selected then { broker := b }
      else
        let r := b.afterSelection provider
          (session.selectFields attachment (ownerFields.insert provider.manifest.id selected))
          b.nextGeneration
        { broker := b.store sessionId r.1 r.2
          notifications := b.notificationsFor sessionId r.1 []
          refreshes := [{ sessionId, reason := .manualRefresh }] }
  | _, _ => { broker := b }

def setFieldDisplayNames (b : Broker) (providerId : String)
    (displayNames : Table String String) : Locked :=
  match b.findProvider providerId with
  | none => { broker := b }
  | some provider =>
    let localizedDisplayNames := displayNames.keep fun field displayName =>
      provider.manifest.fields.any (·.id = field) && displayName ≠ ""
    if (b.fieldDisplayNames.lookup provider.manifest.id).map AList.toFinmap =
        some localizedDisplayNames.toFinmap then { broker := b }
    else
      let b := { b with fieldDisplayNames :=
        b.fieldDisplayNames.insert provider.manifest.id localizedDisplayNames }
      let b := b.changeSessions fun session next => (session.nextUpdate, next)
      { broker := b, notifications := b.notificationsForAll }

/-- The branch of `Attach` for a session that has another directory or shell. -/
def replaceContext (b : Broker) (session : SessionState) (context : SessionContext) :
    SessionState × ℕ :=
  let session := session.setContext context.workingDirectory context.workingDirectoryAuthoritative
    context.shellType
  let r := session.invalidateProviders b.nextGeneration
  let r := r.1.invalidateGitStatusWorkingDirectory b.isGitStatus r.2
  (r.1.nextUpdate, r.2)

/-- What the first part of `Attach` finds or makes: the session, the counters, and whether the
context of a session that existed has changed. -/
structure Entered where
  session : SessionState
  nextGeneration : ℕ
  nextSessionIncarnation : ℕ
  contextChanged : Bool

/-- `Attach` up to the registration of the callback. -/
def enter (b : Broker) (context : SessionContext) : Entered :=
  let session := { (b.sessions.lookup context.sessionId).getD {} with detachedAt := none }
  if session.context.sessionId = "" then
    { session := { session with context, sessionIncarnation := b.nextSessionIncarnation }
      nextGeneration := b.nextGeneration
      nextSessionIncarnation := b.nextSessionIncarnation + 1
      contextChanged := false }
  else if session.HasContext context.workingDirectory context.workingDirectoryAuthoritative
      context.shellType then
    { session, nextGeneration := b.nextGeneration
      nextSessionIncarnation := b.nextSessionIncarnation, contextChanged := false }
  else
    let r := b.replaceContext session context
    { session := r.1, nextGeneration := r.2
      nextSessionIncarnation := b.nextSessionIncarnation, contextChanged := true }

end Broker

/-- A callback and the fields that are selected for it. -/
def SessionState.addAttachment (session : SessionState) (attachment : AttachmentId)
    (visibleFields : VisibleFieldMap) : SessionState :=
  { session with
    callbacks := session.callbacks ++ [attachment]
    visibleFieldsByAttachment :=
      if visibleFields.entries = [] then session.visibleFieldsByAttachment
      else (session.selectFields attachment visibleFields).visibleFieldsByAttachment }

/-- `Detach` before the directory of the agent is looked for again. -/
def SessionState.removeAttachment (session : SessionState) (attachment : AttachmentId) :
    SessionState :=
  { session with
    callbacks := session.callbacks.erase attachment
    visibleFieldsByAttachment := session.visibleFieldsByAttachment.erase attachment
    activeAgentWorkingDirectories := session.activeAgentWorkingDirectories.erase attachment }

/-- No agent runs in the session. -/
def SessionState.clearAgents (session : SessionState) : SessionState :=
  { session with
    activeAgentWorkingDirectories := ∅
    agentActive := false
    agentWorkingDirectory := none }

/-- The branch of `Detach` for a session that nobody is attached to any more. -/
def SessionState.abandon (isGit : String → Bool) (session : SessionState) (now : Time)
    (nextGeneration : ℕ) : SessionState × ℕ :=
  let r := session.clearAgents.invalidateProviders nextGeneration
  let r := r.1.invalidateGitStatusWorkingDirectory isGit r.2
  ({ r.1.nextUpdate with detachedAt := some now }, r.2)

/-- Whether an agent runs at an attachment, and in which directory. -/
def SessionState.setActiveAgent (session : SessionState) (attachment : AttachmentId)
    (agentActive : Bool) (workingDirectory : Option String) : SessionState :=
  { session with
    activeAgentWorkingDirectories :=
      if agentActive then session.activeAgentWorkingDirectories.insert attachment
        (workingDirectory.filter (· ≠ ""))
      else session.activeAgentWorkingDirectories.erase attachment }

namespace Broker

/-- `Attach`; an empty identifier of the session is refused. -/
def attach (b : Broker) (context : SessionContext) (visibleFields : VisibleFieldMap)
    (now : Time) : Locked :=
  if context.sessionId = "" then { broker := b }
  else
    let b := b.pruneDetachedSessions now
    let attachment := b.nextAttachment
    let entered := b.enter context
    let sessionId := entered.session.context.sessionId
    let r := (entered.session.addAttachment attachment visibleFields).recomputeAgentWorkingDirectory
      b.isGitStatus entered.nextGeneration
    let session := r.1
    let existing := b.updateFor sessionId session [] attachment
    let previous := if r.2.2 then
        (b.notificationsFor sessionId session []).filter (·.1 ≠ attachment)
      else []
    { broker :=
        { b.store context.sessionId session r.2.1 with
          attachmentSessions := b.attachmentSessions.insert attachment sessionId
          nextAttachment := b.nextAttachment + 1
          nextSessionIncarnation := entered.nextSessionIncarnation }
      notifications := previous ++
        if entered.contextChanged || existing.presentation.isSome then [(attachment, existing)]
        else []
      refreshes := [{ sessionId, reason := .paneConnected, initial := true }] }

/-- The part of `Detach` between the lookup of the session and the removal of the attachment. -/
def leave (b : Broker) (sessionId : String) (session : SessionState) (attachment : AttachmentId)
    (now : Time) : Locked :=
  let selectionRemoved := (session.visibleFieldsByAttachment.lookup attachment).isSome
  let session := session.removeAttachment attachment
  if session.callbacks = [] then
    let r := session.abandon b.isGitStatus now b.nextGeneration
    { broker := b.store sessionId r.1 r.2 }
  else
    let r := session.recomputeAgentWorkingDirectory b.isGitStatus b.nextGeneration
    if r.2.2 then
      { broker := b.store sessionId r.1 r.2.1
        notifications := b.notificationsFor sessionId r.1 []
        refreshes := [{ sessionId, reason := .workingDirectoryChanged
                        onlyProvider := some gitStatusId }] }
    else if selectionRemoved then
      let session := r.1.nextUpdate
      { broker := b.store sessionId session r.2.1
        notifications := b.notificationsFor sessionId session []
        refreshes := [{ sessionId, reason := .manualRefresh }] }
    else { broker := b.store sessionId r.1 r.2.1 }

/-- `Detach`, with the time at which the session is left and the time at which old sessions are
looked for. -/
def detach (b : Broker) (attachment : AttachmentId) (now pruneNow : Time) : Locked :=
  match b.attachmentSessions.lookup attachment with
  | none => { broker := b }
  | some sessionId =>
    let left : Locked := match b.sessions.lookup sessionId with
      | none => { broker := b }
      | some session => b.leave sessionId session attachment now
    { left with
      broker := { left.broker with
        attachmentSessions := left.broker.attachmentSessions.erase attachment
        : Broker }.pruneDetachedSessions pruneNow }

/-- The session that an attachment belongs to. -/
def sessionOf (b : Broker) (attachment : AttachmentId) : Option (String × SessionState) :=
  (b.attachmentSessions.lookup attachment).bind fun sessionId =>
    (b.sessions.lookup sessionId).map (sessionId, ·)

def updateContext (b : Broker) (attachment : AttachmentId) (workingDirectory : Path)
    (authoritative : Bool) (shellType : Option String) : Locked :=
  match b.sessionOf attachment with
  | none => { broker := b }
  | some (sessionId, session) =>
    if session.HasContext workingDirectory authoritative shellType then { broker := b }
    else
      let session := (session.setContext workingDirectory authoritative shellType).nextUpdate
      let r := session.invalidateGitStatusWorkingDirectory b.isGitStatus b.nextGeneration
      { broker := b.store sessionId r.1 r.2
        notifications := b.notificationsFor r.1.context.sessionId r.1 []
        refreshes := [{ sessionId := r.1.context.sessionId, reason := .workingDirectoryChanged }] }

def updateFirstPartyFields (b : Broker) (attachment : AttachmentId)
    (fields : Table String String) : Locked :=
  match b.sessionOf attachment with
  | none => { broker := b }
  | some (sessionId, session) =>
    if session.context.firstPartyFields.toFinmap = fields.toFinmap then { broker := b }
    else
      let session := { session with
        context := { session.context with firstPartyFields := fields }
        contextRevision := session.contextRevision + 1 }
      let r := session.invalidateProviders b.nextGeneration
      let session := r.1.nextUpdate
      { broker := b.store sessionId session r.2
        notifications := b.notificationsFor sessionId session []
        refreshes := [{ sessionId, reason := .manualRefresh }] }

def updateAgentWorkingDirectory (b : Broker) (attachment : AttachmentId) (agentActive : Bool)
    (workingDirectory : Option String) : Locked :=
  match b.sessionOf attachment with
  | none => { broker := b }
  | some (sessionId, session) =>
    let r := (session.setActiveAgent attachment agentActive workingDirectory
      ).recomputeAgentWorkingDirectory b.isGitStatus b.nextGeneration
    if r.2.2 then
      { broker := b.store sessionId r.1 r.2.1
        notifications := b.notificationsFor sessionId r.1 []
        refreshes := [{ sessionId, reason := .workingDirectoryChanged
                        onlyProvider := some gitStatusId }] }
    else { broker := b.store sessionId r.1 r.2.1 }

/-- `Notify`; `Activate` is `Notify` with `ActivationEvent.tabActivated`. -/
def notify (b : Broker) (attachment : AttachmentId) (reason : ActivationEvent) : Locked :=
  match b.attachmentSessions.lookup attachment with
  | none => { broker := b }
  | some sessionId => { broker := b, refreshes := [{ sessionId, reason }] }

end Broker

/-! ### Runs -/

/-- A call of `_RunProvider`. -/
structure Run where
  provider : Registration
  request : Request
  generation : ℕ

/-- The event for which a refresh asks a provider, if it asks it. -/
def RefreshCall.activation (packageRoot : Path) (call : RefreshCall) (provider : Registration) :
    Option ActivationEvent :=
  if call.onlyProvider.any fun id =>
      provider.manifest.id ≠ id || !isBuiltInGitStatus packageRoot provider then none
  else if provider.manifest.handles call.reason then some call.reason
  else if call.initial && provider.manifest.handles .manualRefresh then some .manualRefresh
  else none

namespace Broker

/-- The first-party fields that a provider is asked with. -/
def requestFields (b : Broker) (session : SessionState) (provider : Registration) :
    Table String String :=
  let fields := session.context.firstPartyFields
  if isBuiltInGitStatus b.packageRoot provider then
    let fields := fields.insert "gitBinary" (b.gitBinary.getD "")
    if session.agentActive then
      let fields := fields.insert "agentCwdActive" "true"
      match session.agentWorkingDirectory with
      | none => fields
      | some directory => fields.insert "agentWorkingDirectory" directory
    else fields
  else fields

/-- The request that `_Refresh` builds for a provider. -/
def buildRequest (b : Broker) (session : SessionState) (provider : Registration)
    (reason : ActivationEvent) (hostRequestId : ℕ) : Request where
  requestId := toString b.processEpoch ++ "-" ++ toString hostRequestId
  hostRequestId
  diagnosticSessionToken := session.sessionIncarnation
  providerId := provider.manifest.id
  processEpoch := b.processEpoch
  sessionId := session.context.sessionId
  reason
  workingDirectory := session.context.workingDirectory
  workingDirectoryAuthoritative := session.context.workingDirectoryAuthoritative
  contextRevision := session.contextRevision
  shellType := session.context.shellType
  firstPartyFields := b.requestFields session provider
  visibleFields := b.visibleFieldsForSession session provider

end Broker

/-- What the loop of `_Refresh` has reached: the counters, the states of the providers, the runs
to enqueue, and those that are parked behind a run. -/
structure Refreshing where
  nextGeneration : ℕ
  nextRequest : ℕ
  providers : Table String ProviderState
  work : List Run := []
  parked : List Run := []

namespace Refreshing

/-- The state of a provider, if it is asked while no run of it is in progress. -/
def start (r : Refreshing) (state : ProviderState) (run : Run) : Refreshing :=
  { r with
    nextGeneration := r.nextGeneration + 1
    nextRequest := r.nextRequest + 1
    providers := r.providers.insert run.request.providerId
      { state with
        generation := run.generation, running := true, runningGeneration := run.generation }
    work := r.work ++ [run] }

/-- The state of a provider, if it is asked while a run of it is in progress. -/
def park (r : Refreshing) (state : ProviderState) (run : Run) : Refreshing :=
  { r with
    nextGeneration := r.nextGeneration + 1
    nextRequest := r.nextRequest + 1
    providers := r.providers.insert run.request.providerId
      { state with
        generation := run.generation, pending := some ⟨run.request, run.generation⟩ }
    parked := r.parked ++ [run] }

/-- The state of a provider of which nothing is shown. -/
def hide (r : Refreshing) (state : ProviderState) (id : String) : Refreshing :=
  { r with
    nextGeneration := r.nextGeneration + 1
    providers := r.providers.insert id (state.reset r.nextGeneration) }

/-- One turn of the loop of `_Refresh`. -/
def askProvider (b : Broker) (session : SessionState) (call : RefreshCall) (r : Refreshing)
    (provider : Registration) : Refreshing :=
  match call.activation b.packageRoot provider with
  | none => r
  | some reason =>
    let state := (r.providers.lookup provider.manifest.id).getD {}
    if b.visibleFieldsForSession session provider = [] then r.hide state provider.manifest.id
    else
      let run := { provider, generation := r.nextGeneration
                   request := b.buildRequest session provider reason r.nextRequest : Run }
      if state.running then r.park state run else r.start state run

end Refreshing

/-- What `_Refresh` leaves: the broker, the runs to enqueue, and the parked ones. -/
structure Refreshed where
  broker : Broker
  work : List Run := []
  parked : List Run := []

namespace Broker

def refresh (b : Broker) (call : RefreshCall) : Refreshed :=
  match b.sessions.lookup call.sessionId with
  | none => { broker := b }
  | some session =>
    if session.callbacks = [] then { broker := b }
    else
      let r := b.providers.registrations.foldl (Refreshing.askProvider b session call)
        { nextGeneration := b.nextGeneration, nextRequest := b.nextRequest
          providers := session.providers }
      { broker :=
          { b.store call.sessionId { session with providers := r.providers } r.nextGeneration with
            nextRequest := r.nextRequest }
        work := r.work, parked := r.parked }

end Broker

/-- What became of a run (`ProviderBrokerDisposition`). -/
inductive Disposition
  | sessionMissing
  | providerStateMissing
  | runningGenerationMismatch
  | generationMismatch
  | contextRevisionMismatch
  | accepted
  deriving DecidableEq, Repr

/-- What serializing the request, running the provider and parsing its output came to. -/
structure RunOutcome where
  snapshot : Option Snapshot
  diagnostics : List String := []

/-- The snapshot of a run, with the semantic status of its request. -/
def Run.result (run : Run) (outcome : RunOutcome) : Option Snapshot :=
  outcome.snapshot.map fun snapshot =>
    match run.request.firstPartyFields.lookup "agentStatusId" with
    | none => snapshot
    | some status => { snapshot with agentStatus := status }

/-- What the end of a run leaves: the broker, the updates, the run that was parked, and what
became of this one. -/
structure Finished where
  broker : Broker
  notifications : List (AttachmentId × BrokerUpdate) := []
  next : Option Run := none
  disposition : Disposition

/-- The run that was parked behind the finished one takes its place. -/
def ProviderState.promote (state : ProviderState) : ProviderState :=
  match state.pending with
  | none => state
  | some next =>
    { state with pending := none, running := true, runningGeneration := next.generation }

namespace Broker

/-- What becomes of a run that is the one in progress for the state of its provider. -/
def judge (session : SessionState) (state : ProviderState) (run : Run) : Disposition :=
  if state.generation ≠ run.generation then .generationMismatch
  else if session.contextRevision ≠ run.request.contextRevision then .contextRevisionMismatch
  else .accepted

def endState (session : SessionState) (state : ProviderState) (run : Run) (outcome : RunOutcome) :
    ProviderState :=
  if judge session state run = .accepted then
    { state with running := false, snapshot := run.result outcome }
  else { state with running := false }

/-- The session when a run in progress ends. -/
def endSession (session : SessionState) (state : ProviderState) (run : Run) : SessionState :=
  if judge session state run = .accepted then session.nextUpdate else session

/-- The locked section of `_RunProvider`. The updates are made before the parked request, if there
is one, takes the place of the run. -/
def runProvider (b : Broker) (run : Run) (outcome : RunOutcome) : Finished :=
  match b.sessions.lookup run.request.sessionId with
  | none => { broker := b, disposition := .sessionMissing }
  | some session =>
    match session.providers.lookup run.provider.manifest.id with
    | none => { broker := b, disposition := .providerStateMissing }
    | some state =>
      if !state.running || state.runningGeneration ≠ run.generation then
        { broker := b, disposition := .runningGenerationMismatch }
      else
        let disposition := judge session state run
        let state' := endState session state run outcome
        let session' := endSession session state run
        { broker := b.store run.request.sessionId
            (session'.setProvider run.provider.manifest.id state'.promote) b.nextGeneration
          notifications := if disposition = .accepted then
              b.notificationsFor run.request.sessionId
                (session'.setProvider run.provider.manifest.id state') outcome.diagnostics
            else []
          next := state.pending.map fun next =>
            { provider := run.provider, request := next.request, generation := next.generation }
          disposition }

end Broker

end IntelligentTerminal.RichTab
