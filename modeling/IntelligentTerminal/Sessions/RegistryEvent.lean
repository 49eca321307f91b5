import IntelligentTerminal.Sessions.Registry

/-!
# Events in the master's registry

`apply_event_qualified_at_ms`: the events of hooks and of the terminal. An event is addressed by a
raw session id or by a pane. What belongs to a native pane is not touched by it.

Source: `tools/wta/src/session_registry.rs`, lines 4010-4736.
-/

namespace IntelligentTerminal.Sessions

/-- The later of two times that may be missing. -/
def SessionInfo.laterAttention : Option ℕ → Option ℕ → Option ℕ
  | none, b => b
  | a, none => a
  | some a, some b => some (max a b)

/-- What `SessionEvent::SessionStarted` makes of a row. The status of a live row is kept. -/
def SessionInfo.start (entry : SessionInfo) (isNewEntry : Bool) (cliSource : CliSource)
    (pane : Option String) (cwd : PathBuf) (title : String) (now : ℕ) : SessionInfo :=
  let evidence :=
    if entry.isOver ∨ entry.paneSessionId ≠ pane then
      { entry.cwdEvidence with acp := none, acpAgent := none, hookAfterAcp := false }
    else entry.cwdEvidence
  let entry :=
    { entry with
      cwdEvidence := { evidence with hook := some cwd, hookAfterAcp := evidence.acp.isSome }
      cwd := evidence.acp.getD cwd
      title := if title ≠ "" then some title else entry.title
      providerId := cliSource.canonicalProviderId
      cliSource := some cliSource
      location := if entry.location = SessionLocation.unknown then .host else entry.location }
  let entry :=
    if isNewEntry ∨ entry.status ∈ [some AgentStatus.ended, some .error, some .historical] then
      { entry with
        status := some .idle, lastError := none, attentionReason := none
        attentionTimestampMs := none, attentionCooldownUntilMs := none, currentTool := none }
    else entry
  { entry with lastActivityAtMs := some now, paneSessionId := pane, bornBoundPane := false }

namespace RegistryState

variable (crates : Crates)

/-! ### The arms -/

/-- Another row owns the pane that WTA bound for it, and is idle or at work. -/
def ownedByOtherBornBound (s : RegistryState) (existing : Option SessionIdentity) (pane : String) :
    Bool :=
  (((s.activeByPane.lookup pane).filter fun owner => some owner ≠ existing).bind
    fun owner => s.sessions.lookup owner).any fun owner =>
      owner.bornBoundPane &&
        owner.status ∈ [some AgentStatus.idle, some .working, some .attention]

/-- Ends the session that another session takes the pane over from. -/
def endPreviousOwner (s : RegistryState) (existing : Option SessionIdentity) (pane : String)
    (now : ℕ) : RegistryState :=
  match s.activeByPane.lookup pane with
  | none => s
  | some previous =>
    if some previous ≠ existing then (s.endEntry crates previous now).1 else s

/-- `SessionEvent::SessionStarted`, for a row that is not the protected one of an agent pane. -/
def startSession (s : RegistryState) (existing : Option SessionIdentity) (key : AgentKey)
    (cliSource : CliSource) (pane : String) (cwd : PathBuf) (title : String) (now : ℕ) :
    RegistryState :=
  let paneKnown : Bool := pane ≠ "" && !s.ownedByOtherBornBound existing pane
  let s := if paneKnown then s.endPreviousOwner crates existing pane now else s
  let (s, removed) :=
    match existing with
    | none => (s, none)
    | some identity => s.removeIdentityLocked crates identity
  let entry := removed.getD (SessionInfo.new key cwd)
  s.upsertLocked crates
    (entry.start existing.isNone cliSource (if paneKnown then some pane else none) cwd title now)

/-- `SessionEvent::SessionStarted`. -/
def sessionStarted (s : RegistryState) (key : AgentKey) (cliSource : CliSource) (pane : String)
    (cwd : PathBuf) (title : String) (now : ℕ) : RegistryState × Bool :=
  let existing := s.uniqueIdentityForRaw key
  match existing.bind fun identity =>
      (s.sessions.lookup identity).map fun entry => (identity, entry) with
  | some (identity, entry) =>
    if entry.origin = some .agentPane ∧ entry.paneSessionId.isSome then
      -- the hook comes from where a tool ran, not from the pane of the agent
      (s.setRow identity
        { entry with
          lastActivityAtMs := some now
          title := if entry.title = none ∧ title ≠ "" then some title else entry.title },
        true)
    else (s.startSession crates existing key cliSource pane cwd title now, true)
  | none => (s.startSession crates existing key cliSource pane cwd title now, true)

/-- `SessionEvent::SessionRenamed`. -/
def sessionRenamed (s : RegistryState) (key : AgentKey) (pane title : String) (now : ℕ) :
    RegistryState × Bool :=
  if pane = "" ∨ trim title = "" then (s, false)
  else
    match s.uniqueIdentityForRaw key with
    | none => (s, false)
    | some identity =>
      if s.activeByPane.lookup pane ≠ some identity then (s, false)
      else
        match s.sessions.lookup identity with
        | none => (s, false)
        | some entry =>
          if entry.cliSource ≠ some .openCode ∨ entry.paneSessionId ≠ some pane ∨
              !entry.isLive ∨ entry.title = some title then
            (s, false)
          else
            (s.setRow identity { entry with title := some title, lastActivityAtMs := some now },
              true)

/-- `SessionEvent::WorkingDirectoryChanged`. -/
def workingDirectoryChanged (s : RegistryState) (key : AgentKey) (pane : String) (cwd : PathBuf)
    (now : ℕ) : RegistryState × Bool :=
  if cwd = [] ∨ pane = "" then (s, false)
  else
    match s.uniqueIdentityForRaw key with
    | none => (s, false)
    | some identity =>
      if s.activeByPane.lookup pane ≠ some identity then (s, false)
      else
        match s.sessions.lookup identity with
        | none => (s, false)
        | some entry =>
          if !entry.isLive then (s, false)
          else if entry.cwdEvidence.hook = some cwd ∧ entry.cwdEvidence.acp = none ∧
              entry.cwd = cwd then
            (s, false)
          else
            let s := s.advanceCwdRevision
            let evidence : CwdEvidence :=
              { hook := some cwd, acp := none, acpAgent := none, hookAfterAcp := false
                revision := s.nextCwdRevision }
            if entry.cwd = cwd then (s.setRow identity { entry with cwdEvidence := evidence }, false)
            else
              (s.setRow identity
                { entry with cwdEvidence := evidence, cwd, lastActivityAtMs := some now },
                true)

/-- The row that an event of activity is for. -/
def activityRow (s : RegistryState) (qualified : Option SessionIdentity) (key : AgentKey) :
    Option (SessionIdentity × SessionInfo) :=
  (qualified.or (s.uniqueIdentityForRaw key)).bind fun identity =>
    (s.sessions.lookup identity).map fun entry => (identity, entry)

/-- `SessionEvent::ToolStarting`. A row that is over is not resurrected. -/
def toolStarting (s : RegistryState) (qualified : Option SessionIdentity) (key : AgentKey)
    (toolName : String) (now : ℕ) : RegistryState × Bool :=
  match s.activityRow qualified key with
  | none => (s, false)
  | some (identity, entry) =>
    if entry.isOver then (s, false)
    else
      (s.setRow identity
        { entry with
          status := some .working, attentionCooldownUntilMs := none, currentTool := some toolName
          lastActivityAtMs := some now },
        true)

/-- `SessionEvent::ToolReturned`. A return that predates the question somebody waits for does not
answer it. -/
def toolReturned (s : RegistryState) (qualified : Option SessionIdentity) (key : AgentKey)
    (timestampMs : Option ℕ) (now : ℕ) : RegistryState × Bool :=
  match s.activityRow qualified key with
  | none => (s, false)
  | some (identity, entry) =>
    if entry.cliSource ≠ some .copilot ∨
        entry.status ∉ [some AgentStatus.working, some .attention] then
      (s, false)
    else if entry.status = some .attention ∧ entry.attentionCooldownUntilMs.any (now < ·) then
      (s, false)
    else if entry.status = some .attention ∧
        (timestampMs.any fun returned => entry.attentionTimestampMs.any (returned < ·)) then
      (s, false)
    else
      (s.setRow identity
        { entry with
          status := some .working, currentTool := none, attentionReason := none
          attentionTimestampMs := none, attentionCooldownUntilMs := none
          lastActivityAtMs := some now },
        true)

/-- `SessionEvent::ToolCompleted`. -/
def toolCompleted (s : RegistryState) (qualified : Option SessionIdentity) (key : AgentKey)
    (now : ℕ) : RegistryState × Bool :=
  match s.activityRow qualified key with
  | none => (s, false)
  | some (identity, entry) =>
    if entry.isOver then (s, false)
    else
      let entry :=
        if entry.status = some .working ∨ entry.status = some .attention then
          { entry with
            status := some .idle, attentionReason := none, attentionTimestampMs := none
            attentionCooldownUntilMs := none }
        else entry
      (s.setRow identity { entry with currentTool := none, lastActivityAtMs := some now }, true)

/-- `SessionEvent::Notification`. -/
def notification (s : RegistryState) (qualified : Option SessionIdentity) (key : AgentKey)
    (message : String) (timestampMs : Option ℕ) (now : ℕ) : RegistryState × Bool :=
  match s.activityRow qualified key with
  | none => (s, false)
  | some (identity, entry) =>
    if entry.isOver then (s, false)
    else
      (s.setRow identity
        { entry with
          attentionTimestampMs :=
            if entry.status = some .attention then
              SessionInfo.laterAttention entry.attentionTimestampMs timestampMs
            else timestampMs
          status := some .attention
          attentionCooldownUntilMs :=
            if entry.cliSource = some .copilot then
              some (saturatingAdd now copilotAttentionCooldownMs)
            else none
          attentionReason := some message
          lastActivityAtMs := some now },
        true)

/-- `SessionEvent::SessionUnbound`. -/
def sessionUnbound (s : RegistryState) (key : AgentKey) (pane : String) : RegistryState × Bool :=
  if pane = "" then (s, false)
  else
    match s.uniqueIdentityForRaw key with
    | none => (s, false)
    | some identity =>
      match s.sessions.lookup identity with
      | none => (s, false)
      | some row =>
        if s.activeByPane.lookup pane = some identity ∧ row.cliSource = some .openCode ∧
            row.paneSessionId = some pane ∧ row.isLive then
          let s := { s with activeByPane := s.activeByPane.erase pane }
          let s := s.advanceCwdRevision
          (s.setRow identity
            { row with
              paneSessionId := none, bornBoundPane := false
              cwdEvidence := { row.cwdEvidence with revision := s.nextCwdRevision } },
            true)
        else (s, false)

/-- `SessionEvent::SessionStopped`. The row of an agent pane stays when only the conversation is
complete. -/
def sessionStopped (s : RegistryState) (key : AgentKey) (reason : String) (now : ℕ) :
    RegistryState × Bool :=
  match s.uniqueIdentityForRaw key with
  | none => (s, false)
  | some identity =>
    let s := s.advanceCwdRevision
    match s.sessions.lookup identity with
    | none => (s, false)
    | some entry =>
      let paneStillLive := entry.paneSessionId.any fun p =>
        s.activeByPane.lookup (crates.paneKey p) = some identity
      let stopped :=
        { entry with
          currentTool := none, attentionReason := none, attentionTimestampMs := none
          attentionCooldownUntilMs := none, lastActivityAtMs := some now }
      if entry.origin = some .agentPane ∧ paneStillLive ∧ reason = "complete" then
        (s.setRow identity { stopped with status := some .idle }, true)
      else
        ((s.releasePane crates identity entry.paneSessionId).setRow identity
          { stopped with
            status := some .ended, paneSessionId := none, bornBoundPane := false
            cwdEvidence := { entry.cwdEvidence with revision := s.nextCwdRevision } },
          true)

/-- `SessionEvent::PaneClosed`. -/
def paneClosed (s : RegistryState) (pane : String) (now : ℕ) : RegistryState × Bool :=
  let s :=
    if s.paneConnections.lookup pane = some .connected then
      { s with paneConnections := s.paneConnections.erase pane }
    else s
  match s.activeByPane.lookup pane with
  | none => (s, false)
  | some identity =>
    let s := { s with activeByPane := s.activeByPane.erase pane }
    let s := s.advanceCwdRevision
    match s.sessions.lookup identity with
    | none => (s, false)
    | some entry =>
      (s.setRow identity
        { entry with
          status := some .ended
          cwdEvidence := { entry.cwdEvidence with revision := s.nextCwdRevision }
          paneSessionId := none, bornBoundPane := false, currentTool := none
          attentionReason := none, attentionTimestampMs := none, attentionCooldownUntilMs := none
          lastActivityAtMs := some now },
        true)

/-- `SessionEvent::ResumeDispatched`. -/
def resumeDispatched (s : RegistryState) (key : AgentKey) (clock : ℕ) : RegistryState × Bool :=
  match s.uniqueIdentityForRaw key with
  | none => (s, false)
  | some identity =>
    let (s, marked) := s.markResumeDispatchedIdentityLocked crates identity clock
    (s, marked.any (·.1))

/-- `SessionEvent::ResumeFailed`. -/
def resumeFailed (s : RegistryState) (key : AgentKey) (reason : String) (now : ℕ) :
    RegistryState × Bool :=
  match s.uniqueIdentityForRaw key with
  | none => (s, false)
  | some identity =>
    match s.sessions.lookup identity with
    | none => (s, false)
    | some entry =>
      if entry.status = some .idle ∧ entry.paneSessionId = none then
        (s.setRow identity
          { entry with
            status := some .historical, lastError := some reason, lastActivityAtMs := some now },
          true)
      else (s, false)

/-- `SessionEvent::ResumePaneAssigned`. A callback does not revive a row that is over. -/
def resumePaneAssigned (s : RegistryState) (key : AgentKey) (pane : String) (now clock : ℕ) :
    RegistryState × Bool :=
  match s.uniqueIdentityForRaw key with
  | none => (s, false)
  | some identity =>
    if (s.sessions.lookup identity).any (·.isOver) then (s, false)
    else s.assignResumePaneIdentityLocked crates identity pane now clock

/-! ### Native panes -/

/-- The activity that an unqualified event reports belongs to a native pane. -/
def isNativeActivity (s : RegistryState) (qualified : Option SessionIdentity) (key : AgentKey) :
    Bool :=
  qualified.isNone &&
    s.nativePanes.values.any fun native =>
      native.boundIdentity.any fun identity =>
        identity.sessionId = key ∧
          s.activeByPane.lookup native.observation.paneId = some identity ∧
          s.nativeBoundIdentity crates native.observation = some identity

/-- The pane that an event would change. -/
def protectedPane (s : RegistryState) : SessionEvent → Option String
  | .sessionStarted _ _ pane _ _ | .connectionFailed pane _ | .sessionUnbound _ pane
  | .paneClosed pane => some (crates.paneKey pane)
  | .sessionStopped key _ =>
    ((s.uniqueIdentityForRaw key).bind fun identity =>
      (s.sessions.lookup identity).bind (·.paneSessionId)).map crates.paneKey
  | _ => none

/-- The pane that an event would change is a native one. -/
def isProtected (s : RegistryState) (ev : SessionEvent) : Bool :=
  (s.protectedPane crates ev).any fun pane => (s.nativePanes.lookup pane).isSome

/-- `SessionEvent::SessionStoppedIfOwner`. -/
def sessionStoppedIfOwner (s : RegistryState) (key : AgentKey) (pane : Option String)
    (reason : String) (now : ℕ) : RegistryState × Bool :=
  match s.uniqueIdentityForRaw key with
  | none => (s, false)
  | some identity =>
    if (s.sessions.lookup identity).any fun row =>
        row.cliSource = some .openCode ∧ row.isLive ∧ row.paneSessionId = pane ∧
          (pane.all fun p => s.activeByPane.lookup p = some identity) then
      if s.isProtected crates (.sessionStopped key reason) then (s, false)
      else s.sessionStopped crates key reason now
    else (s, false)

/-! ### The reducer -/

/-- The arms of `apply_event_qualified_at_ms`, for an event in canonical form. -/
def applyArm (s : RegistryState) (qualified : Option SessionIdentity) (now clock : ℕ) :
    SessionEvent → RegistryState × Bool
  | .sessionStarted key cliSource pane cwd title =>
    s.sessionStarted crates key cliSource pane cwd title now
  | .sessionRenamed key pane title => s.sessionRenamed key pane title now
  | .workingDirectoryChanged key pane cwd => s.workingDirectoryChanged key pane cwd now
  | .toolStarting key toolName => s.toolStarting qualified key toolName now
  | .toolReturned key timestampMs => s.toolReturned qualified key timestampMs now
  | .toolCompleted key => s.toolCompleted qualified key now
  | .notification key message timestampMs => s.notification qualified key message timestampMs now
  | .sessionUnbound key pane => s.sessionUnbound key pane
  | .sessionStoppedIfOwner key pane reason => s.sessionStoppedIfOwner crates key pane reason now
  | .sessionStopped key reason => s.sessionStopped crates key reason now
  | .paneClosed pane => s.paneClosed pane now
  | .connectionFailed pane reason => s.applyConnectionFailureLocked crates pane reason now
  | .resumeDispatched key => s.resumeDispatched crates key clock
  | .resumeFailed key reason => s.resumeFailed key reason now
  | .resumePaneAssigned key pane => s.resumePaneAssigned crates key pane now clock

def activityKey : SessionEvent → Option AgentKey
  | .toolStarting key _ | .toolReturned key _ | .toolCompleted key | .notification key _ _ =>
    some key
  | _ => none

def applyEventQualifiedAtMs (s : RegistryState) (ev : SessionEvent)
    (qualified : Option SessionIdentity) (now clock : ℕ) : RegistryState × Bool :=
  if (activityKey ev).any (s.isNativeActivity crates qualified) then (s, false)
  else if s.isProtected crates ev then (s, false)
  else s.applyArm crates qualified now clock (ev.canonical crates)

end RegistryState

end IntelligentTerminal.Sessions
