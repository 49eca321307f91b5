import IntelligentTerminal.Data.Table
import IntelligentTerminal.Sessions.Event

/-!
# The helper's registry of sessions

`AgentSessionRegistry` has a row for each session and an index that names the session of each
pane. Events of hooks and of the terminal change both, and so do the reconciliations with what the
master says.

Hash sets are lists here; no result depends on their order. The time that a function reads off
the clock is an argument.

Source: `tools/wta/src/agent_sessions.rs`, lines 329-388, 533-1135 and 1239-1579.
-/

namespace IntelligentTerminal.Sessions

structure AgentSession where
  key : AgentKey
  cliSource : CliSource
  paneSessionId : Option String := none
  windowId : Option ℕ := none
  tabId : Option ℕ := none
  title : String
  cwd : PathBuf
  startedAt : SystemTime
  lastActivityAt : SystemTime
  status : AgentStatus := .idle
  lastError : Option String := none
  currentTool : Option String := none
  attentionReason : Option String := none
  attentionTimestampMs : Option ℕ := none
  attentionCooldownUntilMs : Option ℕ := none
  logPath : Option PathBuf := none
  origin : SessionOrigin := .unknown
  location : SessionLocation := .host

namespace AgentSession

def liveness (s : AgentSession) : LivenessState :=
  match s.status with
  | .idle | .working | .attention | .error => .live
  | .ended => .ended
  | .historical => .historical
  | .inUse => .inUse

/-- No tool runs, and nobody waits for an answer. -/
def clearActivity (s : AgentSession) : AgentSession :=
  { s with
    currentTool := none, attentionReason := none, attentionTimestampMs := none
    attentionCooldownUntilMs := none }

/-- A session that has ended gives up its pane. -/
def toEnded (s : AgentSession) (now : SystemTime) : AgentSession :=
  { s.clearActivity with status := .ended, paneSessionId := none, lastActivityAt := now }

/-- What `SessionEvent::SessionStarted` makes of a row. The status of a live row is kept. -/
def start (s : AgentSession) (isNewEntry : Bool) (cliSource : CliSource) (pane : Option String)
    (cwd : PathBuf) (title : String) (now : SystemTime) : AgentSession :=
  let s :=
    { s with
      cliSource, cwd
      title := if title ≠ "" then title else s.title
      paneSessionId := pane }
  let s :=
    if isNewEntry ∨ s.status ∈ [AgentStatus.ended, .error, .historical, .inUse] then
      { s.clearActivity with status := .idle, lastError := none }
    else s
  { s with lastActivityAt := now }

end AgentSession

/-- The later of two times that may be missing. -/
def maxOption : Option ℕ → Option ℕ → Option ℕ
  | none, b => b
  | a, none => a
  | some a, some b => some (max a b)

structure AgentSessionRegistry where
  sessions : Table AgentKey AgentSession := ∅
  activeByPane : Table String AgentKey := ∅
  knownAlivePanes : List String := []
  dirty : Bool := false

namespace AgentSessionRegistry

variable (crates : Crates)

/-- Stores the row of a session. -/
def setSession (r : AgentSessionRegistry) (key : AgentKey) (entry : AgentSession) :
    AgentSessionRegistry :=
  { r with sessions := r.sessions.insert key entry, dirty := true }

/-! ### Events -/

/-- Ends the session that another session takes the pane over from. The index is changed by the
caller. -/
def demoteOwner (r : AgentSessionRegistry) (key : AgentKey) (pane : String) (now : SystemTime) :
    AgentSessionRegistry :=
  match r.activeByPane.lookup pane with
  | none => r
  | some prevKey =>
    if prevKey = key then r
    else
      match r.sessions.lookup prevKey with
      | none => r
      | some prev =>
        if prev.paneSessionId = some pane then
          { r with sessions := r.sessions.insert prevKey (prev.toEnded now) }
        else r

/-- Drops the binding of a row to another pane than `pane`. -/
def dropOldPane (index : Table String AgentKey) (entry : AgentSession) (pane : String) :
    Table String AgentKey :=
  match entry.paneSessionId with
  | none => index
  | some oldPane => if oldPane ≠ pane then index.erase oldPane else index

/-- `SessionEvent::SessionStarted`. -/
def sessionStarted (r : AgentSessionRegistry) (key : AgentKey) (cliSource : CliSource)
    (pane : String) (cwd : PathBuf) (title : String) (now : SystemTime) : AgentSessionRegistry :=
  let paneKnown : Bool := pane ≠ ""
  let r := if paneKnown then r.demoteOwner key pane now else r
  let isNewEntry := (r.sessions.lookup key).isNone
  let entry := (r.sessions.lookup key).getD
    { key, cliSource, title, cwd, startedAt := now, lastActivityAt := now }
  let activeByPane := dropOldPane r.activeByPane entry pane
  let newPane := if paneKnown then some pane else none
  { r.setSession key (entry.start isNewEntry cliSource newPane cwd title now) with
    activeByPane := if paneKnown then activeByPane.insert pane key else activeByPane }

/-- `SessionEvent::SessionRenamed`. -/
def sessionRenamed (r : AgentSessionRegistry) (key : AgentKey) (pane title : String)
    (now : SystemTime) : AgentSessionRegistry :=
  match r.sessions.lookup key with
  | none => r
  | some entry =>
    if entry.cliSource = .openCode ∧ entry.liveness = .live ∧ entry.paneSessionId = some pane ∧
        trim title ≠ "" ∧ entry.title ≠ title then
      r.setSession key { entry with title, lastActivityAt := now }
    else r

/-- `SessionEvent::WorkingDirectoryChanged`. -/
def workingDirectoryChanged (r : AgentSessionRegistry) (key : AgentKey) (pane : String)
    (cwd : PathBuf) (now : SystemTime) : AgentSessionRegistry :=
  if cwd ≠ [] ∧ r.activeByPane.lookup pane = some key then
    match r.sessions.lookup key with
    | none => r
    | some entry =>
      if entry.liveness = .live ∧ entry.cwd ≠ cwd then
        r.setSession key { entry with cwd, lastActivityAt := now }
      else r
  else r

/-- `SessionEvent::ToolStarting`. -/
def toolStarting (r : AgentSessionRegistry) (key : AgentKey) (toolName : String)
    (now : SystemTime) : AgentSessionRegistry :=
  match r.sessions.lookup key with
  | none => r
  | some entry =>
    r.setSession key
      { entry with
        status := .working, attentionCooldownUntilMs := none, currentTool := some toolName
        lastActivityAt := now }

/-- `SessionEvent::ToolReturned`. A return that predates the question somebody waits for does not
answer it. -/
def toolReturned (r : AgentSessionRegistry) (key : AgentKey) (timestampMs : Option ℕ)
    (now : SystemTime) : AgentSessionRegistry :=
  match r.sessions.lookup key with
  | none => r
  | some entry =>
    if entry.cliSource ≠ .copilot ∨ entry.status ∉ [AgentStatus.working, .attention] then r
    else if entry.status = .attention ∧
        entry.attentionCooldownUntilMs.any (systemTimeMs now < ·) then r
    else if entry.status = .attention ∧
        (timestampMs.any fun returned => entry.attentionTimestampMs.any (returned < ·)) then r
    else r.setSession key { entry.clearActivity with status := .working, lastActivityAt := now }

/-- `SessionEvent::ToolCompleted`. -/
def toolCompleted (r : AgentSessionRegistry) (key : AgentKey) (now : SystemTime) :
    AgentSessionRegistry :=
  match r.sessions.lookup key with
  | none => r
  | some entry =>
    let entry :=
      if entry.status = .working ∨ entry.status = .attention then
        { entry with
          status := .idle, attentionReason := none, attentionTimestampMs := none
          attentionCooldownUntilMs := none }
      else entry
    r.setSession key { entry with currentTool := none, lastActivityAt := now }

/-- `SessionEvent::Notification`. -/
def notification (r : AgentSessionRegistry) (key : AgentKey) (message : String)
    (timestampMs : Option ℕ) (now : SystemTime) : AgentSessionRegistry :=
  match r.sessions.lookup key with
  | none => r
  | some entry =>
    r.setSession key
      { entry with
        attentionTimestampMs :=
          if entry.status = .attention then maxOption entry.attentionTimestampMs timestampMs
          else timestampMs
        status := .attention
        attentionCooldownUntilMs :=
          if entry.cliSource = .copilot then
            some (saturatingAdd (systemTimeMs now) copilotAttentionCooldownMs)
          else none
        attentionReason := some message
        lastActivityAt := now }

/-- `SessionEvent::SessionUnbound`. -/
def sessionUnbound (r : AgentSessionRegistry) (key : AgentKey) (pane : String) :
    AgentSessionRegistry :=
  match r.sessions.lookup key with
  | none => r
  | some entry =>
    if r.activeByPane.lookup pane = some key ∧ entry.cliSource = .openCode ∧
        entry.paneSessionId = some pane ∧ entry.liveness = .live then
      { r.setSession key { entry with paneSessionId := none } with
        activeByPane := r.activeByPane.erase pane }
    else r

/-- `SessionEvent::SessionStopped`. The row of an agent pane stays when only the conversation is
complete. -/
def sessionStopped (r : AgentSessionRegistry) (key : AgentKey) (reason : String)
    (now : SystemTime) : AgentSessionRegistry :=
  match r.sessions.lookup key with
  | none => r
  | some entry =>
    let paneStillLive := entry.paneSessionId.any fun p => r.activeByPane.lookup p = some key
    if entry.origin = .agentPane ∧ paneStillLive ∧ reason = "complete" then
      r.setSession key { entry.clearActivity with status := .idle, lastActivityAt := now }
    else
      { r.setSession key (entry.toEnded now) with
        activeByPane :=
          match entry.paneSessionId with
          | none => r.activeByPane
          | some pane => r.activeByPane.erase pane }

/-- `SessionEvent::SessionStoppedIfOwner`. -/
def sessionStoppedIfOwner (r : AgentSessionRegistry) (key : AgentKey) (pane : Option String)
    (reason : String) (now : SystemTime) : AgentSessionRegistry :=
  match r.sessions.lookup key with
  | none => r
  | some entry =>
    if entry.cliSource = .openCode ∧ entry.liveness = .live ∧ entry.paneSessionId = pane ∧
        (pane.all fun p => r.activeByPane.lookup p = some key) then
      r.sessionStopped key reason now
    else r

/-- `SessionEvent::PaneClosed`. -/
def paneClosed (r : AgentSessionRegistry) (pane : String) (now : SystemTime) :
    AgentSessionRegistry :=
  match r.activeByPane.lookup pane with
  | none => r
  | some key =>
    let r := { r with activeByPane := r.activeByPane.erase pane }
    match r.sessions.lookup key with
    | none => r
    | some entry => r.setSession key (entry.toEnded now)

/-- `SessionEvent::ConnectionFailed`. -/
def connectionFailed (r : AgentSessionRegistry) (pane reason : String) (now : SystemTime) :
    AgentSessionRegistry :=
  match r.activeByPane.lookup pane with
  | none => r
  | some key =>
    match r.sessions.lookup key with
    | none => r
    | some entry =>
      if entry.status = .error ∧ entry.lastError = some reason then r
      else
        r.setSession key
          { entry with
            status := .error, attentionCooldownUntilMs := none, lastError := some reason
            lastActivityAt := now }

/-- `SessionEvent::ResumeDispatched`. -/
def resumeDispatched (r : AgentSessionRegistry) (key : AgentKey) (now : SystemTime) :
    AgentSessionRegistry :=
  match r.sessions.lookup key with
  | none => r
  | some entry =>
    if entry.status = .historical ∨ entry.status = .ended then
      r.setSession key { entry with status := .idle, lastActivityAt := now }
    else r

/-- `SessionEvent::ResumeFailed`. -/
def resumeFailed (r : AgentSessionRegistry) (key : AgentKey) (reason : String)
    (now : SystemTime) : AgentSessionRegistry :=
  match r.sessions.lookup key with
  | none => r
  | some entry =>
    if entry.status = .idle ∧ entry.paneSessionId = none then
      r.setSession key
        { entry with status := .historical, lastError := some reason, lastActivityAt := now }
    else r

/-- `SessionEvent::ResumePaneAssigned`. The owner of the pane is ended before the row of the
session is looked up. -/
def resumePaneAssigned (r : AgentSessionRegistry) (key : AgentKey) (pane : String)
    (now : SystemTime) : AgentSessionRegistry :=
  if (r.sessions.lookup key).any fun entry => entry.status = .historical ∨ entry.status = .ended
  then r
  else
    let r := r.demoteOwner key pane now
    match r.sessions.lookup key with
    | none => r
    | some entry =>
      if entry.paneSessionId = some pane then r
      else
        { r.setSession key { entry with paneSessionId := some pane, lastActivityAt := now } with
          activeByPane := (dropOldPane r.activeByPane entry pane).insert pane key }

def applyAt (r : AgentSessionRegistry) (ev : SessionEvent) (now : SystemTime) :
    AgentSessionRegistry :=
  match ev.canonical crates with
  | .sessionStarted key cliSource pane cwd title =>
    r.sessionStarted key cliSource pane cwd title now
  | .sessionRenamed key pane title => r.sessionRenamed key pane title now
  | .workingDirectoryChanged key pane cwd => r.workingDirectoryChanged key pane cwd now
  | .toolStarting key toolName => r.toolStarting key toolName now
  | .toolReturned key timestampMs => r.toolReturned key timestampMs now
  | .toolCompleted key => r.toolCompleted key now
  | .notification key message timestampMs => r.notification key message timestampMs now
  | .sessionUnbound key pane => r.sessionUnbound key pane
  | .sessionStoppedIfOwner key pane reason => r.sessionStoppedIfOwner key pane reason now
  | .sessionStopped key reason => r.sessionStopped key reason now
  | .paneClosed pane => r.paneClosed pane now
  | .connectionFailed pane reason => r.connectionFailed pane reason now
  | .resumeDispatched key => r.resumeDispatched key now
  | .resumeFailed key reason => r.resumeFailed key reason now
  | .resumePaneAssigned key pane => r.resumePaneAssigned key pane now

/-! ### Reconciliation -/

def setOrigin (r : AgentSessionRegistry) (key : AgentKey) (origin : SessionOrigin) :
    AgentSessionRegistry :=
  match r.sessions.lookup key with
  | none => r
  | some entry => if entry.origin ≠ origin then r.setSession key { entry with origin } else r

def setLocation (r : AgentSessionRegistry) (key : AgentKey) (location : SessionLocation) :
    AgentSessionRegistry :=
  match r.sessions.lookup key with
  | none => r
  | some entry => if entry.location ≠ location then r.setSession key { entry with location } else r

def remove (r : AgentSessionRegistry) (key : AgentKey) : AgentSessionRegistry :=
  match r.sessions.lookup key with
  | none => r
  | some s =>
    { r with
      sessions := r.sessions.erase key
      activeByPane :=
        match s.paneSessionId with
        | none => r.activeByPane
        | some pane => r.activeByPane.erase pane
      dirty := true }

/-- The body of the loop over the panes that are gone. -/
def endPane (now : SystemTime) (r : AgentSessionRegistry) (pane : String) : AgentSessionRegistry :=
  let r :=
    match r.activeByPane.lookup pane with
    | none => r
    | some key =>
      let r := { r with activeByPane := r.activeByPane.erase pane }
      match r.sessions.lookup key with
      | none => r
      | some entry =>
        if entry.liveness = LivenessState.live then r.setSession key (entry.toEnded now) else r
  { r with knownAlivePanes := r.knownAlivePanes.erase pane }

def applyAlivePaneSnapshot (r : AgentSessionRegistry) (alivePanes : List String)
    (now : SystemTime) : AgentSessionRegistry :=
  let aliveLc := alivePanes.map crates.paneKey
  let removed := r.knownAlivePanes.filter (· ∉ aliveLc)
  let r := removed.foldl (endPane now) r
  { r with knownAlivePanes := aliveLc.foldl (fun known pane => known.insert pane) r.knownAlivePanes }

def applyMasterSessionEnded (r : AgentSessionRegistry) (sessionId : String) (now : SystemTime) :
    AgentSessionRegistry :=
  match r.sessions.lookup sessionId with
  | none => r
  | some entry =>
    if entry.liveness ≠ .live then r
    else
      let r' := r.setSession sessionId (entry.toEnded now)
      match entry.paneSessionId with
      | none => r'
      | some pane =>
        { r' with
          activeByPane := r.activeByPane.erase pane
          knownAlivePanes := r.knownAlivePanes.erase pane }

/-- The body of the loop over the sessions that are alive. -/
def joinSession (now : SystemTime) (r : AgentSessionRegistry) (alive : String × Option String) :
    AgentSessionRegistry :=
  match r.sessions.lookup alive.1 with
  | none => r
  | some entry =>
    match entry.liveness with
    | .ended => r
    | .live =>
      if entry.paneSessionId.isSome then r
      else
        match alive.2 with
        | none => r
        | some pane =>
          { r.setSession alive.1
              { entry with paneSessionId := some (crates.paneKey pane), lastActivityAt := now } with
            activeByPane := r.activeByPane.insert (crates.paneKey pane) alive.1
            knownAlivePanes := r.knownAlivePanes.insert (crates.paneKey pane) }
    | .historical | .inUse =>
      let entry :=
        { entry.clearActivity with status := .idle, lastActivityAt := now, lastError := none }
      match alive.2 with
      | none => r.setSession alive.1 entry
      | some pane =>
        { r.setSession alive.1 { entry with paneSessionId := some (crates.paneKey pane) } with
          activeByPane :=
            (dropOldPane r.activeByPane entry (crates.paneKey pane)).insert (crates.paneKey pane)
              alive.1
          knownAlivePanes := r.knownAlivePanes.insert (crates.paneKey pane) }

def applyAliveSessionJoin (r : AgentSessionRegistry) (alive : List (String × Option String))
    (now : SystemTime) : AgentSessionRegistry :=
  alive.foldl (joinSession crates now) r

def dropSyntheticForPane (r : AgentSessionRegistry) (paneSessionId : String) :
    AgentSessionRegistry :=
  let pane := crates.paneKey paneSessionId
  match r.activeByPane.lookup pane with
  | none => r
  | some key =>
    if startsWith key "pane:" then
      { r with
        sessions := r.sessions.erase key, activeByPane := r.activeByPane.erase pane
        dirty := true }
    else r

end AgentSessionRegistry

end IntelligentTerminal.Sessions
