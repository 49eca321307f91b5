import IntelligentTerminal.Sessions.HelperOwnership

/-!
# What a user sees of sessions

Two registries follow the same events, and a user sees either. What they show of a session is its
`Activity`: its status, its pane, the tool that runs and the question that waits. Here the events
of hooks act on a map from session ids to activities, without any index. A session that starts in a
pane ends the session that had it.

The registry of the helper refines this model, but for late events: it lets a tool or a question
resurrect a session that has ended.

Source: `tools/wta/src/agent_sessions.rs`, lines 631-1017.
-/

namespace IntelligentTerminal.Sessions

/-! ### The model -/

/-- What is shown of a session. -/
structure Activity where
  cliSource : Option CliSource
  status : Option AgentStatus
  pane : Option String
  currentTool : Option String := none
  attentionReason : Option String := none
  attentionTimestampMs : Option ℕ := none
  attentionCooldownUntilMs : Option ℕ := none
deriving DecidableEq

namespace Activity

/-- No tool runs, and nobody waits for an answer. -/
def quiet (a : Activity) : Activity :=
  { a with
    currentTool := none, attentionReason := none, attentionTimestampMs := none
    attentionCooldownUntilMs := none }

/-- The session has ended. -/
def toEnded (a : Activity) : Activity := { a.quiet with status := some .ended, pane := none }

/-- A session starts in a pane. A session that is live keeps its status. -/
def start (a : Option Activity) (cliSource : CliSource) (pane : String) : Activity :=
  match a with
  | none => { cliSource := some cliSource, status := some .idle, pane := some pane }
  | some a =>
    let a := { a with cliSource := some cliSource, pane := some pane }
    if a.status ∈ [some AgentStatus.ended, some .error, some .historical] then
      { a.quiet with status := some .idle }
    else a

def toolStarting (a : Activity) (toolName : String) : Activity :=
  { a with
    status := some .working, attentionCooldownUntilMs := none, currentTool := some toolName }

/-- A tool returns. It does not answer a question that was asked after it, or just before. -/
def toolReturned (a : Activity) (timestampMs : Option ℕ) (now : ℕ) : Activity :=
  if a.cliSource ≠ some .copilot ∨ a.status ∉ [some AgentStatus.working, some .attention] then a
  else if a.status = some .attention ∧ a.attentionCooldownUntilMs.any (now < ·) then a
  else if a.status = some .attention ∧
      (timestampMs.any fun returned => a.attentionTimestampMs.any (returned < ·)) then a
  else { a.quiet with status := some .working }

/-- A turn is complete. -/
def toolCompleted (a : Activity) : Activity :=
  if a.status = some .working ∨ a.status = some .attention then
    { a.quiet with status := some .idle }
  else { a with currentTool := none }

/-- A question waits for an answer. -/
def notification (a : Activity) (message : String) (timestampMs : Option ℕ) (now : ℕ) : Activity :=
  { a with
    attentionTimestampMs :=
      if a.status = some .attention then maxOption a.attentionTimestampMs timestampMs
      else timestampMs
    status := some .attention
    attentionCooldownUntilMs :=
      if a.cliSource = some .copilot then some (saturatingAdd now copilotAttentionCooldownMs)
      else none
    attentionReason := some message }

/-- Nothing runs in a session that has ended. -/
def Settled (a : Activity) : Prop := a.status = some .ended → a.currentTool = none

theorem toolCompleted_of_ended {a : Activity} (hstatus : a.status = some .ended)
    (htool : a.currentTool = none) : a.toolCompleted = a := by
  cases a
  simp_all [toolCompleted]

end Activity

/-- The activities of all sessions. -/
abbrev Activities := AgentKey → Option Activity

namespace Activities

/-- The activity of one session changes. -/
def adjust (A : Activities) (key : AgentKey) (f : Activity → Activity) : Activities :=
  fun k => if k = key then (A k).map f else A k

/-- The session that has the pane ends. -/
def endPane (A : Activities) (pane : String) : Activities :=
  fun k => (A k).map fun a => if a.pane = some pane then a.toEnded else a

/-- A session starts in a pane. -/
def start (A : Activities) (key : AgentKey) (cliSource : CliSource) (pane : String) : Activities :=
  fun k => if k = key then some (Activity.start (A k) cliSource pane) else A.endPane pane k

/-- What an event in canonical form does to the activities. -/
def step (A : Activities) (now : ℕ) : SessionEvent → Activities
  | .sessionStarted key cliSource pane _ _ => A.start key cliSource pane
  | .toolStarting key toolName => A.adjust key (·.toolStarting toolName)
  | .toolReturned key timestampMs => A.adjust key (·.toolReturned timestampMs now)
  | .toolCompleted key => A.adjust key (·.toolCompleted)
  | .notification key message timestampMs => A.adjust key (·.notification message timestampMs now)
  | .sessionStopped key _ => A.adjust key (·.toEnded)
  | .paneClosed pane => A.endPane pane
  | _ => A

end Activities

/-- The events that both registries follow alike: those of hooks, and the end of a pane. -/
def SessionEvent.Shared : SessionEvent → Prop
  | .sessionStarted _ _ pane _ _ => pane ≠ ""
  | .toolStarting _ _ | .toolReturned _ _ | .toolCompleted _ | .notification _ _ _
  | .sessionStopped _ _ | .paneClosed _ => True
  | _ => False

/-! ### The helper -/

/-- What is shown of a row. -/
def AgentSession.activity (entry : AgentSession) : Activity where
  cliSource := some entry.cliSource
  status := some entry.status
  pane := entry.paneSessionId
  currentTool := entry.currentTool
  attentionReason := entry.attentionReason
  attentionTimestampMs := entry.attentionTimestampMs
  attentionCooldownUntilMs := entry.attentionCooldownUntilMs

namespace AgentSessionRegistry

/-- The registry shows the activities, and no row is one of an agent pane. -/
structure Shows (r : AgentSessionRegistry) (A : Activities) : Prop where
  owned : Owned r
  activity : ∀ key, (r.sessions.lookup key).map AgentSession.activity = A key
  origin : ∀ key entry, r.sessions.lookup key = some entry → entry.origin = .unknown

namespace Shows

variable {crates : Crates} {r : AgentSessionRegistry} {A : Activities} {key : AgentKey}
  {entry : AgentSession} {pane : String} {now : SystemTime} {f : Activity → Activity}

theorem empty : Shows {} fun _ => none := by
  refine ⟨⟨Table.owns_empty, fun key row h => ?_⟩, fun key => ?_, fun key entry h => ?_⟩
  · rw [AList.lookup_empty] at h
    exact absurd h (by simp)
  · rw [AList.lookup_empty, Option.map_none]
  · rw [AList.lookup_empty] at h
    exact absurd h (by simp)

theorem set (h : Shows r A) {r' : AgentSessionRegistry} (howned : Owned r')
    (hrow : r.sessions.lookup key = some entry) {entry' : AgentSession}
    (hsessions : r'.sessions = r.sessions.insert key entry')
    (hactivity : entry'.activity = f entry.activity) (horigin : entry'.origin = entry.origin) :
    Shows r' (A.adjust key f) := by
  refine ⟨howned, fun k => ?_, fun k entry'' hk => ?_⟩
  · rw [hsessions, Table.lookup_insert_eq, Activities.adjust, ← h.activity k]
    split_ifs with heq
    · rw [heq, hrow, Option.map_some, Option.map_some, Option.map_some, hactivity]
    · rfl
  · rw [hsessions, Table.lookup_insert_eq] at hk
    split_ifs at hk
    · rw [← Option.some.inj hk, horigin]
      exact h.origin key entry hrow
    · exact h.origin k entry'' hk

theorem adjust_of_none (h : Shows r A) (hrow : r.sessions.lookup key = none)
    (f : Activity → Activity) : Shows r (A.adjust key f) := by
  have hA : A.adjust key f = A := by
    funext k
    rw [Activities.adjust]
    split_ifs with hk
    · rw [hk, ← h.activity key, hrow]
      rfl
    · rfl
  rw [hA]
  exact h

theorem adjust_of_fixed (h : Shows r A)
    (hrow : r.sessions.lookup key = some entry) (hf : f entry.activity = entry.activity) :
    Shows r (A.adjust key f) := by
  have hA : A.adjust key f = A := by
    funext k
    rw [Activities.adjust]
    split_ifs with hk
    · rw [hk, ← h.activity key, hrow, Option.map_some, Option.map_some, hf]
    · rfl
  rw [hA]
  exact h

theorem toolStarting (h : Shows r A) (toolName : String) :
    Shows (r.toolStarting key toolName now) (A.adjust key (·.toolStarting toolName)) := by
  have howned : Owned (r.toolStarting key toolName now) := h.owned.toolStarting toolName
  cases hrow : r.sessions.lookup key with
  | none =>
    simp only [AgentSessionRegistry.toolStarting, hrow]
    exact h.adjust_of_none hrow _
  | some entry =>
    simp only [AgentSessionRegistry.toolStarting, hrow] at howned ⊢
    exact h.set howned hrow rfl rfl rfl

theorem toolReturned (h : Shows r A) (timestampMs : Option ℕ) :
    Shows (r.toolReturned key timestampMs now)
      (A.adjust key (·.toolReturned timestampMs (systemTimeMs now))) := by
  have howned : Owned (r.toolReturned key timestampMs now) :=
    h.owned.toolReturned timestampMs
  cases hrow : r.sessions.lookup key with
  | none =>
    simp only [AgentSessionRegistry.toolReturned, hrow]
    exact h.adjust_of_none hrow _
  | some entry =>
    have hactivity : entry.activity.toolReturned timestampMs (systemTimeMs now) =
        if entry.cliSource ≠ .copilot ∨ entry.status ∉ [AgentStatus.working, .attention] then
          entry.activity
        else if entry.status = .attention ∧
            entry.attentionCooldownUntilMs.any (systemTimeMs now < ·) then entry.activity
        else if entry.status = .attention ∧
            (timestampMs.any fun returned => entry.attentionTimestampMs.any (returned < ·)) then
          entry.activity
        else { entry.activity.quiet with status := some .working } := by
      simp [Activity.toolReturned, AgentSession.activity]
    simp only [AgentSessionRegistry.toolReturned, hrow] at howned ⊢
    split_ifs at howned ⊢ with h₁ h₂ h₃
    · exact h.adjust_of_fixed hrow (by rw [hactivity, if_pos h₁])
    · exact h.adjust_of_fixed hrow (by rw [hactivity, if_neg h₁, if_pos h₂])
    · exact h.adjust_of_fixed hrow (by rw [hactivity, if_neg h₁, if_neg h₂, if_pos h₃])
    · refine h.set howned hrow rfl ?_ rfl
      rw [hactivity, if_neg h₁, if_neg h₂, if_neg h₃]
      rfl

theorem toolCompleted (h : Shows r A) :
    Shows (r.toolCompleted key now) (A.adjust key (·.toolCompleted)) := by
  have howned : Owned (r.toolCompleted key now) := h.owned.toolCompleted
  cases hrow : r.sessions.lookup key with
  | none =>
    simp only [AgentSessionRegistry.toolCompleted, hrow]
    exact h.adjust_of_none hrow _
  | some entry =>
    simp only [AgentSessionRegistry.toolCompleted, hrow] at howned ⊢
    refine h.set howned hrow rfl ?_ ?_
    · by_cases hstatus : entry.status = .working ∨ entry.status = .attention
      · simp [Activity.toolCompleted, AgentSession.activity, Activity.quiet, hstatus]
      · simp [Activity.toolCompleted, AgentSession.activity, hstatus]
    · split_ifs <;> rfl

theorem notification (h : Shows r A) (message : String) (timestampMs : Option ℕ) :
    Shows (r.notification key message timestampMs now)
      (A.adjust key (·.notification message timestampMs (systemTimeMs now))) := by
  have howned : Owned (r.notification key message timestampMs now) :=
    h.owned.notification message timestampMs
  cases hrow : r.sessions.lookup key with
  | none =>
    simp only [AgentSessionRegistry.notification, hrow]
    exact h.adjust_of_none hrow _
  | some entry =>
    simp only [AgentSessionRegistry.notification, hrow] at howned ⊢
    refine h.set howned hrow rfl ?_ rfl
    simp [Activity.notification, AgentSession.activity]

theorem sessionStopped (h : Shows r A) (reason : String) :
    Shows (r.sessionStopped key reason now) (A.adjust key (·.toEnded)) := by
  have howned : Owned (r.sessionStopped key reason now) := h.owned.sessionStopped reason
  cases hrow : r.sessions.lookup key with
  | none =>
    simp only [AgentSessionRegistry.sessionStopped, hrow]
    exact h.adjust_of_none hrow _
  | some entry =>
    have horigin : ¬(entry.origin = SessionOrigin.agentPane) := by
      rw [h.origin key entry hrow]
      simp
    simp only [AgentSessionRegistry.sessionStopped, hrow, horigin, false_and, if_false]
      at howned ⊢
    exact h.set howned hrow rfl rfl rfl

theorem pane_iff (h : Shows r A) (hrow : r.sessions.lookup key = some entry) :
    entry.activity.pane = some pane ↔ r.activeByPane.lookup pane = some key := by
  rw [h.owned.owns, hrow, Option.bind_some]
  rfl

theorem paneClosed (h : Shows r A) : Shows (r.paneClosed pane now) (A.endPane pane) := by
  have howned : Owned (r.paneClosed pane now) := h.owned.paneClosed
  have hA : ∀ key, r.activeByPane.lookup pane ≠ some key → A.endPane pane key = A key := by
    intro key hne
    rw [Activities.endPane, ← h.activity key]
    cases hrow : r.sessions.lookup key with
    | none => rfl
    | some entry =>
      rw [Option.map_some, Option.map_some, if_neg]
      rwa [h.pane_iff hrow]
  cases hp : r.activeByPane.lookup pane with
  | none =>
    simp only [AgentSessionRegistry.paneClosed, hp]
    rw [show A.endPane pane = A from funext fun key => hA key (by rw [hp]; simp)]
    exact h
  | some key =>
    obtain ⟨entry, hrow, hpane, -, -⟩ := h.owned.owner hp
    have hadjust : A.endPane pane = A.adjust key (·.toEnded) := by
      funext k
      rw [Activities.adjust]
      split_ifs with hk
      · rw [hk, Activities.endPane, ← h.activity key, hrow, Option.map_some, Option.map_some,
          Option.map_some, if_pos ((h.pane_iff hrow).mpr hp)]
      · exact hA k (by rw [hp]; exact fun heq => hk (Option.some.inj heq).symm)
    rw [hadjust]
    simp only [AgentSessionRegistry.paneClosed, hp, hrow] at howned ⊢
    exact h.set howned hrow rfl rfl rfl

theorem start_activity (entry : AgentSession) (hstatus : entry.status ≠ .inUse)
    (cliSource : CliSource) (cwd : PathBuf) (title : String) :
    (entry.start false cliSource (some pane) cwd title now).activity =
      Activity.start (some entry.activity) cliSource pane := by
  cases hs : entry.status with
  | inUse => exact absurd hs hstatus
  | idle | working | attention =>
    simp [AgentSession.start, Activity.start, AgentSession.activity, hs]
  | error | ended | historical =>
    simp [AgentSession.start, AgentSession.clearActivity, Activity.start, Activity.quiet,
      AgentSession.activity, hs]

theorem start_origin (entry : AgentSession) (isNewEntry : Bool) (cliSource : CliSource)
    (pane : Option String) (cwd : PathBuf) (title : String) :
    (entry.start isNewEntry cliSource pane cwd title now).origin = entry.origin := by
  unfold AgentSession.start
  simp only
  split_ifs <;> rfl

theorem sessionStarted (h : Shows r A) (hpane : pane ≠ "") (cliSource : CliSource) (cwd : PathBuf)
    (title : String) :
    Shows (r.sessionStarted key cliSource pane cwd title now) (A.start key cliSource pane) := by
  refine ⟨h.owned.sessionStarted cliSource cwd title, fun k => ?_, fun k entry hk => ?_⟩
  all_goals
    simp only [AgentSessionRegistry.sessionStarted, AgentSessionRegistry.setSession, ne_eq, hpane,
      not_false_eq_true, decide_true, if_true, h.owned.lookup_demoteOwner_self,
      Table.lookup_insert_eq, h.owned.lookup_demoteOwner] at *
  · rw [Activities.start]
    by_cases hk : k = key
    · rw [if_pos hk, if_pos hk, Option.map_some, hk, ← h.activity key]
      cases hrow : r.sessions.lookup key with
      | none => rfl
      | some entry =>
        exact congrArg some (start_activity entry (h.owned.rows key entry hrow).status _ _ _)
    · rw [if_neg hk, if_neg hk, Activities.endPane, ← h.activity k]
      cases hrow : r.sessions.lookup k with
      | none =>
        rw [Option.map_none]
        split_ifs <;> rfl
      | some entry =>
        by_cases howner : r.activeByPane.lookup pane = some k
        · rw [if_pos ⟨hk, howner⟩, Option.map_some, Option.map_some, Option.map_some,
            Option.map_some, if_pos ((h.pane_iff hrow).mpr howner)]
          rfl
        · rw [if_neg fun hand => howner hand.2, Option.map_some, Option.map_some,
            if_neg (mt (h.pane_iff hrow).mp howner)]
  · split_ifs at hk with hkey
    · rw [← Option.some.inj hk, start_origin]
      cases hrow : r.sessions.lookup key with
      | none => rfl
      | some old => exact h.origin key old hrow
    · obtain ⟨old, hold, rfl⟩ := Option.map_eq_some_iff.mp hk
      exact h.origin k old hold
    · exact h.origin k entry hk

theorem step (h : Shows r A) {ev : SessionEvent} (hev : ev.Shared) (now : SystemTime) :
    Shows (r.applyAt crates ev now) (A.step (systemTimeMs now) (ev.canonical crates)) := by
  cases ev with
  | sessionStarted key cliSource pane cwd title =>
    exact h.sessionStarted (fun hempty => hev (Crates.paneKey_eq_empty.mp hempty)) cliSource cwd _
  | toolStarting key toolName => exact h.toolStarting toolName
  | toolReturned key timestampMs => exact h.toolReturned timestampMs
  | toolCompleted key => exact h.toolCompleted
  | notification key message timestampMs => exact h.notification message timestampMs
  | sessionStopped key reason => exact h.sessionStopped reason
  | paneClosed pane => exact h.paneClosed
  | _ => exact hev.elim

end Shows

end AgentSessionRegistry

end IntelligentTerminal.Sessions
