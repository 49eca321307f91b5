import IntelligentTerminal.RichTab.BrokerRuns
import IntelligentTerminal.RichTab.RefreshOwed

/-!
# The broker loses no refresh

For a provider that can be refreshed by every call, a session that somebody is attached to is
always settled: a refresh that asks the provider is owed, or a request that is up to date is
parked or running, or the last run of the state was accepted for such a request. When nothing is
owed and nothing runs, only the last is left.
-/

namespace IntelligentTerminal.RichTab

/-- A request was built from what the session has now: its directory, its shell, its first-party
fields with the directory of the agent, and at least the fields that are visible. -/
structure Request.UpToDate (b : Broker) (session : SessionState) (p : Registration)
    (request : Request) : Prop where
  workingDirectory : request.workingDirectory = session.context.workingDirectory
  authoritative : request.workingDirectoryAuthoritative =
    session.context.workingDirectoryAuthoritative
  shellType : request.shellType = session.context.shellType
  contextRevision : request.contextRevision = session.contextRevision
  firstPartyFields : request.firstPartyFields = b.requestFields session p
  visibleFields : b.visibleFieldsForSession session p ⊆ request.visibleFields

namespace Request.UpToDate

variable {b b' : Broker} {session session' : SessionState} {p : Registration} {request : Request}

theorem undisturbed (h : request.UpToDate b session p) (hu : b.Undisturbed b' p session session') :
    request.UpToDate b' session' p where
  workingDirectory := h.workingDirectory.trans hu.workingDirectory.symm
  authoritative := h.authoritative.trans hu.authoritative.symm
  shellType := h.shellType.trans hu.shellType.symm
  contextRevision := h.contextRevision.trans hu.contextRevision.symm
  firstPartyFields := h.firstPartyFields.trans hu.fields.symm
  visibleFields := fun _ hf => h.visibleFields (hu.visible hf)

theorem buildRequest (b : Broker) (session : SessionState) (p : Registration)
    (reason : ActivationEvent) (n : ℕ) : (b.buildRequest session p reason n).UpToDate b session p :=
  ⟨rfl, rfl, rfl, rfl, rfl, fun _ hf => hf⟩

end Request.UpToDate

/-- The run that ended was the one in progress for the state of its provider. -/
def Disposition.ofState : Disposition → Bool
  | .generationMismatch | .contextRevisionMismatch | .accepted => true
  | .sessionMissing | .providerStateMissing | .runningGenerationMismatch => false

namespace System

instance (request : Request) (sid : String) (session : SessionState) (id : String) :
    Decidable (BelongsTo request sid session id) :=
  inferInstanceAs (Decidable (_ ∧ _ ∧ _))

/-- The last run that ended as the one in progress for the state of a provider in an incarnation of
a session. -/
def lastEnded (s : System) (sid : String) (session : SessionState) (id : String) : Option Ended :=
  (s.ended.filter fun e =>
    e.disposition.ofState && decide (BelongsTo e.run.request sid session id)).getLast?

/-- A provider has been asked for what the session has now, or it is being asked, or it will be. -/
inductive Settled (s : System) (sid : String) (session : SessionState) (p : Registration) : Prop
  | owed (call : RefreshCall) (hmem : call ∈ s.refreshes) (hsid : call.sessionId = sid)
      (hact : (call.activation s.broker.packageRoot p).isSome)
  | parked (state : ProviderState) (next : PendingRequest)
      (hstate : session.providers.lookup p.manifest.id = some state)
      (hnext : state.pending = some next) (hup : next.request.UpToDate s.broker session p)
  | running (state : ProviderState) (run : Run)
      (hstate : session.providers.lookup p.manifest.id = some state)
      (hnone : state.pending = none) (hrunning : state.running = true)
      (hcurrent : state.runningGeneration = state.generation) (hrun : run ∈ s.runs)
      (hgen : run.generation = state.generation)
      (hup : run.request.UpToDate s.broker session p)
  | done (state : ProviderState) (e : Ended)
      (hstate : session.providers.lookup p.manifest.id = some state)
      (hidle : state.running = false) (hlast : s.lastEnded sid session p.manifest.id = some e)
      (haccepted : e.disposition = .accepted) (hup : e.run.request.UpToDate s.broker session p)

variable {s : System} {first : AttachmentId}
  {session session' : SessionState} {p : Registration} {sid : String}

theorem lastEnded_congr {sid id : String}
    (h : session'.sessionIncarnation = session.sessionIncarnation) :
    s.lastEnded sid session' id = s.lastEnded sid session id := by
  have heq : ∀ e : Ended, decide (BelongsTo e.run.request sid session' id) =
      decide (BelongsTo e.run.request sid session id) :=
    fun e => decide_eq_decide.mpr ⟨fun hb => hb.of_eq h.symm, fun hb => hb.of_eq h⟩
  simp only [lastEnded, heq]

theorem Settled.mono {s' : System} (hset : s.Settled sid session p)
    (hu : s.broker.Undisturbed s'.broker p session session')
    (hroot : s'.broker.packageRoot = s.broker.packageRoot)
    (howed : ∀ call ∈ s.refreshes, call.sessionId = sid →
      (call.activation s.broker.packageRoot p).isSome → call ∈ s'.refreshes)
    (hruns : ∀ state, session.providers.lookup p.manifest.id = some state → state.running = true →
      ∀ run ∈ s.runs, run.generation = state.runningGeneration → run ∈ s'.runs)
    (hlast : s'.lastEnded sid session p.manifest.id = s.lastEnded sid session p.manifest.id) :
    s'.Settled sid session' p := by
  cases hset with
  | owed call hmem hsid hact =>
    exact .owed call (howed call hmem hsid hact) hsid (hroot.symm ▸ hact)
  | parked state next hstate hnext hup =>
    exact .parked state next (hu.state.trans hstate) hnext (hup.undisturbed hu)
  | running state run hstate hnone hrunning hcurrent hrun hgen hup =>
    exact .running state run (hu.state.trans hstate) hnone hrunning hcurrent
      (hruns state hstate hrunning run hrun (hgen.trans hcurrent.symm)) hgen (hup.undisturbed hu)
  | done state e hstate hidle hlast' haccepted hup =>
    exact .done state e (hu.state.trans hstate) hidle
      ((lastEnded_congr hu.sessionIncarnation).trans (hlast.trans hlast')) haccepted
      (hup.undisturbed hu)

section Refresh

variable {index : ℕ} {call : RefreshCall} {session : SessionState} {r : Refreshing}

end Refresh

/-! ### Ends of runs -/

section Finish

variable {index : ℕ} {run : Run} {session : SessionState} {state : ProviderState}
  {sid : String} {session' : SessionState} {p : Registration} {s' : System} {id : String}

section InProgress

variable (h : s.Inv) (hrun : s.runs[index]? = some run)
  (hs : s.broker.sessions.lookup run.request.sessionId = some session)
  (hstate : session.providers.lookup run.provider.manifest.id = some state)
  (hrunning : state.running = true) (hgen : state.runningGeneration = run.generation)

end InProgress

end Finish

/-! ### Every run -/

/-- No call is in progress that still has a refresh to make, and no run is queued or executing. -/
def Quiescent (s : System) : Prop := s.refreshes = [] ∧ s.runs = []

/-- The last run of the state of a provider was accepted, for a request that is up to date, and
nothing runs or is parked. -/
def Refreshed (s : System) (sid : String) (session : SessionState) (p : Registration) : Prop :=
  ∃ state e, session.providers.lookup p.manifest.id = some state ∧ state.running = false ∧
    state.pending = none ∧ s.lastEnded sid session p.manifest.id = some e ∧
    e.disposition = .accepted ∧ e.run.request.UpToDate s.broker session p

theorem Settled.refreshed (h : s.Inv) (hq : s.Quiescent) {session : SessionState}
    (hs : s.broker.sessions.lookup sid = some session)
    (hset : s.Settled sid session p) : s.Refreshed sid session p := by
  have hidle : ∀ state, session.providers.lookup p.manifest.id = some state →
      state.running ≠ true := by
    intro state hstate hrunning
    obtain ⟨run, hrun, -⟩ := h.running sid session _ state hs hstate hrunning
    rw [hq.2] at hrun
    cases hrun
  have hnone : ∀ state, session.providers.lookup p.manifest.id = some state →
      state.pending = none := by
    intro state hstate
    by_contra hne
    obtain ⟨next, hnext⟩ := Option.ne_none_iff_exists'.mp hne
    exact hidle state hstate (h.pending sid session _ state next hs hstate hnext).1
  cases hset with
  | owed call hmem _ _ =>
    rw [hq.1] at hmem
    cases hmem
  | parked state next hstate hnext _ =>
    rw [hnone state hstate] at hnext
    cases hnext
  | running state run hstate _ hrunning _ _ _ _ => exact absurd hrunning (hidle state hstate)
  | done state e hstate hnot hlast haccepted hup =>
    exact ⟨state, e, hstate, hnot, hnone state hstate, hlast, haccepted, hup⟩

end System

end IntelligentTerminal.RichTab
