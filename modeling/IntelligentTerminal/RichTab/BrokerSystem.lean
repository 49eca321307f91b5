import IntelligentTerminal.RichTab.BrokerCalls
import IntelligentTerminal.RichTab.BrokerRefresh

/-!
# The broker with its callers and its workers

A `System` is the broker with the refreshes that calls in progress will still make, the runs that
are queued or executing, and the history: the updates that were sent, the requests that were built
and the runs that ended. An action is one locked section: an entry point, a refresh that is owed,
or the end of a run with any outcome. Every list of actions is an interleaving.
-/

namespace IntelligentTerminal.RichTab

theorem mem_eraseIdx_of_ne {α : Type*} {l : List α} {index : ℕ} {x y : α}
    (hy : l[index]? = some y) (hx : x ∈ l) (hne : x ≠ y) : x ∈ l.eraseIdx index := by
  obtain ⟨i, hi⟩ := List.mem_iff_getElem?.mp hx
  refine List.mem_eraseIdx_iff_getElem?.mpr ⟨i, ?_, hi⟩
  rintro rfl
  exact hne (Option.some.inj (hi.symm.trans hy))

/-- A request that was built, with the directory of its session at that time. -/
structure Built where
  request : Request
  generation : ℕ
  observed : Directory

/-- A run that ended, with the snapshot it came to and what became of it. -/
structure Ended where
  run : Run
  snapshot : Option Snapshot
  disposition : Disposition

structure System where
  broker : Broker
  refreshes : List RefreshCall := []
  runs : List Run := []
  sent : List (AttachmentId × BrokerUpdate) := []
  built : List Built := []
  ended : List Ended := []

/-- One locked section. -/
inductive Action
  | attach (context : SessionContext) (visibleFields : VisibleFieldMap) (now : Time)
  | detach (attachment : AttachmentId) (now pruneNow : Time)
  | updateContext (attachment : AttachmentId) (workingDirectory : Path) (authoritative : Bool)
      (shellType : Option String)
  | updateFirstPartyFields (attachment : AttachmentId) (fields : Table String String)
  | updateAgentWorkingDirectory (attachment : AttachmentId) (agentActive : Bool)
      (workingDirectory : Option String)
  | setVisibleFields (providerId : String) (fields : List String)
  | setVisibleFieldsFor (attachment : AttachmentId) (providerId : String) (fields : List String)
  | setFieldDisplayNames (providerId : String) (displayNames : Table String String)
  | notify (attachment : AttachmentId) (reason : ActivationEvent)
  | reloadProviders (builtIns : Catalog)
  | refresh (index : ℕ)
  | finish (index : ℕ) (outcome : RunOutcome)

/-- The locked section of an entry point. -/
def Broker.call (b : Broker) : Action → Locked
  | .attach context visibleFields now => b.attach context visibleFields now
  | .detach attachment now pruneNow => b.detach attachment now pruneNow
  | .updateContext attachment workingDirectory authoritative shellType =>
    b.updateContext attachment workingDirectory authoritative shellType
  | .updateFirstPartyFields attachment fields => b.updateFirstPartyFields attachment fields
  | .updateAgentWorkingDirectory attachment agentActive workingDirectory =>
    b.updateAgentWorkingDirectory attachment agentActive workingDirectory
  | .setVisibleFields providerId fields => b.setVisibleFields providerId fields
  | .setVisibleFieldsFor attachment providerId fields =>
    b.setVisibleFieldsFor attachment providerId fields
  | .setFieldDisplayNames providerId displayNames => b.setFieldDisplayNames providerId displayNames
  | .notify attachment reason => b.notify attachment reason
  | .reloadProviders builtIns => b.reloadProviders builtIns
  | .refresh _ | .finish _ _ => { broker := b }

theorem Broker.sound_call {b : Broker} (hb : b.Wf) (a : Action) : Locked.Sound b (b.call a) := by
  cases a with
  | attach context visibleFields now => exact sound_attach hb context visibleFields now
  | detach attachment now pruneNow => exact sound_detach hb attachment now pruneNow
  | updateContext attachment workingDirectory authoritative shellType =>
    exact sound_updateContext hb attachment workingDirectory authoritative shellType
  | updateFirstPartyFields attachment fields =>
    exact sound_updateFirstPartyFields hb attachment fields
  | updateAgentWorkingDirectory attachment agentActive workingDirectory =>
    exact sound_updateAgentWorkingDirectory hb attachment agentActive workingDirectory
  | setVisibleFields providerId fields => exact sound_setVisibleFields hb providerId fields
  | setVisibleFieldsFor attachment providerId fields =>
    exact sound_setVisibleFieldsFor hb attachment providerId fields
  | setFieldDisplayNames providerId displayNames =>
    exact sound_setFieldDisplayNames hb providerId displayNames
  | notify attachment reason => exact sound_notify hb attachment reason
  | reloadProviders builtIns => exact sound_reloadProviders hb builtIns
  | refresh _ => exact sound_self hb []
  | finish _ _ => exact sound_self hb []

namespace System

/-- A locked section of an entry point has been gone through. -/
def lock (s : System) (out : Locked) : System :=
  { s with
    broker := out.broker
    refreshes := s.refreshes ++ out.refreshes
    sent := s.sent ++ out.notifications }

def observe (s : System) (sessionId : String) : Directory :=
  ((s.broker.sessions.lookup sessionId).getD {}).directory

/-- A refresh that is owed is made. -/
def makeRefresh (s : System) (index : ℕ) : System :=
  match s.refreshes[index]? with
  | none => s
  | some call =>
    let r := s.broker.refresh call
    { s with
      broker := r.broker
      refreshes := s.refreshes.eraseIdx index
      runs := s.runs ++ r.work
      built := s.built ++ (r.work ++ r.parked).map fun run =>
        ⟨run.request, run.generation, s.observe call.sessionId⟩ }

/-- A run ends. -/
def finishRun (s : System) (index : ℕ) (outcome : RunOutcome) : System :=
  match s.runs[index]? with
  | none => s
  | some run =>
    let r := s.broker.runProvider run outcome
    { s with
      broker := r.broker
      runs := s.runs.eraseIdx index ++ r.next.toList
      sent := s.sent ++ r.notifications
      ended := s.ended ++ [⟨run, run.result outcome, r.disposition⟩] }

def step (s : System) : Action → System
  | .refresh index => s.makeRefresh index
  | .finish index outcome => s.finishRun index outcome
  | a => s.lock (s.broker.call a)

def run (s : System) (actions : List Action) : System := actions.foldl step s

/-- The broker that the constructor makes. -/
def init (packageRoot : Path) (gitBinary : Option String) (processEpoch : ℕ) (builtIns : Catalog) :
    System where
  broker :=
    (({ packageRoot, gitBinary, processEpoch } : Broker).reloadProviders builtIns).broker

variable {s : System}

theorem step_cases (hs : s.broker.Wf) (a : Action) :
    (∃ out, Locked.Sound s.broker out ∧ out = s.broker.call a ∧ s.step a = s.lock out) ∨
    (∃ index, a = .refresh index ∧ s.step a = s.makeRefresh index) ∨
    ∃ index outcome, a = .finish index outcome ∧ s.step a = s.finishRun index outcome := by
  cases a with
  | refresh index => exact .inr (.inl ⟨index, rfl, rfl⟩)
  | finish index outcome => exact .inr (.inr ⟨index, outcome, rfl, rfl⟩)
  | _ => exact .inl ⟨_, Broker.sound_call hs _, rfl, rfl⟩

/-! ### Generations and runs -/

def BelongsTo (request : Request) (sid : String) (session : SessionState) (id : String) : Prop :=
  request.sessionId = sid ∧ request.diagnosticSessionToken = session.sessionIncarnation ∧
    request.providerId = id

/-- What holds of the broker, its runs and the requests that were built between two actions. -/
structure Inv (s : System) : Prop where
  wf : s.broker.Wf
  built_lt : ∀ w ∈ s.built, w.generation < s.broker.nextGeneration
  built_nodup : (s.built.map (·.generation)).Nodup
  runs_built : ∀ run ∈ s.runs, run.request.providerId = run.provider.manifest.id ∧
    ∃ w ∈ s.built, w.generation = run.generation ∧ w.request = run.request
  runs_nodup : (s.runs.map (·.generation)).Nodup
  running : ∀ sid session id state, s.broker.sessions.lookup sid = some session →
    session.providers.lookup id = some state → state.running = true →
    ∃ run ∈ s.runs, run.generation = state.runningGeneration ∧ BelongsTo run.request sid session id
  pending : ∀ sid session id state next, s.broker.sessions.lookup sid = some session →
    session.providers.lookup id = some state → state.pending = some next →
    state.running = true ∧ next.generation = state.generation ∧
    (∀ run ∈ s.runs, run.generation ≠ next.generation) ∧
    ∃ w ∈ s.built, w.generation = next.generation ∧ w.request = next.request ∧
      BelongsTo w.request sid session id
  newest : ∀ sid session id state, s.broker.sessions.lookup sid = some session →
    session.providers.lookup id = some state →
    ∀ w ∈ s.built, BelongsTo w.request sid session id → w.generation ≤ state.generation

theorem eq_of_generation_eq (h : s.Inv) {w w' : Built} (hw : w ∈ s.built)
    (hw' : w' ∈ s.built) (heq : w.generation = w'.generation) : w = w' :=
  List.inj_on_of_nodup_map h.built_nodup hw hw' heq

theorem run_eq_of_generation_eq (h : s.Inv) {r r' : Run} (hr : r ∈ s.runs)
    (hr' : r' ∈ s.runs) (heq : r.generation = r'.generation) : r = r' :=
  List.inj_on_of_nodup_map h.runs_nodup hr hr' heq

theorem BelongsTo.of_eq {request : Request} {sid id : String} {session session' : SessionState}
    (h : BelongsTo request sid session id)
    (heq : session'.sessionIncarnation = session.sessionIncarnation) :
    BelongsTo request sid session' id :=
  ⟨h.1, h.2.1.trans heq.symm, h.2.2⟩

theorem inv_lock (h : s.Inv) {out : Locked} (hout : Locked.Sound s.broker out) :
    (s.lock out).Inv where
  wf := hout.wf
  built_lt := fun w hw => (h.built_lt w hw).trans_le hout.nextGeneration
  built_nodup := h.built_nodup
  runs_built := h.runs_built
  runs_nodup := h.runs_nodup
  running := by
    intro sid session' id state' hs' hstate' hrunning
    rcases hout.origin sid session' hs' with ⟨session, hs, hm, -⟩ | ⟨-, hnone⟩
    · obtain ⟨state, hstate, ht⟩ := hm.touched id state' hstate'
      obtain ⟨run, hrun, hgen, hbelongs⟩ :=
        h.running sid session id state hs hstate (ht.running ▸ hrunning)
      exact ⟨run, hrun, hgen.trans ht.runningGeneration.symm,
        hbelongs.of_eq hm.sessionIncarnation⟩
    · rw [hnone] at hstate'
      cases hstate'
  pending := by
    intro sid session' id state' next hs' hstate' hnext
    rcases hout.origin sid session' hs' with ⟨session, hs, hm, -⟩ | ⟨-, hnone⟩
    · obtain ⟨state, hstate, ht⟩ := hm.touched id state' hstate'
      rcases ht.parked with ⟨hgen, hp⟩ | ⟨-, -, hp⟩
      · obtain ⟨hrunning, hngen, hruns, w, hw, hwgen, hwreq, hbelongs⟩ :=
          h.pending sid session id state next hs hstate (hp ▸ hnext)
        exact ⟨ht.running.trans hrunning, hngen.trans hgen.symm, hruns, w, hw, hwgen, hwreq,
          hbelongs.of_eq hm.sessionIncarnation⟩
      · rw [hp] at hnext
        cases hnext
    · rw [hnone] at hstate'
      cases hstate'
  newest := by
    intro sid session' id state' hs' hstate' w hw hbelongs
    rcases hout.origin sid session' hs' with ⟨session, hs, hm, -⟩ | ⟨-, hnone⟩
    · obtain ⟨state, hstate, ht⟩ := hm.touched id state' hstate'
      have hold := h.newest sid session id state hs hstate w hw
        (hbelongs.of_eq hm.sessionIncarnation.symm)
      rcases ht.parked with ⟨hgen, -⟩ | ⟨hlow, -⟩
      · exact hgen ▸ hold
      · exact (h.built_lt w hw).le.trans hlow
    · rw [hnone] at hstate'
      cases hstate'

end System

end IntelligentTerminal.RichTab
