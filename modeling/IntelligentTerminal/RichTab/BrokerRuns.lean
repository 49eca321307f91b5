import IntelligentTerminal.RichTab.BrokerSystem

/-!
# The invariant of the broker in every run

A refresh gives every request a new generation, and the end of a run starts the request that was
parked behind it. Both keep the invariant of the broker with its callers and workers, so it holds
in every run.
-/

namespace IntelligentTerminal.RichTab

namespace System

/-! ### A refresh -/

section Refresh

variable {s : System} {call : RefreshCall} {session : SessionState} {r : Refreshing}
  (h : s.Inv) (hs : s.broker.sessions.lookup call.sessionId = some session)
  (hr : Refreshing.Inv s.broker session call s.broker.providers.registrations r) {sid id : String}

/-- The system after a refresh that asks the providers. -/
def refreshed (s : System) (call : RefreshCall) (session : SessionState) (r : Refreshing)
    (refreshes : List RefreshCall) : System :=
  { s with
    broker := { s.broker.store call.sessionId { session with providers := r.providers }
      r.nextGeneration with nextRequest := r.nextRequest }
    refreshes
    runs := s.runs ++ r.work
    built := s.built ++ (r.work ++ r.parked).map fun run =>
      ⟨run.request, run.generation, s.observe call.sessionId⟩ }

theorem lookup_refreshed (refreshes : List RefreshCall) (sid : String) :
    (s.refreshed call session r refreshes).broker.sessions.lookup sid =
      if sid = call.sessionId then some { session with providers := r.providers }
      else s.broker.sessions.lookup sid :=
  Table.lookup_insert_eq _ _ _ _

include hs hr in
theorem refreshed_lookup_cases {refreshes : List RefreshCall}
    {session' : SessionState} {state' : ProviderState}
    (hs' : (s.refreshed call session r refreshes).broker.sessions.lookup sid = some session')
    (hstate' : session'.providers.lookup id = some state') :
    (∃ old, s.broker.sessions.lookup sid = some old ∧ old.providers.lookup id = some state' ∧
      session'.sessionIncarnation = old.sessionIncarnation) ∨
    sid = call.sessionId ∧ session'.sessionIncarnation = session.sessionIncarnation ∧
      ((∃ k, s.broker.nextGeneration ≤ k ∧ k < r.nextGeneration ∧
        state' = (session.stateOf id).reset k) ∨
      ∃ run ∈ r.work ++ r.parked, run.provider.manifest.id = id ∧
        state' = (session.stateOf id).ask run) := by
  rw [lookup_refreshed] at hs'
  split_ifs at hs' with hsid
  · obtain rfl := Option.some.inj hs'
    rcases hr.lookup_cases hstate' with hold | hnew
    · exact .inl ⟨session, hsid ▸ hs, hold, rfl⟩
    · exact .inr ⟨hsid, rfl, hnew⟩
  · exact .inl ⟨session', hs', hstate', rfl⟩

include h in
theorem running_append (work : List Run) {session : SessionState}
    {state : ProviderState} (hs : s.broker.sessions.lookup sid = some session)
    (hstate : session.providers.lookup id = some state) {session' : SessionState}
    (hinc : session'.sessionIncarnation = session.sessionIncarnation)
    (hrunning : state.running = true) :
    ∃ run ∈ s.runs ++ work, run.generation = state.runningGeneration ∧
      BelongsTo run.request sid session' id := by
  obtain ⟨run, hrun, hgen, hbelongs⟩ := h.running sid session id state hs hstate hrunning
  exact ⟨run, List.mem_append_left _ hrun, hgen, hbelongs.of_eq hinc⟩

include h hr in
theorem generation_lt_of_placed {run run' : Run} (hrun : run ∈ s.runs)
    (hrun' : run' ∈ r.work ++ r.parked) : run.generation < run'.generation := by
  obtain ⟨-, w, hw, hgen, -⟩ := h.runs_built run hrun
  have hlt := h.built_lt w hw
  obtain ⟨busy, hplaced⟩ := hr.placed hrun'
  rw [← hgen]
  exact hlt.trans_le hplaced.asked.le

include h hr in
theorem pending_append {old session' : SessionState} {state : ProviderState}
    {next : PendingRequest} (hold : s.broker.sessions.lookup sid = some old)
    (hstate : old.providers.lookup id = some state)
    (hinc : session'.sessionIncarnation = old.sessionIncarnation)
    (hnext : state.pending = some next) (built : List Built) :
    state.running = true ∧ next.generation = state.generation ∧
      (∀ run ∈ s.runs ++ r.work, run.generation ≠ next.generation) ∧
      ∃ w ∈ s.built ++ built, w.generation = next.generation ∧ w.request = next.request ∧
        BelongsTo w.request sid session' id := by
  obtain ⟨hrunning, hgen, hruns, w, hw, hwgen, hwreq, hbelongs⟩ :=
    h.pending sid old id state next hold hstate hnext
  refine ⟨hrunning, hgen, fun run hrun => ?_, w, List.mem_append_left _ hw, hwgen, hwreq,
    hbelongs.of_eq hinc⟩
  rcases List.mem_append.mp hrun with hrun | hrun
  · exact hruns run hrun
  · have hlt := h.built_lt w hw
    have hle := (hr.work run hrun).asked.le
    omega

include h hs hr in
theorem belongsTo_of_placed {run : Run} (hrun : run ∈ r.work ++ r.parked) :
    BelongsTo run.request call.sessionId session run.provider.manifest.id := by
  obtain ⟨busy, hplaced⟩ := hr.placed hrun
  exact ⟨hplaced.asked.sessionId.trans (h.wf.sessionId _ _ hs).1, hplaced.asked.token,
    hplaced.asked.providerId⟩

include hr in
theorem mem_built_refreshed {refreshes : List RefreshCall} {w : Built}
    (hw : w ∈ (s.refreshed call session r refreshes).built) : w ∈ s.built ∨
      ∃ run ∈ r.work ++ r.parked, w = ⟨run.request, run.generation, s.observe call.sessionId⟩ ∧
        s.broker.nextGeneration ≤ run.generation ∧ run.generation < r.nextGeneration := by
  rcases List.mem_append.mp hw with hw | hw
  · exact .inl hw
  · obtain ⟨run, hrun, rfl⟩ := List.mem_map.mp hw
    obtain ⟨busy, hplaced⟩ := hr.placed hrun
    exact .inr ⟨run, hrun, rfl, hplaced.asked.le, hplaced.asked.lt⟩

include h hs hr in
theorem wf_refreshed (refreshes : List RefreshCall) :
    (s.refreshed call session r refreshes).broker.Wf where
  sessionId := Broker.forall_store (g := r.nextGeneration) h.wf.sessionId
    (h.wf.sessionId _ session hs)
  sessionIncarnation := Broker.forall_store (g := r.nextGeneration) h.wf.sessionIncarnation
    (h.wf.sessionIncarnation _ session hs)
  generation := by
    intro sid session' id state' hs' hstate'
    rcases refreshed_lookup_cases hs hr hs' hstate' with
      ⟨old, hold, hstate, -⟩ | ⟨-, -, ⟨k, -, hlt, rfl⟩ | ⟨run, hrun, -, rfl⟩⟩
    · exact (h.wf.generation sid old id state' hold hstate).trans_le hr.le
    · exact hlt
    · obtain ⟨busy, hplaced⟩ := hr.placed hrun
      rw [ProviderState.generation_ask]
      exact hplaced.asked.lt
  attached := Broker.forall_store (g := r.nextGeneration) h.wf.attached
    (h.wf.attached _ session hs)
  nodup := Broker.forall_store (g := r.nextGeneration) h.wf.nodup (h.wf.nodup _ session hs)
  fresh := h.wf.fresh

include h hs hr in
theorem inv_refreshed (refreshes : List RefreshCall) :
    (s.refreshed call session r refreshes).Inv where
  wf := wf_refreshed h hs hr refreshes
  built_lt := by
    intro w hw
    rcases mem_built_refreshed hr hw with hw | ⟨run, -, rfl, -, hlt⟩
    · exact (h.built_lt w hw).trans_le hr.le
    · exact hlt
  built_nodup := by
    rw [refreshed, List.map_append, List.map_map, List.nodup_append]
    refine ⟨h.built_nodup, hr.nodup, ?_⟩
    intro g hg g' hg' heq
    obtain ⟨w, hw, rfl⟩ := List.mem_map.mp hg
    obtain ⟨run, hrun, rfl⟩ := List.mem_map.mp hg'
    obtain ⟨busy, hplaced⟩ := hr.placed hrun
    have hlt := h.built_lt w hw
    have hle := hplaced.asked.le
    have heq' : w.generation = run.generation := heq
    omega
  runs_built := by
    intro run hrun
    rcases List.mem_append.mp hrun with hrun | hrun
    · obtain ⟨hid, w, hw, hrest⟩ := h.runs_built run hrun
      exact ⟨hid, w, List.mem_append_left _ hw, hrest⟩
    · exact ⟨(hr.work run hrun).asked.providerId, _, List.mem_append_right _
        (List.mem_map_of_mem (List.mem_append_left _ hrun)), rfl, rfl⟩
  runs_nodup := by
    rw [refreshed, List.map_append, List.nodup_append]
    have hnodup := hr.nodup
    rw [List.map_append, List.nodup_append] at hnodup
    refine ⟨h.runs_nodup, hnodup.1, ?_⟩
    intro g hg g' hg' heq
    obtain ⟨run, hrun, rfl⟩ := List.mem_map.mp hg
    obtain ⟨run', hrun', rfl⟩ := List.mem_map.mp hg'
    exact (generation_lt_of_placed h hr hrun (List.mem_append_left _ hrun')).ne heq
  running := by
    intro sid session' id state' hs' hstate' hrunning
    rcases refreshed_lookup_cases hs hr hs' hstate' with
      ⟨old, hold, hstate, hinc⟩ | ⟨rfl, hinc, ⟨k, -, -, rfl⟩ | ⟨run, hrun, rfl, rfl⟩⟩
    · exact running_append h r.work hold hstate hinc hrunning
    · have hbusy : (session.stateOf id).running = true := hrunning
      exact running_append h r.work hs (SessionState.lookup_of_running hbusy) hinc hbusy
    · rcases List.mem_append.mp hrun with hrun | hrun
      · refine ⟨run, List.mem_append_right _ hrun, ?_,
          (belongsTo_of_placed h hs hr (List.mem_append_left _ hrun)).of_eq hinc⟩
        rw [ProviderState.ask, if_neg (by simp [(hr.work run hrun).busy])]
        rfl
      · have hbusy := (hr.parked run hrun).busy
        rw [ProviderState.ask, if_pos hbusy]
        exact running_append h r.work hs (SessionState.lookup_of_running hbusy) hinc hbusy
  pending := by
    intro sid session' id state' next hs' hstate' hnext
    rcases refreshed_lookup_cases hs hr hs' hstate' with
      ⟨old, hold, hstate, hinc⟩ | ⟨rfl, hinc, ⟨k, -, -, rfl⟩ | ⟨run, hrun, rfl, rfl⟩⟩
    · exact pending_append h hr hold hstate hinc hnext _
    · cases hnext
    · have hbelongs := (belongsTo_of_placed h hs hr hrun).of_eq hinc
      obtain ⟨busy, hplaced⟩ := hr.placed hrun
      cases busy with
      | false =>
        rw [ProviderState.ask, if_neg (by simp [hplaced.busy])] at hnext
        have hidle := (h.pending _ _ _ _ next hs (SessionState.lookup_of_pending hnext)
          hnext).1
        rw [hplaced.busy] at hidle
        cases hidle
      | true =>
        have hparked : run ∈ r.parked := by
          refine (List.mem_append.mp hrun).resolve_left fun hwork => ?_
          have hidle := (hr.work run hwork).busy
          rw [hplaced.busy] at hidle
          cases hidle
        rw [ProviderState.ask, if_pos hplaced.busy] at hnext ⊢
        obtain rfl : (⟨run.request, run.generation⟩ : PendingRequest) = next :=
          Option.some.inj hnext
        refine ⟨hplaced.busy, rfl, fun run' hrun' heq => ?_, _, List.mem_append_right _
          (List.mem_map_of_mem hrun), rfl, rfl, hbelongs⟩
        rcases List.mem_append.mp hrun' with hrun' | hrun'
        · exact (generation_lt_of_placed h hr hrun' hrun).ne heq
        · have hnodup := hr.nodup
          rw [List.map_append, List.nodup_append] at hnodup
          exact hnodup.2.2 _ (List.mem_map_of_mem hrun') _ (List.mem_map_of_mem hparked) heq
  newest := by
    intro sid session' id state' hs' hstate' w hw hbelongs
    rcases mem_built_refreshed hr hw with hw | ⟨run, hrun, rfl, -, -⟩
    · have hlt := h.built_lt w hw
      rcases refreshed_lookup_cases hs hr hs' hstate' with
        ⟨old, hold, hstate, hinc⟩ | ⟨-, -, ⟨k, hk, -, rfl⟩ | ⟨run, hrun, rfl, rfl⟩⟩
      · exact h.newest sid old id state' hold hstate w hw (hbelongs.of_eq hinc.symm)
      · exact hlt.le.trans hk
      · obtain ⟨busy, hplaced⟩ := hr.placed hrun
        rw [ProviderState.generation_ask]
        exact hlt.le.trans hplaced.asked.le
    · have hsid : sid = call.sessionId :=
        hbelongs.1.symm.trans (belongsTo_of_placed h hs hr hrun).1
      obtain ⟨busy, hplaced⟩ := hr.placed hrun
      have hlookup := hplaced.lookup
      rw [lookup_refreshed, if_pos hsid] at hs'
      obtain rfl := Option.some.inj hs'
      rw [show run.provider.manifest.id = id from hplaced.asked.providerId.symm.trans
        hbelongs.2.2, hstate'] at hlookup
      rw [Option.some.inj hlookup, ProviderState.generation_ask]

end Refresh

theorem Inv.of_eq {s s' : System} (h : s.Inv) (hb : s'.broker = s.broker)
    (hr : s'.runs = s.runs) (hw : s'.built = s.built) : s'.Inv := by
  obtain ⟨broker, refreshes, runs, sent, built, ended⟩ := s'
  subst hb hr hw
  exact ⟨h.wf, h.built_lt, h.built_nodup, h.runs_built, h.runs_nodup, h.running, h.pending,
    h.newest⟩

variable {s : System}

theorem makeRefresh_cases {index : ℕ} {call : RefreshCall}
    (hcall : s.refreshes[index]? = some call) :
    (s.makeRefresh index = { s with refreshes := s.refreshes.eraseIdx index } ∧ ∀ session,
      s.broker.sessions.lookup call.sessionId = some session → session.callbacks = []) ∨
    ∃ session r, s.broker.sessions.lookup call.sessionId = some session ∧
      session.callbacks ≠ [] ∧
      Refreshing.Inv s.broker session call s.broker.providers.registrations r ∧
      s.makeRefresh index = s.refreshed call session r (s.refreshes.eraseIdx index) := by
  unfold makeRefresh
  rw [hcall]
  dsimp only
  rcases s.broker.refresh_cases call with ⟨heq, hnone⟩ | ⟨session, r, hs, hcb, hr, heq⟩
  · refine .inl ⟨?_, hnone⟩
    rw [heq]
    simp only [List.append_nil, List.map_nil]
  · refine .inr ⟨session, r, hs, hcb, hr, ?_⟩
    rw [heq]
    rfl

theorem makeRefresh_of_none {index : ℕ} (h : s.refreshes[index]? = none) :
    s.makeRefresh index = s := by
  unfold makeRefresh
  rw [h]

theorem inv_makeRefresh (h : s.Inv) (index : ℕ) : (s.makeRefresh index).Inv := by
  cases hcall : s.refreshes[index]? with
  | none => exact (makeRefresh_of_none hcall).symm ▸ h
  | some call =>
    rcases makeRefresh_cases hcall with ⟨heq, -⟩ | ⟨session, r, hs, -, hr, heq⟩
    · exact heq.symm ▸ h.of_eq rfl rfl rfl
    · exact heq.symm ▸ inv_refreshed h hs hr _

/-! ### The end of a run -/

section Finish

variable {s : System} {index : ℕ} {run : Run} {session : SessionState} {state : ProviderState}

/-- The run that was parked behind a finished one. -/
def nextRun (run : Run) (state : ProviderState) : Option Run :=
  state.pending.map fun next =>
    { provider := run.provider, request := next.request, generation := next.generation }

/-- The session after a run that was in progress has ended. -/
def finishedSession (session : SessionState) (state : ProviderState) (run : Run)
    (outcome : RunOutcome) : SessionState :=
  (Broker.endSession session state run).setProvider run.provider.manifest.id
    (Broker.endState session state run outcome).promote

/-- The system after a run that was in progress has ended. -/
def finished (s : System) (index : ℕ) (run : Run) (session : SessionState) (state : ProviderState)
    (outcome : RunOutcome) : System :=
  { s with
    broker := s.broker.store run.request.sessionId (finishedSession session state run outcome)
      s.broker.nextGeneration
    runs := s.runs.eraseIdx index ++ (nextRun run state).toList
    sent := s.sent ++ if Broker.judge session state run = .accepted then
        s.broker.notificationsFor run.request.sessionId
          ((Broker.endSession session state run).setProvider run.provider.manifest.id
            (Broker.endState session state run outcome)) outcome.diagnostics
      else []
    ended := s.ended ++ [⟨run, run.result outcome, Broker.judge session state run⟩] }

theorem lookup_finished (outcome : RunOutcome) (sid : String) :
    (s.finished index run session state outcome).broker.sessions.lookup sid =
      if sid = run.request.sessionId then some (finishedSession session state run outcome)
      else s.broker.sessions.lookup sid :=
  Table.lookup_insert_eq _ _ _ _

theorem finishRun_cases (hrun : s.runs[index]? = some run) (outcome : RunOutcome) :
    (∃ disposition, disposition ≠ .accepted ∧ disposition ≠ .generationMismatch ∧
      disposition ≠ .contextRevisionMismatch ∧
      s.finishRun index outcome = { s with
        runs := s.runs.eraseIdx index
        ended := s.ended ++ [⟨run, run.result outcome, disposition⟩] } ∧
      ∀ session state, s.broker.sessions.lookup run.request.sessionId = some session →
        session.providers.lookup run.provider.manifest.id = some state →
        state.running = true → state.runningGeneration ≠ run.generation) ∨
    ∃ session state, s.broker.sessions.lookup run.request.sessionId = some session ∧
      session.providers.lookup run.provider.manifest.id = some state ∧
      state.running = true ∧ state.runningGeneration = run.generation ∧
      s.finishRun index outcome = s.finished index run session state outcome := by
  unfold finishRun
  rw [hrun]
  dsimp only
  rcases s.broker.runProvider_cases run outcome with
    ⟨disposition, ha, hg, hc, heq, hnot⟩ | ⟨session, state, hs, hstate, hrunning, hgen, heq⟩
  · refine .inl ⟨disposition, ha, hg, hc, ?_, hnot⟩
    rw [heq]
    simp only [Option.toList_none, List.append_nil]
  · refine .inr ⟨session, state, hs, hstate, hrunning, hgen, ?_⟩
    rw [heq]
    rfl

theorem finishRun_of_none (h : s.runs[index]? = none) (outcome : RunOutcome) :
    s.finishRun index outcome = s := by
  unfold finishRun
  rw [h]

@[simp] theorem sessionIncarnation_finishedSession (outcome : RunOutcome) :
    (finishedSession session state run outcome).sessionIncarnation = session.sessionIncarnation := by
  unfold finishedSession Broker.endSession
  split_ifs <;> rfl

@[simp] theorem context_finishedSession (outcome : RunOutcome) :
    (finishedSession session state run outcome).context = session.context := by
  unfold finishedSession Broker.endSession
  split_ifs <;> rfl

@[simp] theorem callbacks_finishedSession (outcome : RunOutcome) :
    (finishedSession session state run outcome).callbacks = session.callbacks := by
  unfold finishedSession Broker.endSession
  split_ifs <;> rfl

theorem lookup_finishedSession (outcome : RunOutcome) (id : String) :
    (finishedSession session state run outcome).providers.lookup id =
      if id = run.provider.manifest.id then some (Broker.endState session state run outcome).promote
      else session.providers.lookup id := by
  unfold finishedSession Broker.endSession SessionState.setProvider
  split_ifs with haccepted hid hid
  all_goals simp [SessionState.nextUpdate, Table.lookup_insert_eq, hid]

@[simp] theorem generation_promote_endState (outcome : RunOutcome) :
    (Broker.endState session state run outcome).promote.generation = state.generation := by
  unfold Broker.endState ProviderState.promote
  split_ifs <;> (dsimp only; split <;> rfl)

@[simp] theorem pending_promote_endState (outcome : RunOutcome) :
    (Broker.endState session state run outcome).promote.pending = none := by
  unfold Broker.endState ProviderState.promote
  split_ifs <;> (dsimp only; split <;> first | assumption | rfl)

theorem promote_endState_of_pending {next : PendingRequest} (h : state.pending = some next)
    (outcome : RunOutcome) :
    (Broker.endState session state run outcome).promote.running = true ∧
      (Broker.endState session state run outcome).promote.runningGeneration = next.generation := by
  unfold Broker.endState ProviderState.promote
  split_ifs <;> simp [h]

theorem running_promote_endState_of_none (h : state.pending = none) (outcome : RunOutcome) :
    (Broker.endState session state run outcome).promote.running = false := by
  unfold Broker.endState ProviderState.promote
  split_ifs <;> simp [h]

theorem inv_finish_idle (h : s.Inv) (hrun : s.runs[index]? = some run) (ended : List Ended)
    (hnot : ∀ session state, s.broker.sessions.lookup run.request.sessionId = some session →
      session.providers.lookup run.provider.manifest.id = some state →
      state.running = true → state.runningGeneration ≠ run.generation) :
    Inv { s with runs := s.runs.eraseIdx index, ended } where
  wf := h.wf
  built_lt := h.built_lt
  built_nodup := h.built_nodup
  runs_built := fun run' hrun' => h.runs_built run' (List.mem_of_mem_eraseIdx hrun')
  runs_nodup := h.runs_nodup.sublist ((List.eraseIdx_sublist _ _).map _)
  running := by
    intro sid session id state hs hstate hrunning
    obtain ⟨run', hrun', hgen, hbelongs⟩ := h.running sid session id state hs hstate hrunning
    refine ⟨run', mem_eraseIdx_of_ne hrun hrun' ?_, hgen, hbelongs⟩
    rintro rfl
    have hid := (h.runs_built _ hrun').1.symm.trans hbelongs.2.2
    exact hnot session state (hbelongs.1 ▸ hs) (hid ▸ hstate) hrunning hgen.symm
  pending := by
    intro sid session id state next hs hstate hnext
    obtain ⟨hrunning, hgen, hruns, hw⟩ := h.pending sid session id state next hs hstate hnext
    exact ⟨hrunning, hgen, fun run' hrun' => hruns run' (List.mem_of_mem_eraseIdx hrun'), hw⟩
  newest := h.newest

section InProgress

variable (h : s.Inv) (hrun : s.runs[index]? = some run)
  (hs : s.broker.sessions.lookup run.request.sessionId = some session)
  (hstate : session.providers.lookup run.provider.manifest.id = some state)
  (hrunning : state.running = true) (hgen : state.runningGeneration = run.generation)

include h hrun hs hstate hrunning hgen in
theorem belongsTo_of_finished :
    BelongsTo run.request run.request.sessionId session run.provider.manifest.id := by
  obtain ⟨run', hrun', hgen', hbelongs⟩ := h.running _ session _ state hs hstate hrunning
  obtain rfl := run_eq_of_generation_eq h hrun' (List.mem_of_getElem? hrun) (hgen'.trans hgen)
  exact hbelongs

theorem finished_lookup_cases (hs : s.broker.sessions.lookup run.request.sessionId = some session)
    {outcome : RunOutcome} {sid id : String} {session' : SessionState} {state' : ProviderState}
    (hs' : (s.finished index run session state outcome).broker.sessions.lookup sid = some session')
    (hstate' : session'.providers.lookup id = some state') :
    (sid = run.request.sessionId ∧ id = run.provider.manifest.id ∧
      session' = finishedSession session state run outcome ∧
      state' = (Broker.endState session state run outcome).promote) ∨
    ∃ old, s.broker.sessions.lookup sid = some old ∧ old.providers.lookup id = some state' ∧
      session'.sessionIncarnation = old.sessionIncarnation ∧
      ¬ (sid = run.request.sessionId ∧ id = run.provider.manifest.id) := by
  rw [lookup_finished] at hs'
  split_ifs at hs' with hsid
  · obtain rfl := Option.some.inj hs'
    rw [lookup_finishedSession] at hstate'
    split_ifs at hstate' with hid
    · exact .inl ⟨hsid, hid, rfl, (Option.some.inj hstate').symm⟩
    · exact .inr ⟨session, hsid ▸ hs, hstate', sessionIncarnation_finishedSession outcome,
        fun hboth => hid hboth.2⟩
  · exact .inr ⟨session', hs', hstate', rfl, fun hboth => hsid hboth.1⟩

include h hs hstate in
theorem wf_finished (outcome : RunOutcome) :
    (s.finished index run session state outcome).broker.Wf where
  sessionId := Broker.forall_store (g := s.broker.nextGeneration) h.wf.sessionId (by
    rw [context_finishedSession]
    exact h.wf.sessionId _ session hs)
  sessionIncarnation := Broker.forall_store (g := s.broker.nextGeneration)
    h.wf.sessionIncarnation (by
      rw [sessionIncarnation_finishedSession]
      exact h.wf.sessionIncarnation _ session hs)
  generation := by
    intro sid session' id state' hs' hstate'
    rcases finished_lookup_cases hs hs' hstate' with ⟨-, -, -, rfl⟩ | ⟨old, hold, hstate', -, -⟩
    · rw [generation_promote_endState]
      exact h.wf.generation _ session _ state hs hstate
    · exact h.wf.generation sid old id state' hold hstate'
  attached := Broker.forall_store (g := s.broker.nextGeneration) h.wf.attached (by
    rw [callbacks_finishedSession]
    exact h.wf.attached _ session hs)
  nodup := Broker.forall_store (g := s.broker.nextGeneration) h.wf.nodup (by
    rw [callbacks_finishedSession]
    exact h.wf.nodup _ session hs)
  fresh := h.wf.fresh

include h hrun hs hstate in
theorem inv_finished (outcome : RunOutcome) :
    (s.finished index run session state outcome).Inv where
  wf := wf_finished h hs hstate outcome
  built_lt := h.built_lt
  built_nodup := h.built_nodup
  runs_built := by
    intro run' hrun'
    rcases List.mem_append.mp hrun' with hrun' | hrun'
    · exact h.runs_built run' (List.mem_of_mem_eraseIdx hrun')
    · obtain ⟨next, hnext, rfl⟩ := Option.map_eq_some_iff.mp (Option.mem_toList.mp hrun')
      obtain ⟨-, -, -, w, hw, hwgen, hwreq, hbelongs⟩ :=
        h.pending _ session _ state next hs hstate hnext
      exact ⟨hwreq ▸ hbelongs.2.2, w, hw, hwgen, hwreq⟩
  runs_nodup := by
    have hold : ((s.runs.eraseIdx index).map (·.generation)).Nodup :=
      h.runs_nodup.sublist ((List.eraseIdx_sublist _ _).map _)
    rw [finished, List.map_append, List.nodup_append]
    refine ⟨hold, ?_, ?_⟩
    · cases hp : nextRun run state with
      | none => exact List.nodup_nil
      | some next => exact List.nodup_singleton _
    · intro g hg g' hg' heq
      obtain ⟨run', hrun', rfl⟩ := List.mem_map.mp hg
      obtain ⟨run'', hrun'', rfl⟩ := List.mem_map.mp hg'
      obtain ⟨next, hnext, rfl⟩ := Option.map_eq_some_iff.mp (Option.mem_toList.mp hrun'')
      obtain ⟨-, -, hruns, -⟩ := h.pending _ session _ state next hs hstate hnext
      exact hruns run' (List.mem_of_mem_eraseIdx hrun') heq
  running := by
    intro sid session' id state' hs' hstate' hrunning'
    rcases finished_lookup_cases hs hs' hstate' with ⟨rfl, rfl, rfl, rfl⟩ |
      ⟨old, hold, hstate'', hinc, hother⟩
    · obtain ⟨next, hnext⟩ : ∃ next, state.pending = some next := by
        refine Option.ne_none_iff_exists'.mp fun hnone => ?_
        rw [running_promote_endState_of_none hnone] at hrunning'
        cases hrunning'
      have hgen' := (@promote_endState_of_pending run session state next hnext outcome).2
      obtain ⟨-, -, -, w, hw, hwgen, hwreq, hbelongs⟩ :=
        h.pending _ session _ state next hs hstate hnext
      refine ⟨{ provider := run.provider, request := next.request, generation := next.generation },
        List.mem_append_right _ ?_, hgen'.symm, ?_⟩
      · rw [nextRun, hnext]
        exact List.mem_singleton_self _
      · exact (hwreq ▸ hbelongs).of_eq (sessionIncarnation_finishedSession outcome)
    · obtain ⟨run', hrun', hgen', hbelongs⟩ := h.running sid old id state' hold hstate'' hrunning'
      refine ⟨run', List.mem_append_left _ (mem_eraseIdx_of_ne hrun hrun' ?_), hgen',
        hbelongs.of_eq hinc⟩
      rintro rfl
      exact hother ⟨hbelongs.1.symm, hbelongs.2.2.symm.trans (h.runs_built _ hrun').1⟩
  pending := by
    intro sid session' id state' next hs' hstate' hnext
    rcases finished_lookup_cases hs hs' hstate' with ⟨rfl, rfl, rfl, rfl⟩ |
      ⟨old, hold, hstate'', hinc, hother⟩
    · rw [pending_promote_endState] at hnext
      cases hnext
    · obtain ⟨hrunning', hgen', hruns, w, hw, hwgen, hwreq, hbelongs⟩ :=
        h.pending sid old id state' next hold hstate'' hnext
      refine ⟨hrunning', hgen', fun run' hrun' heq => ?_, w, hw, hwgen, hwreq,
        hbelongs.of_eq hinc⟩
      rcases List.mem_append.mp hrun' with hrun' | hrun'
      · exact hruns run' (List.mem_of_mem_eraseIdx hrun') heq
      · obtain ⟨next', hnext', rfl⟩ := Option.map_eq_some_iff.mp (Option.mem_toList.mp hrun')
        obtain ⟨-, -, -, w', hw', hwgen', -, hbelongs'⟩ :=
          h.pending _ session _ state next' hs hstate hnext'
        obtain rfl := eq_of_generation_eq h hw hw' (hwgen.trans (heq.symm.trans hwgen'.symm))
        exact hother ⟨hbelongs.1.symm.trans hbelongs'.1, hbelongs.2.2.symm.trans hbelongs'.2.2⟩
  newest := by
    intro sid session' id state' hs' hstate' w hw hbelongs
    rcases finished_lookup_cases hs hs' hstate' with ⟨rfl, rfl, rfl, rfl⟩ |
      ⟨old, hold, hstate'', hinc, -⟩
    · rw [generation_promote_endState]
      exact h.newest _ session _ state hs hstate w hw
        (hbelongs.of_eq (sessionIncarnation_finishedSession outcome).symm)
    · exact h.newest sid old id state' hold hstate'' w hw (hbelongs.of_eq hinc.symm)

end InProgress

end Finish

theorem inv_finishRun (h : s.Inv) (index : ℕ) (outcome : RunOutcome) :
    (s.finishRun index outcome).Inv := by
  cases hrun : s.runs[index]? with
  | none => exact (finishRun_of_none hrun outcome).symm ▸ h
  | some run =>
    rcases finishRun_cases hrun outcome with ⟨disposition, -, -, -, heq, hnot⟩ |
      ⟨session, state, hs, hstate, -, -, heq⟩
    · exact heq.symm ▸ inv_finish_idle h hrun _ hnot
    · exact heq.symm ▸ inv_finished h hrun hs hstate outcome

/-! ### Every run -/

theorem inv_step (h : s.Inv) (a : Action) : (s.step a).Inv := by
  rcases step_cases h.wf a with ⟨out, hout, -, heq⟩ | ⟨index, -, heq⟩ | ⟨index, outcome, -, heq⟩
  · exact heq.symm ▸ inv_lock h hout
  · exact heq.symm ▸ inv_makeRefresh h index
  · exact heq.symm ▸ inv_finishRun h index outcome

theorem inv_run (h : s.Inv) (actions : List Action) : (s.run actions).Inv := by
  induction actions generalizing s with
  | nil => exact h
  | cons a actions ih => exact ih (inv_step h a)

theorem inv_init (packageRoot : Path) (gitBinary : Option String) (processEpoch : ℕ)
    (builtIns : Catalog) : (init packageRoot gitBinary processEpoch builtIns).Inv := by
  have hs : ∀ sid session, (init packageRoot gitBinary processEpoch builtIns).broker.sessions.lookup
      sid ≠ some session := fun sid session h => by cases h
  have ha : ∀ a sid, (init packageRoot gitBinary processEpoch
      builtIns).broker.attachmentSessions.lookup a ≠ some sid := fun a sid h => by cases h
  exact
    { wf :=
        { sessionId := fun sid session h => absurd h (hs sid session)
          sessionIncarnation := fun sid session h => absurd h (hs sid session)
          generation := fun sid session _ _ h => absurd h (hs sid session)
          attached := fun sid session h => absurd h (hs sid session)
          nodup := fun sid session h => absurd h (hs sid session)
          fresh := fun a sid h => absurd h (ha a sid) }
      built_lt := fun _ h => absurd h List.not_mem_nil
      built_nodup := List.nodup_nil
      runs_built := fun _ h => absurd h List.not_mem_nil
      runs_nodup := List.nodup_nil
      running := fun sid session _ _ h => absurd h (hs sid session)
      pending := fun sid session _ _ _ h => absurd h (hs sid session)
      newest := fun sid session _ _ h => absurd h (hs sid session) }

end System

end IntelligentTerminal.RichTab
