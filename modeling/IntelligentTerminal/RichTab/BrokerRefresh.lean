import IntelligentTerminal.RichTab.BrokerMoves

/-!
# How a refresh asks the providers, and how a run ends

A refresh goes through the providers. A provider of which something is shown gets a request with a
new generation: it is started, or parked behind the run in progress. `Refreshing.Inv` is the
invariant of the loop; `Broker.refresh_cases` and `Broker.runProvider_cases` say what the two
locked sections can do.
-/

namespace IntelligentTerminal.RichTab

/-- The state that a refresh starts from for a provider. -/
def SessionState.stateOf (session : SessionState) (id : String) : ProviderState :=
  (session.providers.lookup id).getD {}

variable {session : SessionState}

theorem SessionState.lookup_of_running {id : String}
    (h : (session.stateOf id).running = true) :
    session.providers.lookup id = some (session.stateOf id) := by
  unfold stateOf at h ⊢
  cases hs : session.providers.lookup id with
  | none =>
    rw [hs] at h
    cases h
  | some state => rfl

theorem SessionState.lookup_of_pending {id : String}
    {next : PendingRequest} (h : (session.stateOf id).pending = some next) :
    session.providers.lookup id = some (session.stateOf id) := by
  unfold stateOf at h ⊢
  cases hs : session.providers.lookup id with
  | none =>
    rw [hs] at h
    cases h
  | some state => rfl

/-- A run is what a refresh asks its provider for a session, with a generation from that of the
broker on. -/
structure Run.AskedBy (b : Broker) (session : SessionState) (call : RefreshCall) (next : ℕ)
    (run : Run) : Prop where
  le : b.nextGeneration ≤ run.generation
  lt : run.generation < next
  activation : (call.activation b.packageRoot run.provider).isSome
  visible : b.visibleFieldsForSession session run.provider ≠ []
  request : ∃ reason hostRequestId,
    run.request = b.buildRequest session run.provider reason hostRequestId

namespace Run.AskedBy

variable {b : Broker} {session : SessionState} {call : RefreshCall} {next : ℕ} {run : Run}

theorem providerId (h : run.AskedBy b session call next) :
    run.request.providerId = run.provider.manifest.id := by
  obtain ⟨reason, n, heq⟩ := h.request
  rw [heq]
  rfl

theorem sessionId (h : run.AskedBy b session call next) :
    run.request.sessionId = session.context.sessionId := by
  obtain ⟨reason, n, heq⟩ := h.request
  rw [heq]
  rfl

theorem token (h : run.AskedBy b session call next) :
    run.request.diagnosticSessionToken = session.sessionIncarnation := by
  obtain ⟨reason, n, heq⟩ := h.request
  rw [heq]
  rfl

theorem mono (h : run.AskedBy b session call next) {next' : ℕ} (hle : next ≤ next') :
    run.AskedBy b session call next' :=
  ⟨h.le, h.lt.trans_le hle, h.activation, h.visible, h.request⟩

end Run.AskedBy

/-! ### The loop -/

/-- The state of a provider whose run starts. -/
def ProviderState.started (state : ProviderState) (generation : ℕ) : ProviderState :=
  { state with generation, running := true, runningGeneration := generation }

def ProviderState.parked (state : ProviderState) (request : Request) (generation : ℕ) :
    ProviderState :=
  { state with generation, pending := some ⟨request, generation⟩ }

/-- The state of a provider that is asked, behind a run if it is busy. -/
def ProviderState.ask (state : ProviderState) (run : Run) : ProviderState :=
  if state.running then state.parked run.request run.generation else state.started run.generation

/-- The loop of a refresh asked the provider of a run, one of `l`, while it was busy or not. -/
structure Run.PlacedBy (b : Broker) (session : SessionState) (call : RefreshCall)
    (l : List Registration) (r : Refreshing) (busy : Bool) (run : Run) : Prop where
  mem : run.provider ∈ l
  asked : run.AskedBy b session call r.nextGeneration
  busy : (session.stateOf run.provider.manifest.id).running = busy
  lookup : r.providers.lookup run.provider.manifest.id =
    some ((session.stateOf run.provider.manifest.id).ask run)

/-- What the loop of a refresh has done after it went through the providers `l`. -/
structure Refreshing.Inv (b : Broker) (session : SessionState) (call : RefreshCall)
    (l : List Registration) (r : Refreshing) : Prop where
  le : b.nextGeneration ≤ r.nextGeneration
  work : ∀ run ∈ r.work, run.PlacedBy b session call l r false
  parked : ∀ run ∈ r.parked, run.PlacedBy b session call l r true
  nodup : ((r.work ++ r.parked).map (·.generation)).Nodup
  untouched : ∀ id, (∀ p ∈ l, p.manifest.id = id → call.activation b.packageRoot p = none) →
    r.providers.lookup id = session.providers.lookup id
  asked : ∀ p ∈ l, (call.activation b.packageRoot p).isSome →
    (b.visibleFieldsForSession session p = [] ∧ ∃ k, b.nextGeneration ≤ k ∧ k < r.nextGeneration ∧
      r.providers.lookup p.manifest.id = some ((session.stateOf p.manifest.id).reset k)) ∨
    ∃ run ∈ r.work ++ r.parked, run.provider = p

namespace Refreshing

variable {b : Broker} {session : SessionState} {call : RefreshCall} {l : List Registration}
  {r : Refreshing} {p : Registration}

theorem inv_nil (b : Broker) (session : SessionState) (call : RefreshCall) :
    Inv b session call [] { nextGeneration := b.nextGeneration, nextRequest := b.nextRequest
                            providers := session.providers } where
  le := le_rfl
  work := fun _ h => absurd h List.not_mem_nil
  parked := fun _ h => absurd h List.not_mem_nil
  nodup := List.nodup_nil
  untouched := fun _ _ => rfl
  asked := fun _ h => absurd h List.not_mem_nil

theorem askProvider_cases (b : Broker) (session : SessionState) (call : RefreshCall)
    (r : Refreshing) (p : Registration) :
    let state := (r.providers.lookup p.manifest.id).getD {}
    (call.activation b.packageRoot p = none ∧ askProvider b session call r p = r) ∨
    ((call.activation b.packageRoot p).isSome ∧ b.visibleFieldsForSession session p = [] ∧
      askProvider b session call r p = r.hide state p.manifest.id) ∨
    ∃ run : Run, run.provider = p ∧ run.generation = r.nextGeneration ∧
      (call.activation b.packageRoot p).isSome ∧ b.visibleFieldsForSession session p ≠ [] ∧
      (∃ reason n, run.request = b.buildRequest session p reason n) ∧
      ((state.running = true ∧ askProvider b session call r p = r.park state run) ∨
        (state.running = false ∧ askProvider b session call r p = r.start state run)) := by
  intro state
  unfold askProvider
  cases hact : call.activation b.packageRoot p with
  | none => exact .inl ⟨rfl, rfl⟩
  | some reason =>
    refine .inr ?_
    dsimp only
    split_ifs with hvisible hrunning
    · exact .inl ⟨rfl, hvisible, rfl⟩
    · exact .inr ⟨_, rfl, rfl, rfl, hvisible, ⟨reason, _, rfl⟩, .inl ⟨hrunning, rfl⟩⟩
    · exact .inr ⟨_, rfl, rfl, rfl, hvisible, ⟨reason, _, rfl⟩,
        .inr ⟨Bool.eq_false_iff.mpr hrunning, rfl⟩⟩

section Turn

variable {r' : Refreshing} (h : Inv b session call l r) (hne : ∀ p' ∈ l, p'.manifest.id ≠ p.manifest.id)
  (hle : r.nextGeneration ≤ r'.nextGeneration)
  (hlookup : ∀ id, id ≠ p.manifest.id → r'.providers.lookup id = r.providers.lookup id)

include h hne in
theorem lookup_eq_of_inv : r.providers.lookup p.manifest.id =
    session.providers.lookup p.manifest.id :=
  h.untouched _ fun p' hp' heq => absurd heq (hne p' hp')

include hne hle hlookup in
theorem placedBy_turn {run : Run} {busy : Bool} (hrun : run.PlacedBy b session call l r busy) :
    run.PlacedBy b session call (l ++ [p]) r' busy :=
  ⟨List.mem_append_left _ hrun.mem, hrun.asked.mono hle, hrun.busy,
    (hlookup _ (hne _ hrun.mem)).trans hrun.lookup⟩

include h hne hle hlookup in
theorem asked_turn (hruns : ∀ run ∈ r.work ++ r.parked, run ∈ r'.work ++ r'.parked)
    {p' : Registration} (hp' : p' ∈ l) (hact : (call.activation b.packageRoot p').isSome) :
    (b.visibleFieldsForSession session p' = [] ∧ ∃ k, b.nextGeneration ≤ k ∧
      k < r'.nextGeneration ∧
      r'.providers.lookup p'.manifest.id = some ((session.stateOf p'.manifest.id).reset k)) ∨
    ∃ run ∈ r'.work ++ r'.parked, run.provider = p' := by
  rcases h.asked p' hp' hact with ⟨hvisible, k, hk, hlt, hstate⟩ | ⟨run, hrun, heq⟩
  · exact .inl ⟨hvisible, k, hk, hlt.trans_le hle, (hlookup _ (hne p' hp')).trans hstate⟩
  · exact .inr ⟨run, hruns run hrun, heq⟩

include h hlookup in
theorem untouched_turn (hact : (call.activation b.packageRoot p).isSome) {id : String}
    (hid : ∀ p' ∈ l ++ [p], p'.manifest.id = id → call.activation b.packageRoot p' = none) :
    r'.providers.lookup id = session.providers.lookup id := by
  have hpid : id ≠ p.manifest.id := by
    rintro rfl
    rw [hid p (by simp) rfl] at hact
    cases hact
  rw [hlookup id hpid]
  exact h.untouched id fun p' hp' => hid p' (List.mem_append_left _ hp')

include h in
theorem generation_notMem : r.nextGeneration ∉ (r.work ++ r.parked).map (·.generation) := by
  intro hmem
  obtain ⟨run, hrun, heq⟩ := List.mem_map.mp hmem
  rcases List.mem_append.mp hrun with hrun | hrun
  · exact ((h.work run hrun).asked.lt).ne heq
  · exact ((h.parked run hrun).asked.lt).ne heq

end Turn

theorem inv_ask (h : Inv b session call l r) {run : Run}
    (hne : ∀ p' ∈ l, p'.manifest.id ≠ run.provider.manifest.id)
    (hgen : run.generation = r.nextGeneration)
    (hact : (call.activation b.packageRoot run.provider).isSome)
    (hvisible : b.visibleFieldsForSession session run.provider ≠ [])
    (hrequest : ∃ reason n, run.request = b.buildRequest session run.provider reason n)
    {r' : Refreshing}
    (hr' : ((session.stateOf run.provider.manifest.id).running = true ∧
        r' = r.park (session.stateOf run.provider.manifest.id) run) ∨
      ((session.stateOf run.provider.manifest.id).running = false ∧
        r' = r.start (session.stateOf run.provider.manifest.id) run)) :
    Inv b session call (l ++ [run.provider]) r' := by
  have hid : run.request.providerId = run.provider.manifest.id := by
    obtain ⟨reason, n, heq⟩ := hrequest
    rw [heq]
    rfl
  have hnext : r'.nextGeneration = r.nextGeneration + 1 := by
    rcases hr' with ⟨-, rfl⟩ | ⟨-, rfl⟩ <;> rfl
  have hle : r.nextGeneration ≤ r'.nextGeneration := hnext ▸ Nat.le_succ _
  have hstate : r'.providers.lookup run.provider.manifest.id =
      some ((session.stateOf run.provider.manifest.id).ask run) := by
    rcases hr' with ⟨hbusy, rfl⟩ | ⟨hbusy, rfl⟩ <;>
      simp [park, start, ProviderState.ask, ProviderState.parked, ProviderState.started, hbusy, hid]
  have hlookup : ∀ id, id ≠ run.provider.manifest.id →
      r'.providers.lookup id = r.providers.lookup id := by
    intro id hne'
    rcases hr' with ⟨-, rfl⟩ | ⟨-, rfl⟩
    · exact AList.lookup_insert_ne (hid ▸ hne')
    · exact AList.lookup_insert_ne (hid ▸ hne')
  have hplaced : run.PlacedBy b session call (l ++ [run.provider]) r'
      (session.stateOf run.provider.manifest.id).running :=
    ⟨by simp, ⟨hgen ▸ h.le, hgen ▸ hnext ▸ Nat.lt_succ_self _, hact, hvisible, hrequest⟩, rfl,
      hstate⟩
  have hmem' : ∀ run' ∈ r.work ++ r.parked, run' ∈ r'.work ++ r'.parked := by
    rcases hr' with ⟨-, rfl⟩ | ⟨-, rfl⟩ <;> simp only [park, start, List.mem_append] <;> tauto
  have hrun : run ∈ r'.work ++ r'.parked := by
    rcases hr' with ⟨-, rfl⟩ | ⟨-, rfl⟩ <;> simp [park, start]
  refine ⟨h.le.trans hle, ?_, ?_, ?_, fun id => untouched_turn h hlookup hact, ?_⟩
  · intro run' hrun'
    rcases hr' with ⟨-, rfl⟩ | ⟨hbusy, rfl⟩
    · exact placedBy_turn hne hle hlookup (h.work run' hrun')
    · rcases List.mem_append.mp hrun' with hrun' | hrun'
      · exact placedBy_turn hne hle hlookup (h.work run' hrun')
      · obtain rfl := List.mem_singleton.mp hrun'
        exact hbusy ▸ hplaced
  · intro run' hrun'
    rcases hr' with ⟨hbusy, rfl⟩ | ⟨-, rfl⟩
    · rcases List.mem_append.mp hrun' with hrun' | hrun'
      · exact placedBy_turn hne hle hlookup (h.parked run' hrun')
      · obtain rfl := List.mem_singleton.mp hrun'
        exact hbusy ▸ hplaced
    · exact placedBy_turn hne hle hlookup (h.parked run' hrun')
  · have hperm : ((r'.work ++ r'.parked).map (·.generation)).Perm
        (r.nextGeneration :: (r.work ++ r.parked).map (·.generation)) := by
      rcases hr' with ⟨-, rfl⟩ | ⟨-, rfl⟩
      · simp only [park, ← List.append_assoc, List.map_append, List.map_cons, List.map_nil, hgen]
        exact List.perm_append_singleton _ _
      · simp only [start, List.append_assoc, List.map_append, List.map_cons, hgen,
          List.singleton_append]
        exact List.perm_middle
    exact hperm.nodup_iff.mpr (List.nodup_cons.mpr ⟨generation_notMem h, h.nodup⟩)
  · intro p' hp' hact'
    rcases List.mem_append.mp hp' with hp' | hp'
    · exact asked_turn h hne hle hlookup hmem' hp' hact'
    · exact .inr ⟨run, hrun, (List.mem_singleton.mp hp').symm⟩

theorem inv_askProvider (h : Inv b session call l r)
    (hnodup : ((l ++ [p]).map (·.manifest.id)).Nodup) :
    Inv b session call (l ++ [p]) (askProvider b session call r p) := by
  have hne : ∀ p' ∈ l, p'.manifest.id ≠ p.manifest.id := by
    intro p' hp'
    rw [List.map_append, List.nodup_append] at hnodup
    exact hnodup.2.2 _ (List.mem_map_of_mem hp') _ (by simp)
  have hstate : (r.providers.lookup p.manifest.id).getD {} = session.stateOf p.manifest.id := by
    rw [lookup_eq_of_inv h hne]
    rfl
  have hinsert : ∀ (state : ProviderState) (id : String), id ≠ p.manifest.id →
      (r.providers.insert p.manifest.id state).lookup id = r.providers.lookup id :=
    fun state id hid => AList.lookup_insert_ne hid
  rcases askProvider_cases b session call r p with ⟨hact, heq⟩ | ⟨hact, hvisible, heq⟩ |
    ⟨run, rfl, hgen, hact, hvisible, hrequest, hcases⟩
  · rw [heq]
    refine ⟨h.le, fun run hrun => placedBy_turn hne le_rfl (fun _ _ => rfl) (h.work run hrun),
      fun run hrun => placedBy_turn hne le_rfl (fun _ _ => rfl) (h.parked run hrun), h.nodup,
      fun id hid => h.untouched id fun p' hp' => hid p' (List.mem_append_left _ hp'), ?_⟩
    intro p' hp' hact'
    rcases List.mem_append.mp hp' with hp' | hp'
    · exact h.asked p' hp' hact'
    · rw [List.mem_singleton.mp hp', hact] at hact'
      cases hact'
  · rw [heq, hstate]
    refine ⟨h.le.trans (Nat.le_succ _),
      fun run hrun => placedBy_turn hne (Nat.le_succ _) (hinsert _) (h.work run hrun),
      fun run hrun => placedBy_turn hne (Nat.le_succ _) (hinsert _) (h.parked run hrun), h.nodup,
      fun id hid => untouched_turn h (hinsert _) hact hid, ?_⟩
    intro p' hp' hact'
    rcases List.mem_append.mp hp' with hp' | hp'
    · refine asked_turn h hne (Nat.le_succ _) (hinsert _) ?_ hp' hact'
      exact fun run hrun => hrun
    · obtain rfl := List.mem_singleton.mp hp'
      exact .inl ⟨hvisible, r.nextGeneration, h.le, Nat.lt_succ_self _, AList.lookup_insert _⟩
  · exact inv_ask h hne hgen hact hvisible hrequest (hstate ▸ hcases)

theorem inv_foldl (hnodup : (l.map (·.manifest.id)).Nodup) :
    Inv b session call l (l.foldl (askProvider b session call)
      { nextGeneration := b.nextGeneration, nextRequest := b.nextRequest
        providers := session.providers }) := by
  induction l using List.reverseRecOn with
  | nil => exact inv_nil b session call
  | append_singleton l p ih =>
    rw [List.foldl_append]
    refine inv_askProvider (ih ?_) hnodup
    rw [List.map_append, List.nodup_append] at hnodup
    exact hnodup.1

theorem Inv.lookup_cases (h : Inv b session call l r) {id : String} {state' : ProviderState}
    (hstate' : r.providers.lookup id = some state') :
    session.providers.lookup id = some state' ∨
    (∃ k, b.nextGeneration ≤ k ∧ k < r.nextGeneration ∧ state' = (session.stateOf id).reset k) ∨
    ∃ run ∈ r.work ++ r.parked, run.provider.manifest.id = id ∧
      state' = (session.stateOf id).ask run := by
  by_cases hasked : ∀ p ∈ l, p.manifest.id = id → call.activation b.packageRoot p = none
  · exact .inl (h.untouched id hasked ▸ hstate')
  · push Not at hasked
    obtain ⟨p, hp, rfl, hact⟩ := hasked
    refine .inr ?_
    rcases h.asked p hp (Option.isSome_iff_ne_none.mpr hact) with
      ⟨-, k, hk, hlt, hlookup⟩ | ⟨run, hrun, rfl⟩
    · exact .inl ⟨k, hk, hlt, Option.some.inj (hstate'.symm.trans hlookup)⟩
    · refine .inr ⟨run, hrun, rfl, Option.some.inj (hstate'.symm.trans ?_)⟩
      rcases List.mem_append.mp hrun with hrun | hrun
      · exact (h.work run hrun).lookup
      · exact (h.parked run hrun).lookup

theorem Inv.placed (h : Inv b session call l r) {run : Run} (hrun : run ∈ r.work ++ r.parked) :
    ∃ busy, run.PlacedBy b session call l r busy := by
  rcases List.mem_append.mp hrun with hrun | hrun
  · exact ⟨_, h.work run hrun⟩
  · exact ⟨_, h.parked run hrun⟩

end Refreshing

@[simp] theorem ProviderState.generation_ask (state : ProviderState) (run : Run) :
    (state.ask run).generation = run.generation := by
  unfold ask
  split_ifs <;> rfl

/-! ### The two locked sections -/

namespace Broker

theorem refresh_cases (b : Broker) (call : RefreshCall) :
    (b.refresh call = { broker := b } ∧ ∀ session,
      b.sessions.lookup call.sessionId = some session → session.callbacks = []) ∨
    ∃ session r, b.sessions.lookup call.sessionId = some session ∧ session.callbacks ≠ [] ∧
      Refreshing.Inv b session call b.providers.registrations r ∧
      b.refresh call =
        { broker := { b.store call.sessionId { session with providers := r.providers }
            r.nextGeneration with nextRequest := r.nextRequest }
          work := r.work, parked := r.parked } := by
  unfold refresh
  cases hs : b.sessions.lookup call.sessionId with
  | none => exact .inl ⟨rfl, fun session h => by cases h⟩
  | some session =>
    dsimp only
    split_ifs with hcb
    · refine .inl ⟨rfl, fun session' h => ?_⟩
      obtain rfl := Option.some.inj h
      exact hcb
    · exact .inr ⟨session, _, rfl, hcb, Refreshing.inv_foldl b.providers.nodup, rfl⟩

theorem runProvider_cases (b : Broker) (run : Run) (outcome : RunOutcome) :
    (∃ disposition, disposition ≠ .accepted ∧ disposition ≠ .generationMismatch ∧
      disposition ≠ .contextRevisionMismatch ∧
      b.runProvider run outcome = { broker := b, disposition } ∧
      ∀ session state, b.sessions.lookup run.request.sessionId = some session →
        session.providers.lookup run.provider.manifest.id = some state →
        state.running = true → state.runningGeneration ≠ run.generation) ∨
    ∃ session state, b.sessions.lookup run.request.sessionId = some session ∧
      session.providers.lookup run.provider.manifest.id = some state ∧
      state.running = true ∧ state.runningGeneration = run.generation ∧
      b.runProvider run outcome =
        { broker := b.store run.request.sessionId ((endSession session state run).setProvider
            run.provider.manifest.id (endState session state run outcome).promote) b.nextGeneration
          notifications := if judge session state run = .accepted then
              b.notificationsFor run.request.sessionId ((endSession session state run).setProvider
                run.provider.manifest.id (endState session state run outcome)) outcome.diagnostics
            else []
          next := state.pending.map fun next =>
            { provider := run.provider, request := next.request, generation := next.generation }
          disposition := judge session state run } := by
  unfold runProvider
  cases hs : b.sessions.lookup run.request.sessionId with
  | none =>
    exact .inl ⟨.sessionMissing, by decide, by decide, by decide, rfl, fun _ _ h => by cases h⟩
  | some session =>
    dsimp only
    cases hstate : session.providers.lookup run.provider.manifest.id with
    | none =>
      refine .inl ⟨.providerStateMissing, by decide, by decide, by decide, rfl,
        fun session' state h h' => ?_⟩
      obtain rfl := Option.some.inj h
      rw [hstate] at h'
      cases h'
    | some state =>
      dsimp only
      by_cases hmine : (!state.running || decide (state.runningGeneration ≠ run.generation)) = true
      · rw [if_pos hmine]
        refine .inl ⟨.runningGenerationMismatch, by decide, by decide, by decide, rfl,
          fun session' state' h h' hrunning => ?_⟩
        obtain rfl := Option.some.inj h
        obtain rfl := Option.some.inj (hstate.symm.trans h')
        simpa [hrunning] using hmine
      · rw [if_neg hmine]
        simp only [Bool.or_eq_true, Bool.not_eq_true', decide_eq_true_eq, not_or,
          Bool.not_eq_false, not_not] at hmine
        exact .inr ⟨session, state, rfl, hstate, hmine.1, hmine.2, rfl⟩

theorem judge_eq_accepted {session : SessionState} {state : ProviderState} {run : Run} :
    judge session state run = .accepted ↔ state.generation = run.generation ∧
      session.contextRevision = run.request.contextRevision := by
  unfold judge
  split_ifs with hgen hrev
  · simp [hgen]
  · simp [hrev]
  · simp [not_not.mp hgen, not_not.mp hrev]

end Broker

end IntelligentTerminal.RichTab
