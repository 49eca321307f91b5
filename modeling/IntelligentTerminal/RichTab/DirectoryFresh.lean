import IntelligentTerminal.RichTab.UpdateOrder

/-!
# The broker never shows a stale directory

What the git status returned for one directory must not be shown for another. The snapshot of the
git status loses its directory fields, and its state gets a new generation, whenever the directory
or the agent of a session changes; a run that ends is accepted only with the generation of the
state. So a directory field that is stored was returned for a request that was built while the
session had exactly its present directory.
-/

namespace IntelligentTerminal.RichTab

namespace System

/-! ### Snapshots -/

/-- A snapshot was returned by an accepted run for a request that was built while the session had
its present directory. -/
def ReturnedFor (s : System) (sid : String) (session : SessionState) (id : String)
    (snapshot : Snapshot) : Prop :=
  ∃ e ∈ s.ended, e.snapshot = some snapshot ∧ e.disposition = .accepted ∧
    ∃ w ∈ s.built, w.request = e.run.request ∧ w.generation = e.run.generation ∧
      BelongsTo w.request sid session id ∧ w.observed = session.directory

/-- What holds of the git status: a request with the generation of the state was built for the
present directory, and so was one for which a directory field is stored. -/
structure Fresh (s : System) : Prop where
  observed : ∀ sid session id state, s.broker.isGitStatus id →
    s.broker.sessions.lookup sid = some session → session.providers.lookup id = some state →
    ∀ w ∈ s.built, BelongsTo w.request sid session id → w.generation = state.generation →
      w.observed = session.directory
  shown : ∀ sid session id state snapshot, s.broker.isGitStatus id →
    s.broker.sessions.lookup sid = some session → session.providers.lookup id = some state →
    state.snapshot = some snapshot → snapshot.HoldsDirectory →
      s.ReturnedFor sid session id snapshot

variable {s : System}

theorem ReturnedFor.mono {s' : System} {sid id : String} {session session' : SessionState}
    {snapshot : Snapshot} (h : s.ReturnedFor sid session id snapshot)
    (hended : ∀ e ∈ s.ended, e ∈ s'.ended) (hbuilt : ∀ w ∈ s.built, w ∈ s'.built)
    (hinc : session'.sessionIncarnation = session.sessionIncarnation)
    (hdir : session'.directory = session.directory) : s'.ReturnedFor sid session' id snapshot := by
  obtain ⟨e, he, hsnapshot, haccepted, w, hw, hreq, hgen, hbelongs, hobserved⟩ := h
  exact ⟨e, hended e he, hsnapshot, haccepted, w, hbuilt w hw, hreq, hgen, hbelongs.of_eq hinc,
    hobserved.trans hdir.symm⟩

theorem isGitStatus_congr {b b' : Broker} (hroot : b'.packageRoot = b.packageRoot)
    (hp : b'.providers = b.providers) : b'.isGitStatus = b.isGitStatus := by
  funext id
  rw [Broker.isGitStatus, Broker.isGitStatus, hroot, hp]

theorem fresh_lock (h : s.Inv) (hf : s.Fresh) {out : Locked} (hout : Locked.Sound s.broker out) :
    (s.lock out).Fresh where
  observed := by
    intro sid session' id state' hgit hs' hstate' w hw hbelongs hgen
    have hlt := h.built_lt w hw
    rcases hout.origin sid session' hs' with ⟨session, hs, hm, hk, -⟩ | ⟨-, hnone⟩
    · obtain ⟨state, hstate, ht⟩ := hm.touched id state' hstate'
      rcases hout.catalog with ⟨hroot, hp⟩ | hnew
      · have hgit' : s.broker.isGitStatus id := isGitStatus_congr hroot hp ▸ hgit
        rcases hk with hdir | hcleared
        · rcases ht.parked with ⟨hg, -⟩ | ⟨hlow, -⟩
          · exact (hf.observed sid session id state hgit' hs hstate w hw
              (hbelongs.of_eq hm.sessionIncarnation.symm) (hgen.trans hg)).trans hdir.symm
          · omega
        · have hlow := (hcleared id state' hgit hstate').1
          omega
      · have hlow := (hnew sid session' id state' hs' hstate').1
        omega
    · rw [hnone] at hstate'
      cases hstate'
  shown := by
    intro sid session' id state' snapshot hgit hs' hstate' hsnapshot hholds
    rcases hout.origin sid session' hs' with ⟨session, hs, hm, hk, -⟩ | ⟨-, hnone⟩
    · obtain ⟨state, hstate, ht⟩ := hm.touched id state' hstate'
      rcases hout.catalog with ⟨hroot, hp⟩ | hnew
      · have hgit' : s.broker.isGitStatus id := isGitStatus_congr hroot hp ▸ hgit
        rcases hk with hdir | hcleared
        · rcases ht.snapshot with hsame | hnot
          · exact (hf.shown sid session id state snapshot hgit' hs hstate
              (hsame.symm.trans hsnapshot) hholds).mono (fun _ he => he) (fun _ hw => hw)
              hm.sessionIncarnation hdir
          · exact absurd hholds (hnot snapshot hsnapshot)
        · exact absurd hholds ((hcleared id state' hgit hstate').2 snapshot hsnapshot)
      · have hnone := (hnew sid session' id state' hs' hstate').2
        rw [hnone] at hsnapshot
        cases hsnapshot
    · rw [hnone] at hstate'
      cases hstate'

section Refresh

variable {call : RefreshCall} {session : SessionState} {r : Refreshing}

theorem fresh_refreshed (h : s.Inv) (hf : s.Fresh)
    (hs : s.broker.sessions.lookup call.sessionId = some session)
    (hr : Refreshing.Inv s.broker session call s.broker.providers.registrations r)
    (refreshes : List RefreshCall) : (s.refreshed call session r refreshes).Fresh where
  observed := by
    intro sid session' id state' hgit hs' hstate' w hw hbelongs hgen
    rw [lookup_refreshed] at hs'
    rcases mem_built_refreshed hr hw with hw | ⟨run, hrun, rfl, -, -⟩
    · have hlt := h.built_lt w hw
      split_ifs at hs' with hsid
      · obtain rfl := Option.some.inj hs'
        rcases hr.lookup_cases hstate' with hstate | ⟨k, hk, -, rfl⟩ | ⟨run, hrun, -, rfl⟩
        · exact hf.observed sid session id state' hgit (hsid ▸ hs) hstate w hw hbelongs hgen
        · have hk' : w.generation = k := hgen
          omega
        · obtain ⟨busy, hplaced⟩ := hr.placed hrun
          rw [ProviderState.generation_ask] at hgen
          have hle := hplaced.asked.le
          omega
      · exact hf.observed sid session' id state' hgit hs' hstate' w hw hbelongs hgen
    · have hsid : sid = call.sessionId :=
        hbelongs.1.symm.trans (belongsTo_of_placed h hs hr hrun).1
      rw [if_pos hsid] at hs'
      obtain rfl := Option.some.inj hs'
      change s.observe call.sessionId = session.directory
      rw [observe, hs, Option.getD_some]
  shown := by
    intro sid session' id state' snapshot hgit hs' hstate' hsnapshot hholds
    rw [lookup_refreshed] at hs'
    have hbuilt : ∀ w ∈ s.built, w ∈ (s.refreshed call session r refreshes).built :=
      fun w hw => List.mem_append_left _ hw
    split_ifs at hs' with hsid
    · obtain rfl := Option.some.inj hs'
      have hold : ∀ state, session.providers.lookup id = some state →
          state.snapshot = some snapshot → (s.refreshed call session r refreshes).ReturnedFor sid
            { session with providers := r.providers } id snapshot := fun state hstate hsnap =>
        (hf.shown sid session id state snapshot hgit (hsid ▸ hs) hstate hsnap hholds).mono
          (fun _ he => he) hbuilt rfl rfl
      have hdefault : (session.stateOf id).snapshot = some snapshot →
          session.providers.lookup id = some (session.stateOf id) := by
        intro hsnap
        unfold SessionState.stateOf at hsnap ⊢
        cases hlookup : session.providers.lookup id with
        | none =>
          rw [hlookup] at hsnap
          cases hsnap
        | some state => rfl
      rcases hr.lookup_cases hstate' with hstate | ⟨k, -, -, rfl⟩ | ⟨run, -, -, rfl⟩
      · exact hold state' hstate hsnapshot
      · cases hsnapshot
      · have hsnap : (session.stateOf id).snapshot = some snapshot := by
          rw [← hsnapshot, ProviderState.ask]
          split_ifs <;> rfl
        exact hold _ (hdefault hsnap) hsnap
    · exact (hf.shown sid session' id state' snapshot hgit hs' hstate' hsnapshot hholds).mono
        (fun _ he => he) hbuilt rfl rfl

end Refresh

section Finish

variable {index : ℕ} {run : Run} {session : SessionState} {state : ProviderState}

@[simp] theorem directory_finishedSession (outcome : RunOutcome) :
    (finishedSession session state run outcome).directory = session.directory := by
  unfold finishedSession Broker.endSession
  split_ifs <;> rfl

theorem snapshot_promote_endState (outcome : RunOutcome) :
    (Broker.endState session state run outcome).promote.snapshot =
      if Broker.judge session state run = .accepted then run.result outcome
      else state.snapshot := by
  unfold Broker.endState ProviderState.promote
  split_ifs <;> (dsimp only; split <;> rfl)

theorem fresh_finished (h : s.Inv) (hf : s.Fresh) (hrun : s.runs[index]? = some run)
    (hs : s.broker.sessions.lookup run.request.sessionId = some session)
    (hstate : session.providers.lookup run.provider.manifest.id = some state)
    (hrunning : state.running = true) (hgen : state.runningGeneration = run.generation)
    (outcome : RunOutcome) : (s.finished index run session state outcome).Fresh where
  observed := by
    intro sid session' id state' hgit hs' hstate' w hw hbelongs hwgen
    rw [lookup_finished] at hs'
    split_ifs at hs' with hsid
    · obtain rfl := Option.some.inj hs'
      rw [directory_finishedSession]
      have hbelongs' := hbelongs.of_eq (sessionIncarnation_finishedSession outcome).symm
      rw [lookup_finishedSession] at hstate'
      split_ifs at hstate' with hid
      · obtain rfl := Option.some.inj hstate'
        rw [generation_promote_endState] at hwgen
        exact hf.observed sid session id state hgit (hsid ▸ hs) (hid ▸ hstate) w hw hbelongs' hwgen
      · exact hf.observed sid session id state' hgit (hsid ▸ hs) hstate' w hw hbelongs' hwgen
    · exact hf.observed sid session' id state' hgit hs' hstate' w hw hbelongs hwgen
  shown := by
    intro sid session' id state' snapshot hgit hs' hstate' hsnapshot hholds
    have hended : ∀ e ∈ s.ended, e ∈ (s.finished index run session state outcome).ended :=
      fun e he => List.mem_append_left _ he
    rw [lookup_finished] at hs'
    split_ifs at hs' with hsid
    · obtain rfl := Option.some.inj hs'
      have hold : ∀ state', session.providers.lookup id = some state' →
          state'.snapshot = some snapshot → (s.finished index run session state outcome).ReturnedFor
            sid (finishedSession session state run outcome) id snapshot := fun state' hl hsnap =>
        (hf.shown sid session id state' snapshot hgit (hsid ▸ hs) hl hsnap hholds).mono hended
          (fun _ hw => hw) (sessionIncarnation_finishedSession outcome)
          (directory_finishedSession outcome)
      rw [lookup_finishedSession] at hstate'
      split_ifs at hstate' with hid
      · obtain rfl := Option.some.inj hstate'
        rw [snapshot_promote_endState] at hsnapshot
        split_ifs at hsnapshot with haccepted
        · obtain ⟨-, w, hw, hwgen, hwreq⟩ := h.runs_built run (List.mem_of_getElem? hrun)
          have hbelongs := belongsTo_of_finished h hrun hs hstate hrunning hgen
          have hbelongs' : BelongsTo w.request sid session id := by
            rw [hwreq, hsid, hid]
            exact hbelongs
          refine ⟨_, List.mem_append_right _ (List.mem_singleton_self _), hsnapshot, haccepted, w,
            hw, hwreq, hwgen, hbelongs'.of_eq (sessionIncarnation_finishedSession outcome), ?_⟩
          rw [directory_finishedSession]
          exact hf.observed sid session id state hgit (hsid ▸ hs) (hid ▸ hstate) w hw hbelongs'
            (hwgen.trans (Broker.judge_eq_accepted.mp haccepted).1.symm)
        · exact hold state (hid ▸ hstate) hsnapshot
      · exact hold state' hstate' hsnapshot
    · exact (hf.shown sid session' id state' snapshot hgit hs' hstate' hsnapshot hholds).mono hended
        (fun _ hw => hw) rfl rfl

end Finish

theorem fresh_step (h : s.Inv) (hf : s.Fresh) (a : Action) : (s.step a).Fresh := by
  rcases step_cases h.wf a with ⟨out, hout, -, heq⟩ | ⟨index, -, heq⟩ | ⟨index, outcome, -, heq⟩
  · exact heq.symm ▸ fresh_lock h hf hout
  · rw [heq]
    cases hcall : s.refreshes[index]? with
    | none => exact (makeRefresh_of_none hcall).symm ▸ hf
    | some call =>
      rcases makeRefresh_cases hcall with ⟨heq, -⟩ | ⟨session, r, hs, -, hr, heq⟩
      · exact heq.symm ▸ ⟨hf.observed, hf.shown⟩
      · exact heq.symm ▸ fresh_refreshed h hf hs hr _
  · rw [heq]
    cases hrun : s.runs[index]? with
    | none => exact (finishRun_of_none hrun outcome).symm ▸ hf
    | some run =>
      rcases finishRun_cases hrun outcome with ⟨disposition, -, -, -, heq, -⟩ |
        ⟨session, state, hs, hstate, hrunning, hgen, heq⟩
      · rw [heq]
        exact ⟨hf.observed, fun sid session id state snapshot hgit hs hstate hsnapshot hholds =>
          (hf.shown sid session id state snapshot hgit hs hstate hsnapshot hholds).mono
            (fun e he => List.mem_append_left _ he) (fun _ hw => hw) rfl rfl⟩
      · exact heq.symm ▸ fresh_finished h hf hrun hs hstate hrunning hgen outcome

theorem fresh_run (h : s.Inv) (hf : s.Fresh) (actions : List Action) : (s.run actions).Fresh := by
  induction actions generalizing s with
  | nil => exact hf
  | cons a actions ih => exact ih (inv_step h a) (fresh_step h hf a)

/-! ### What is never stale -/

/-- Wherever the snapshot of the built-in git status has a directory field, it was returned by an
accepted run for a request that was built while the session had exactly its present working
directory, authoritative flag, shell type, agent and directory of the agent. -/
def ShowsPresentDirectory (s : System) : Prop :=
  ∀ sid session provider state snapshot,
    s.broker.sessions.lookup sid = some session →
    provider ∈ s.broker.providers.registrations →
    isBuiltInGitStatus s.broker.packageRoot provider →
    session.providers.lookup provider.manifest.id = some state →
    state.snapshot = some snapshot → snapshot.HoldsDirectory →
    s.ReturnedFor sid session provider.manifest.id snapshot

/-- The state of a provider still has the generation of a run, in the incarnation of the session
that the run was made for, and the context has not changed. -/
def IsCurrent (s : System) (run : Run) : Prop :=
  ∃ session state, s.broker.sessions.lookup run.request.sessionId = some session ∧
    session.sessionIncarnation = run.request.diagnosticSessionToken ∧
    session.providers.lookup run.provider.manifest.id = some state ∧
    state.generation = run.generation ∧
    session.contextRevision = run.request.contextRevision

/-- The snapshot that is stored for a provider in a session. -/
def snapshotOf (s : System) (sid id : String) : Option Snapshot :=
  (s.broker.sessions.lookup sid).bind fun session =>
    (session.providers.lookup id).bind (·.snapshot)

/-- The end of a run that is not current changes no snapshot. -/
def IgnoresStaleRuns (s : System) : Prop :=
  ∀ index run outcome, s.runs[index]? = some run → ¬ s.IsCurrent run →
    ∀ sid id, (s.step (.finish index outcome)).snapshotOf sid id = s.snapshotOf sid id

theorem Fresh.showsPresentDirectory (hf : s.Fresh) : s.ShowsPresentDirectory := by
  intro sid session provider state snapshot hs hp hgit hstate hsnapshot hholds
  refine hf.shown sid session _ state snapshot ?_ hs hstate hsnapshot hholds
  exact List.any_eq_true.mpr ⟨provider, hp, by simpa using hgit⟩

theorem ignoresStaleRuns (h : s.Inv) : s.IgnoresStaleRuns := by
  intro index run outcome hrun hstale sid id
  change (s.finishRun index outcome).snapshotOf sid id = s.snapshotOf sid id
  rcases finishRun_cases hrun outcome with ⟨disposition, -, -, -, heq, -⟩ |
    ⟨session, state, hs, hstate, hrunning, hgen, heq⟩
  · rw [heq]
    rfl
  · have hnot : Broker.judge session state run ≠ .accepted := by
      intro haccepted
      have hcurrent := Broker.judge_eq_accepted.mp haccepted
      exact hstale ⟨session, state, hs,
        (belongsTo_of_finished h hrun hs hstate hrunning hgen).2.1.symm, hstate, hcurrent⟩
    rw [heq, snapshotOf, lookup_finished]
    split_ifs with hsid
    · rw [Option.bind_some, lookup_finishedSession, snapshotOf, hsid, hs, Option.bind_some]
      split_ifs with hid
      · rw [Option.bind_some, snapshot_promote_endState, if_neg hnot, hid, hstate,
          Option.bind_some]
      · rfl
    · rfl

end System

/-- In every run of the broker, with its entry points, refreshes and ends of runs interleaved in
any way: what the git status shows of a directory was returned for the present one; a run that is
no longer current, or whose session was made again, changes no snapshot; and the number of an
incarnation of a session does not decrease, while two updates that were sent to one attachment for
one incarnation have different numbers, the later the higher. -/
theorem directory_never_stale (packageRoot : Path) (gitBinary : Option String) (processEpoch : ℕ)
    (builtIns : Catalog) (actions : List Action) :
    let s := (System.init packageRoot gitBinary processEpoch builtIns).run actions
    s.ShowsPresentDirectory ∧ s.IgnoresStaleRuns ∧
    (∀ later sid session session', s.broker.sessions.lookup sid = some session →
      (s.run later).broker.sessions.lookup sid = some session' →
      session'.sessionIncarnation = session.sessionIncarnation →
      session.updateSequence ≤ session'.updateSequence) ∧
    s.sent.Pairwise fun n n' => n.1 = n'.1 →
      n.2.sessionIncarnation = n'.2.sessionIncarnation →
      n.2.updateSequence < n'.2.updateSequence := by
  intro s
  have hinit := System.inv_init packageRoot gitBinary processEpoch builtIns
  have h : s.Inv := System.inv_run hinit actions
  have hnone : ∀ sid session, (System.init packageRoot gitBinary processEpoch
      builtIns).broker.sessions.lookup sid ≠ some session := fun sid session h => by cases h
  have hf : s.Fresh := System.fresh_run hinit
    ⟨fun sid session _ _ _ hs => absurd hs (hnone sid session),
      fun sid session _ _ _ _ hs => absurd hs (hnone sid session)⟩ actions
  have ho : s.Ordered := System.ordered_run hinit
    ⟨fun _ hn => absurd hn List.not_mem_nil, fun _ hn => absurd hn List.not_mem_nil,
      List.Pairwise.nil⟩ actions
  exact ⟨hf.showsPresentDirectory, System.ignoresStaleRuns h,
    fun later sid session session' => System.updateSequence_le_run h later, ho.pairwise⟩

end IntelligentTerminal.RichTab
