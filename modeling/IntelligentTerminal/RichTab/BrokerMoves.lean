import IntelligentTerminal.RichTab.Broker

/-!
# What the entry points of the broker do to sessions

Every entry point of the broker changes the state of a provider in one of two ways: it keeps
generation and parked request, or it gives the state a new generation and drops the request. A run
in progress stays in progress. `SessionState.Moves` says this of all states of a session,
`SessionState.DirectoryKept` that the git status follows the directory, and `Locked.Sound` of a
whole locked section, with what it sends.
-/

namespace IntelligentTerminal.RichTab

/-! ### Provider states -/

/-- What a locked section that neither starts nor ends a run does to the state of a provider, when
it takes its generations from `g` on and below `g'`. -/
structure ProviderState.Touched (g g' : ℕ) (state state' : ProviderState) : Prop where
  running : state'.running = state.running
  runningGeneration : state'.runningGeneration = state.runningGeneration
  parked : (state'.generation = state.generation ∧ state'.pending = state.pending) ∨
    (g ≤ state'.generation ∧ state'.generation < g' ∧ state'.pending = none)
  snapshot : state'.snapshot = state.snapshot ∨
    ∀ snapshot ∈ state'.snapshot, ¬ snapshot.HoldsDirectory

namespace ProviderState

variable {g g' g'' : ℕ} {state state' state'' : ProviderState}

theorem Touched.refl (g g' : ℕ) (state : ProviderState) : state.Touched g g' state :=
  ⟨rfl, rfl, .inl ⟨rfl, rfl⟩, .inl rfl⟩

theorem Touched.trans (h : state.Touched g g' state') (h' : state'.Touched g' g'' state'')
    (hle : g ≤ g') (hle' : g' ≤ g'') : state.Touched g g'' state'' where
  running := h'.running.trans h.running
  runningGeneration := h'.runningGeneration.trans h.runningGeneration
  parked := by
    rcases h'.parked with ⟨hg, hp⟩ | ⟨hlow, hhigh, hp⟩
    · rcases h.parked with ⟨hg', hp'⟩ | ⟨hlow, hhigh, hp'⟩
      · exact .inl ⟨hg.trans hg', hp.trans hp'⟩
      · exact .inr ⟨hg ▸ hlow, hg ▸ hhigh.trans_le hle', hp.trans hp'⟩
    · exact .inr ⟨hle.trans hlow, hhigh, hp⟩
  snapshot := by
    rcases h'.snapshot with hs | hs
    · rw [hs]
      exact h.snapshot
    · exact .inr hs

theorem Touched.widen (h : state.Touched g g' state') {k k' : ℕ} (hk : k ≤ g) (hk' : g' ≤ k') :
    state.Touched k k' state' where
  running := h.running
  runningGeneration := h.runningGeneration
  parked := h.parked.imp_right fun ⟨hlow, hhigh, hp⟩ => ⟨hk.trans hlow, hhigh.trans_le hk', hp⟩
  snapshot := h.snapshot

theorem touched_invalidate (state : ProviderState) (g : ℕ) :
    state.Touched g (g + 1) (state.invalidate g) :=
  ⟨rfl, rfl, .inr ⟨le_rfl, Nat.lt_succ_self g, rfl⟩, .inl rfl⟩

theorem not_holdsDirectory_invalidateDirectory (state : ProviderState) (g : ℕ) :
    ∀ snapshot ∈ (state.invalidateDirectory g).snapshot, ¬ snapshot.HoldsDirectory := by
  intro snapshot h
  obtain ⟨old, -, rfl⟩ := Option.mem_map.mp h
  exact Snapshot.not_holdsDirectory_clear old

theorem touched_invalidateDirectory (state : ProviderState) (g : ℕ) :
    state.Touched g (g + 1) (state.invalidateDirectory g) :=
  ⟨rfl, rfl, .inr ⟨le_rfl, Nat.lt_succ_self g, rfl⟩,
    .inr (not_holdsDirectory_invalidateDirectory state g)⟩

theorem touched_reset (state : ProviderState) (g : ℕ) :
    state.Touched g (g + 1) (state.reset g) :=
  ⟨rfl, rfl, .inr ⟨le_rfl, Nat.lt_succ_self g, rfl⟩, .inr fun _ h => absurd h (by simp [reset])⟩

end ProviderState

/-! ### Sessions -/

/-- What a provider may be shown to have found for. -/
structure Directory where
  workingDirectory : Path
  workingDirectoryAuthoritative : Bool
  shellType : Option String
  agentActive : Bool
  agentWorkingDirectory : Option String
  deriving DecidableEq, Repr

def SessionState.directory (session : SessionState) : Directory where
  workingDirectory := session.context.workingDirectory
  workingDirectoryAuthoritative := session.context.workingDirectoryAuthoritative
  shellType := session.context.shellType
  agentActive := session.agentActive
  agentWorkingDirectory := session.agentWorkingDirectory

/-- What a locked section that neither starts nor ends a run does to a session. -/
structure SessionState.Moves (g g' : ℕ) (session session' : SessionState) : Prop where
  le : g ≤ g'
  sessionId : session'.context.sessionId = session.context.sessionId
  sessionIncarnation : session'.sessionIncarnation = session.sessionIncarnation
  contextRevision : session.contextRevision ≤ session'.contextRevision
  updateSequence : session.updateSequence ≤ session'.updateSequence
  touched : ∀ id state', session'.providers.lookup id = some state' →
    ∃ state, session.providers.lookup id = some state ∧ state.Touched g g' state'

/-- The states of the git status are new, and show nothing of a directory. -/
def SessionState.Cleared (isGit : String → Bool) (g : ℕ) (session : SessionState) : Prop :=
  ∀ id state, isGit id → session.providers.lookup id = some state →
    g ≤ state.generation ∧ ∀ snapshot ∈ state.snapshot, ¬ snapshot.HoldsDirectory

/-- The directory is the same, or the git status has been cleared. -/
def SessionState.DirectoryKept (isGit : String → Bool) (g : ℕ) (session session' : SessionState) :
    Prop :=
  session'.directory = session.directory ∨ session'.Cleared isGit g

namespace SessionState

variable {g g' g'' : ℕ} {session session' session'' : SessionState} {isGit : String → Bool}

theorem Moves.refl (g : ℕ) (session : SessionState) : session.Moves g g session :=
  ⟨le_rfl, rfl, rfl, le_rfl, le_rfl, fun _ state h => ⟨state, h, .refl g g state⟩⟩

theorem Moves.trans (h : session.Moves g g' session') (h' : session'.Moves g' g'' session'') :
    session.Moves g g'' session'' where
  le := h.le.trans h'.le
  sessionId := h'.sessionId.trans h.sessionId
  sessionIncarnation := h'.sessionIncarnation.trans h.sessionIncarnation
  contextRevision := h.contextRevision.trans h'.contextRevision
  updateSequence := h.updateSequence.trans h'.updateSequence
  touched := by
    intro id state'' hstate''
    obtain ⟨state', hstate', ht'⟩ := h'.touched id state'' hstate''
    obtain ⟨state, hstate, ht⟩ := h.touched id state' hstate'
    exact ⟨state, hstate, ht.trans ht' h.le h'.le⟩

theorem Moves.widen (h : session.Moves g g' session') {k k' : ℕ} (hk : k ≤ g) (hk' : g' ≤ k') :
    session.Moves k k' session' where
  le := hk.trans (h.le.trans hk')
  sessionId := h.sessionId
  sessionIncarnation := h.sessionIncarnation
  contextRevision := h.contextRevision
  updateSequence := h.updateSequence
  touched := by
    intro id state' hstate'
    obtain ⟨state, hstate, ht⟩ := h.touched id state' hstate'
    exact ⟨state, hstate, ht.widen hk hk'⟩

theorem Moves.of_providers_eq (hid : session'.context.sessionId = session.context.sessionId)
    (hinc : session'.sessionIncarnation = session.sessionIncarnation)
    (hrev : session.contextRevision ≤ session'.contextRevision)
    (hseq : session.updateSequence ≤ session'.updateSequence)
    (hp : session'.providers = session.providers) : session.Moves g g session' :=
  ⟨le_rfl, hid, hinc, hrev, hseq, fun _ state h => ⟨state, hp ▸ h, .refl g g state⟩⟩

theorem Moves.generation_lt (h : session.Moves g g' session')
    (hlt : ∀ id state, session.providers.lookup id = some state → state.generation < g) :
    ∀ id state, session'.providers.lookup id = some state → state.generation < g' := by
  intro id state' hstate'
  obtain ⟨state, hstate, ht⟩ := h.touched id state' hstate'
  rcases ht.parked with ⟨hg, -⟩ | ⟨-, hhigh, -⟩
  · exact hg.symm ▸ (hlt id state hstate).trans_le h.le
  · exact hhigh

theorem Cleared.moves (hc : session.Cleared isGit g) (h : session.Moves g' g'' session')
    (hle : g ≤ g') : session'.Cleared isGit g := by
  intro id state' hgit hstate'
  obtain ⟨state, hstate, ht⟩ := h.touched id state' hstate'
  obtain ⟨hg, hsnap⟩ := hc id state hgit hstate
  constructor
  · rcases ht.parked with ⟨hg', -⟩ | ⟨hlow, -⟩
    · exact hg'.symm ▸ hg
    · exact hle.trans hlow
  · rcases ht.snapshot with hs | hs
    · exact hs.symm ▸ hsnap
    · exact hs

theorem DirectoryKept.trans (hk : session.DirectoryKept isGit g session')
    (hm : session'.Moves g' g'' session'') (hk' : session'.DirectoryKept isGit g' session'')
    (hle : g ≤ g') : session.DirectoryKept isGit g session'' := by
  rcases hk' with hd | hc
  · rcases hk with hd' | hc
    · exact .inl (hd.trans hd')
    · exact .inr (hc.moves hm hle)
  · exact .inr fun id state hgit hstate =>
      ⟨hle.trans (hc id state hgit hstate).1, (hc id state hgit hstate).2⟩

/-! ### Loops over the provider states -/

variable {chosen : String → Bool} {change : ProviderState → ℕ → ProviderState}
  {isGit : String → Bool} {session : SessionState}

theorem le_renumber (session : SessionState) (g : ℕ) :
    g ≤ (session.renumber chosen change g).2 := by
  refine Table.le_mapAccum (fun next id state => ?_) _ _
  split_ifs
  · exact Nat.le_succ next
  · exact le_rfl

theorem renumber_lookup (chosen : String → Bool) (change : ProviderState → ℕ → ProviderState)
    (session : SessionState) (g : ℕ) (id : String) :
    ∃ k, g ≤ k ∧
      (chosen id → ∀ state, session.providers.lookup id = some state →
        k < (session.renumber chosen change g).2) ∧
      (session.renumber chosen change g).1.providers.lookup id =
        (session.providers.lookup id).map fun state => if chosen id then change state k else state
    := by
  have hle : ∀ next id state, next ≤ ((fun next id state => if chosen id = true then
      (change state next, next + 1) else (state, next)) next id state : ProviderState × ℕ).2 := by
    intro next id state
    dsimp only
    split_ifs
    · exact Nat.le_succ next
    · exact le_rfl
  obtain ⟨k, hk, hlast, heq⟩ := Table.lookup_mapAccum hle session.providers g id
  refine ⟨k, hk, fun hchosen state hstate => ?_, ?_⟩
  · have := hlast state hstate
    simp only [hchosen, if_true] at this
    exact this
  · refine heq.trans ?_
    congr 1
    funext state
    split_ifs <;> rfl

theorem moves_renumber (hchange : ∀ (state : ProviderState) k, state.Touched k (k + 1) (change state k))
    (session : SessionState) (g : ℕ) :
    session.Moves g (session.renumber chosen change g).2 (session.renumber chosen change g).1 where
  le := le_renumber session g
  sessionId := rfl
  sessionIncarnation := rfl
  contextRevision := le_rfl
  updateSequence := le_rfl
  touched := by
    intro id state' hstate'
    obtain ⟨k, hk, hlt, heq⟩ := renumber_lookup chosen change session g id
    rw [heq, Option.map_eq_some_iff] at hstate'
    obtain ⟨state, hstate, rfl⟩ := hstate'
    refine ⟨state, hstate, ?_⟩
    split_ifs with hchosen
    · exact (hchange state k).widen hk (hlt hchosen state hstate)
    · exact .refl _ _ _

theorem moves_invalidateProviders (session : SessionState) (g : ℕ) :
    session.Moves g (session.invalidateProviders g).2 (session.invalidateProviders g).1 :=
  moves_renumber ProviderState.touched_invalidate session g

theorem moves_invalidateGitStatus (isGit : String → Bool) (session : SessionState) (g : ℕ) :
    session.Moves g (session.invalidateGitStatusWorkingDirectory isGit g).2
      (session.invalidateGitStatusWorkingDirectory isGit g).1 :=
  moves_renumber ProviderState.touched_invalidateDirectory session g

theorem cleared_invalidateGitStatus (isGit : String → Bool) (session : SessionState) (g : ℕ) :
    (session.invalidateGitStatusWorkingDirectory isGit g).1.Cleared isGit g := by
  intro id state' hgit hstate'
  obtain ⟨k, hk, -, heq⟩ := renumber_lookup isGit ProviderState.invalidateDirectory
    session g id
  rw [invalidateGitStatusWorkingDirectory, heq, Option.map_eq_some_iff] at hstate'
  obtain ⟨state, -, rfl⟩ := hstate'
  rw [if_pos hgit]
  exact ⟨hk, ProviderState.not_holdsDirectory_invalidateDirectory state k⟩

theorem moves_recompute (isGit : String → Bool) (session : SessionState) (g : ℕ) :
    session.Moves g (session.recomputeAgentWorkingDirectory isGit g).2.1
      (session.recomputeAgentWorkingDirectory isGit g).1 := by
  unfold recomputeAgentWorkingDirectory
  split_ifs
  · exact .refl g session
  · have hm := moves_invalidateGitStatus isGit
      { session with
        agentActive := session.hasAgent
        agentWorkingDirectory := session.agentDirectory
        updateSequence := session.updateSequence + 1 } g
    exact ⟨hm.le, hm.sessionId, hm.sessionIncarnation, hm.contextRevision,
      (Nat.le_succ _).trans hm.updateSequence, hm.touched⟩

theorem directoryKept_recompute (isGit : String → Bool) (session : SessionState) (g : ℕ) :
    session.DirectoryKept isGit g (session.recomputeAgentWorkingDirectory isGit g).1 := by
  unfold recomputeAgentWorkingDirectory
  split_ifs
  · exact .inl rfl
  · exact .inr (cleared_invalidateGitStatus isGit _ g)

@[simp] theorem callbacks_recompute (isGit : String → Bool) (session : SessionState) (g : ℕ) :
    (session.recomputeAgentWorkingDirectory isGit g).1.callbacks = session.callbacks := by
  unfold recomputeAgentWorkingDirectory
  split_ifs <;> rfl

theorem updateSequence_recompute {g : ℕ}
    (h : (session.recomputeAgentWorkingDirectory isGit g).2.2 = true) :
    session.updateSequence < (session.recomputeAgentWorkingDirectory isGit g).1.updateSequence := by
  unfold recomputeAgentWorkingDirectory at h ⊢
  split_ifs at h ⊢
  exact Nat.lt_succ_self _

theorem recompute_of_not {g : ℕ}
    (h : ¬ (session.recomputeAgentWorkingDirectory isGit g).2.2 = true) :
    session.recomputeAgentWorkingDirectory isGit g = (session, g, false) := by
  unfold recomputeAgentWorkingDirectory at h ⊢
  split_ifs at h ⊢
  · rfl
  · exact absurd rfl h

theorem Moves.nextUpdate (h : session.Moves g g' session') : session.Moves g g' session'.nextUpdate
    := ⟨h.le, h.sessionId, h.sessionIncarnation, h.contextRevision,
      h.updateSequence.trans (Nat.le_succ _), h.touched⟩

theorem moves_abandon (isGit : String → Bool) (session : SessionState) (now : Time) (g : ℕ) :
    session.Moves g (session.abandon isGit now g).2 (session.abandon isGit now g).1 := by
  have hclear : session.Moves g g session.clearAgents :=
    .of_providers_eq rfl rfl le_rfl le_rfl rfl
  have hall := moves_invalidateProviders session.clearAgents g
  have hgit := moves_invalidateGitStatus isGit (session.clearAgents.invalidateProviders g).1
    (session.clearAgents.invalidateProviders g).2
  have hmoves := (hclear.trans (hall.trans hgit)).nextUpdate
  exact ⟨hmoves.le, hmoves.sessionId, hmoves.sessionIncarnation, hmoves.contextRevision,
    hmoves.updateSequence, hmoves.touched⟩

theorem cleared_abandon (isGit : String → Bool) (session : SessionState) (now : Time) (g : ℕ) :
    (session.abandon isGit now g).1.Cleared isGit g := by
  intro id state hgit hstate
  have hc := cleared_invalidateGitStatus isGit (session.clearAgents.invalidateProviders g).1
    (session.clearAgents.invalidateProviders g).2 id state hgit hstate
  exact ⟨(moves_invalidateProviders session.clearAgents g).le.trans hc.1, hc.2⟩

end SessionState

/-! ### Brokers -/

/-- What holds of a broker between two locked sections. -/
structure Broker.Wf (b : Broker) : Prop where
  sessionId : ∀ sid session, b.sessions.lookup sid = some session →
    session.context.sessionId = sid ∧ sid ≠ ""
  sessionIncarnation : ∀ sid session, b.sessions.lookup sid = some session →
    session.sessionIncarnation < b.nextSessionIncarnation
  generation : ∀ sid session id state, b.sessions.lookup sid = some session →
    session.providers.lookup id = some state → state.generation < b.nextGeneration
  attached : ∀ sid session, b.sessions.lookup sid = some session →
    ∀ a ∈ session.callbacks, b.attachmentSessions.lookup a = some sid
  nodup : ∀ sid session, b.sessions.lookup sid = some session → session.callbacks.Nodup
  fresh : ∀ a sid, b.attachmentSessions.lookup a = some sid → a < b.nextAttachment

/-- Where a session comes from: it has moved, or it is new. -/
def Broker.Origin (b b' : Broker) (sid : String) (session' : SessionState) : Prop :=
  (∃ session, b.sessions.lookup sid = some session ∧
    session.Moves b.nextGeneration b'.nextGeneration session' ∧
    session.DirectoryKept b'.isGitStatus b.nextGeneration session' ∧
    ∀ a ∈ session'.callbacks, a ∈ session.callbacks ∨ b.nextAttachment ≤ a) ∨
  (b.nextSessionIncarnation ≤ session'.sessionIncarnation ∧
    ∀ id, session'.providers.lookup id = none)

/-- The providers are the same, or the states of all providers are new and show nothing. -/
def Broker.CatalogKept (b b' : Broker) : Prop :=
  (b'.packageRoot = b.packageRoot ∧ b'.providers = b.providers) ∨
  ∀ sid session' id state', b'.sessions.lookup sid = some session' →
    session'.providers.lookup id = some state' →
    b.nextGeneration ≤ state'.generation ∧ state'.snapshot = none

/-- What a locked section of an entry point does. An update that it sends to an attachment shows a
session it leaves; unless the attachment is new, it has a higher number than before. -/
structure Locked.Sound (b : Broker) (out : Locked) : Prop where
  wf : out.broker.Wf
  nextGeneration : b.nextGeneration ≤ out.broker.nextGeneration
  nextSessionIncarnation : b.nextSessionIncarnation ≤ out.broker.nextSessionIncarnation
  nextAttachment : b.nextAttachment ≤ out.broker.nextAttachment
  catalog : b.CatalogKept out.broker
  origin : ∀ sid session', out.broker.sessions.lookup sid = some session' →
    b.Origin out.broker sid session'
  sends : ∀ n ∈ out.notifications, ∃ sid session',
    out.broker.sessions.lookup sid = some session' ∧ n.1 ∈ session'.callbacks ∧
    n.2.sessionIncarnation = session'.sessionIncarnation ∧
    n.2.updateSequence = session'.updateSequence ∧
    (b.nextAttachment ≤ n.1 ∨ ∀ session, b.sessions.lookup sid = some session →
      session.sessionIncarnation = session'.sessionIncarnation →
      session.updateSequence < session'.updateSequence)
  nodup : (out.notifications.map Prod.fst).Nodup

namespace Broker

variable {b : Broker} {sid : String} {session session' : SessionState} {g : ℕ}

theorem origin_self {b' : Broker} (h : b.sessions.lookup sid = some session)
    (hg : b.nextGeneration ≤ b'.nextGeneration) : b.Origin b' sid session := by
  refine .inl ⟨session, h, ⟨hg, rfl, rfl, le_rfl, le_rfl, fun _ state hs =>
    ⟨state, hs, .refl _ _ state⟩⟩, .inl rfl, fun a ha => .inl ha⟩

theorem sound_self (hb : b.Wf) (refreshes : List RefreshCall) :
    Locked.Sound b { broker := b, refreshes } where
  wf := hb
  nextGeneration := le_rfl
  nextSessionIncarnation := le_rfl
  nextAttachment := le_rfl
  catalog := .inl ⟨rfl, rfl⟩
  origin := fun _ _ h => origin_self h le_rfl
  sends := fun _ h => absurd h List.not_mem_nil
  nodup := List.nodup_nil

@[simp] theorem map_fst_notificationsFor (b : Broker) (sid : String) (session : SessionState)
    (diagnostics : List String) :
    (b.notificationsFor sid session diagnostics).map Prod.fst = session.callbacks := by
  rw [notificationsFor, List.map_map]
  exact List.map_id _

theorem mem_notificationsFor {diagnostics : List String} {n : AttachmentId × BrokerUpdate}
    (h : n ∈ b.notificationsFor sid session diagnostics) : n.1 ∈ session.callbacks ∧
      n.2.sessionIncarnation = session.sessionIncarnation ∧
      n.2.updateSequence = session.updateSequence := by
  obtain ⟨a, ha, rfl⟩ := List.mem_map.mp h
  exact ⟨ha, rfl, rfl⟩

theorem lookup_store (b : Broker) (sid sid' : String) (session : SessionState) (g : ℕ) :
    (b.store sid session g).sessions.lookup sid' =
      if sid' = sid then some session else b.sessions.lookup sid' :=
  Table.lookup_insert_eq _ _ _ _

theorem forall_store {P : String → SessionState → Prop}
    (h : ∀ sid' session'', b.sessions.lookup sid' = some session'' → P sid' session'')
    (hs : P sid session') : ∀ sid' session'',
      (b.store sid session' g).sessions.lookup sid' = some session'' → P sid' session'' := by
  intro sid' session'' hlookup
  rw [lookup_store] at hlookup
  split_ifs at hlookup with heq
  · obtain rfl : session' = session'' := Option.some.inj hlookup
    exact heq ▸ hs
  · exact h sid' session'' hlookup

theorem wf_store (hb : b.Wf) (hs : b.sessions.lookup sid = some session)
    (hm : session.Moves b.nextGeneration g session')
    (hcb : session'.callbacks.Sublist session.callbacks) : (b.store sid session' g).Wf where
  sessionId := forall_store hb.sessionId
    ⟨hm.sessionId.trans (hb.sessionId _ _ hs).1, (hb.sessionId _ _ hs).2⟩
  sessionIncarnation := forall_store hb.sessionIncarnation
    (hm.sessionIncarnation.symm ▸ hb.sessionIncarnation _ _ hs)
  generation := by
    have hold : ∀ sid' session'', b.sessions.lookup sid' = some session'' →
        ∀ id state, session''.providers.lookup id = some state → state.generation < g :=
      fun sid' session'' h id state hstate =>
        (hb.generation sid' session'' id state h hstate).trans_le hm.le
    have hnew := hm.generation_lt fun id state => hb.generation _ _ id state hs
    exact fun sid' session'' id state h => forall_store hold hnew sid' session'' h id state
  attached := forall_store hb.attached fun a ha => hb.attached _ _ hs a (hcb.subset ha)
  nodup := forall_store hb.nodup ((hb.nodup _ _ hs).sublist hcb)
  fresh := hb.fresh

theorem sound_store (hb : b.Wf) (hs : b.sessions.lookup sid = some session)
    (hm : session.Moves b.nextGeneration g session')
    (hk : session.DirectoryKept b.isGitStatus b.nextGeneration session')
    (hcb : session'.callbacks.Sublist session.callbacks)
    {notifications : List (AttachmentId × BrokerUpdate)}
    (hn : notifications = [] ∨ ∃ sid', notifications = b.notificationsFor sid' session' [] ∧
      session.updateSequence < session'.updateSequence) (refreshes : List RefreshCall) :
    Locked.Sound b { broker := b.store sid session' g, notifications, refreshes } where
  wf := wf_store hb hs hm hcb
  nextGeneration := hm.le
  nextSessionIncarnation := le_rfl
  nextAttachment := le_rfl
  catalog := .inl ⟨rfl, rfl⟩
  origin := forall_store (fun _ _ h => origin_self h hm.le)
    (.inl ⟨session, hs, hm, hk, fun _ ha => .inl (hcb.subset ha)⟩)
  sends := by
    rcases hn with rfl | ⟨sid', rfl, hlt⟩
    · exact fun _ h => absurd h List.not_mem_nil
    · intro n hmem
      obtain ⟨ha, hinc, hseq⟩ := mem_notificationsFor hmem
      refine ⟨sid, session', AList.lookup_insert _, ha, hinc, hseq, .inr fun old hold _ => ?_⟩
      obtain rfl : session = old := Option.some.inj (hs.symm.trans hold)
      exact hlt
  nodup := by
    rcases hn with rfl | ⟨sid', rfl, -⟩
    · exact List.nodup_nil
    · rw [map_fst_notificationsFor]
      exact (hb.nodup _ _ hs).sublist hcb

end Broker

end IntelligentTerminal.RichTab
