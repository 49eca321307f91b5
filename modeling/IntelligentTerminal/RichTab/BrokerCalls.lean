import IntelligentTerminal.RichTab.BrokerMoves

/-!
# The entry points of the broker are sound

Each entry point of the broker is shown to be `Locked.Sound`: whatever the broker was, sessions
move, the git status follows the directory, and updates are sent with higher numbers.
-/

namespace IntelligentTerminal.RichTab

namespace Broker

variable {b : Broker} {sid : String} {session session' : SessionState} {g : ℕ}
  {out : Locked} {now : Time}
  {change : SessionState → ℕ → SessionState × ℕ} {context : SessionContext} {a : AttachmentId}

/-! ### All sessions -/

theorem nextGeneration_le_changeSessions
    (hm : ∀ (session : SessionState) g, session.Moves g (change session g).2 (change session g).1)
    (b : Broker) : b.nextGeneration ≤ (b.changeSessions change).nextGeneration :=
  Table.le_mapAccum (fun next _ session => (hm session next).le) _ _

theorem changeSessions_lookup
    (hm : ∀ (session : SessionState) g, session.Moves g (change session g).2 (change session g).1)
    (h : (b.changeSessions change).sessions.lookup sid = some session') :
    ∃ session k, b.sessions.lookup sid = some session ∧ b.nextGeneration ≤ k ∧
      session' = (change session k).1 ∧ session.Moves b.nextGeneration (b.changeSessions change).nextGeneration session' := by
  obtain ⟨k, hk, hlast, heq⟩ := Table.lookup_mapAccum
    (fun next _ session => (hm session next).le) b.sessions b.nextGeneration sid
  obtain ⟨session, hs, rfl⟩ := Option.map_eq_some_iff.mp (heq.symm.trans h)
  exact ⟨session, k, hs, hk, rfl, (hm session k).widen hk (hlast session hs)⟩

theorem mem_notificationsForAll {n : AttachmentId × BrokerUpdate} (h : n ∈ b.notificationsForAll) :
    ∃ sid session, b.sessions.lookup sid = some session ∧
      n ∈ b.notificationsFor sid session [] := by
  obtain ⟨⟨sid, session⟩, hmem, hn⟩ := List.mem_flatMap.mp h
  exact ⟨sid, session, AList.mem_lookup_iff.mpr hmem, hn⟩

theorem Wf.nodup_notificationsForAll (hb : b.Wf) : (b.notificationsForAll.map Prod.fst).Nodup := by
  rw [notificationsForAll, List.map_flatMap, List.nodup_flatMap]
  constructor
  · rintro ⟨sid, session⟩ hmem
    rw [map_fst_notificationsFor]
    exact hb.nodup sid session (AList.mem_lookup_iff.mpr hmem)
  · refine (List.nodupKeys_iff_pairwise.mp b.sessions.nodupKeys).imp_of_mem ?_
    rintro ⟨sid, session⟩ ⟨sid', session'⟩ hmem hmem' hne a ha ha'
    simp only [map_fst_notificationsFor] at ha ha'
    have h := hb.attached sid session (AList.mem_lookup_iff.mpr hmem) a ha
    have h' := hb.attached sid' session' (AList.mem_lookup_iff.mpr hmem') a ha'
    exact hne (Option.some.inj (h.symm.trans h'))

section ChangeSessions

variable {change : SessionState → ℕ → SessionState × ℕ}
  (hm : ∀ (session : SessionState) g, session.Moves g (change session g).2 (change session g).1)
  (hcb : ∀ session g, (change session g).1.callbacks = session.callbacks)

include hm hcb in
theorem wf_changeSessions (hb : b.Wf) : (b.changeSessions change).Wf where
  sessionId := by
    intro sid session' h
    obtain ⟨session, k, hs, -, -, hmoves⟩ := changeSessions_lookup hm h
    exact hmoves.sessionId.symm ▸ hb.sessionId sid session hs
  sessionIncarnation := by
    intro sid session' h
    obtain ⟨session, k, hs, -, -, hmoves⟩ := changeSessions_lookup hm h
    exact hmoves.sessionIncarnation.symm ▸ hb.sessionIncarnation sid session hs
  generation := by
    intro sid session' id state' h hstate'
    obtain ⟨session, k, hs, -, -, hmoves⟩ := changeSessions_lookup hm h
    exact hmoves.generation_lt (fun id state => hb.generation sid session id state hs) id state'
      hstate'
  attached := by
    intro sid session' h a ha
    obtain ⟨session, k, hs, -, rfl, -⟩ := changeSessions_lookup hm h
    rw [hcb] at ha
    exact hb.attached sid session hs a ha
  nodup := by
    intro sid session' h
    obtain ⟨session, k, hs, -, rfl, -⟩ := changeSessions_lookup hm h
    exact (hcb session k).symm ▸ hb.nodup sid session hs
  fresh := hb.fresh

include hm hcb in
theorem sound_changeSessions (hb : b.Wf)
    (hd : ∀ session g, (change session g).1.directory = session.directory)
    (hseq : ∀ session g, session.updateSequence < (change session g).1.updateSequence)
    {providers : Catalog} (hp : providers = b.providers ∨ ∀ session g id state,
      (change session g).1.providers.lookup id = some state →
      g ≤ state.generation ∧ state.snapshot = none)
    (visibleFields : VisibleFieldMap) (fieldDisplayNames : FieldDisplayNameMap) (refreshes : List RefreshCall) :
    let b' := ({ b with providers, visibleFields, fieldDisplayNames } : Broker).changeSessions change
    Locked.Sound b { broker := b', notifications := b'.notificationsForAll, refreshes } := by
  intro b'
  have hb' : ({ b with providers, visibleFields, fieldDisplayNames } : Broker).Wf :=
    ⟨hb.sessionId, hb.sessionIncarnation, hb.generation, hb.attached, hb.nodup, hb.fresh⟩
  have hwf : b'.Wf := wf_changeSessions hm hcb hb'
  refine ⟨hwf, nextGeneration_le_changeSessions hm _, le_rfl, le_rfl, ?_, ?_, ?_,
    hwf.nodup_notificationsForAll⟩
  · rcases hp with heq | hnew
    · exact .inl ⟨rfl, heq⟩
    · refine .inr fun sid session' id state' h hstate' => ?_
      obtain ⟨session, k, -, hk, rfl, -⟩ := changeSessions_lookup hm h
      exact ⟨hk.trans (hnew session k id state' hstate').1, (hnew session k id state' hstate').2⟩
  · intro sid session' h
    obtain ⟨session, k, hs, -, rfl, hmoves⟩ := changeSessions_lookup hm h
    exact .inl ⟨session, hs, hmoves, .inl (hd session k), fun a ha => .inl (hcb session k ▸ ha)⟩
  · intro n hn
    obtain ⟨sid, session', h, hn'⟩ := mem_notificationsForAll hn
    obtain ⟨ha, hinc, hnseq⟩ := mem_notificationsFor hn'
    refine ⟨sid, session', h, ha, hinc, hnseq, .inr fun session hs _ => ?_⟩
    obtain ⟨old, k, hold, -, rfl, -⟩ := changeSessions_lookup hm h
    obtain rfl : session = old := Option.some.inj (hs.symm.trans hold)
    exact hseq session k

end ChangeSessions

theorem moves_keepProviders (session : SessionState) (catalog : Catalog) (g : ℕ) :
    session.Moves g g (session.keepProviders catalog) := by
  refine ⟨le_rfl, rfl, rfl, le_rfl, le_rfl, fun id state h => ?_⟩
  have hkeep := (Table.lookup_keep session.providers _ id).symm.trans h
  exact ⟨state, (Option.filter_eq_some_iff.mp hkeep).1, .refl g g state⟩

theorem sound_reloadProviders (hb : b.Wf) (builtIns : Catalog) :
    Locked.Sound b (b.reloadProviders builtIns) := by
  refine sound_changeSessions ?_ (fun _ _ => rfl) hb (fun _ _ => rfl)
    (fun _ _ => Nat.lt_succ_self _) (.inr ?_) b.visibleFields b.fieldDisplayNames []
  · intro session g
    exact ((moves_keepProviders session _ g).trans
      (SessionState.moves_renumber ProviderState.touched_reset _ g)).nextUpdate
  · intro session g id state' h
    obtain ⟨k, hk, -, heq⟩ := SessionState.renumber_lookup (fun _ => true) ProviderState.reset
      (session.keepProviders builtIns.sorted) g id
    obtain ⟨state, -, rfl⟩ := Option.map_eq_some_iff.mp (heq.symm.trans h)
    exact ⟨hk, rfl⟩

theorem moves_afterSelection (b : Broker) (provider : Registration) (session : SessionState)
    (g : ℕ) : session.Moves g (b.afterSelection provider session g).2
      (b.afterSelection provider session g).1 := by
  unfold afterSelection
  split_ifs
  · exact (SessionState.moves_renumber ProviderState.touched_reset session g).nextUpdate
  · exact (SessionState.Moves.refl g session).nextUpdate

@[simp] theorem callbacks_afterSelection (b : Broker) (provider : Registration)
    (session : SessionState) (g : ℕ) :
    (b.afterSelection provider session g).1.callbacks = session.callbacks := by
  unfold afterSelection
  split_ifs <;> rfl

@[simp] theorem directory_afterSelection (b : Broker) (provider : Registration)
    (session : SessionState) (g : ℕ) :
    (b.afterSelection provider session g).1.directory = session.directory := by
  unfold afterSelection
  split_ifs <;> rfl

@[simp] theorem updateSequence_afterSelection (b : Broker) (provider : Registration)
    (session : SessionState) (g : ℕ) :
    (b.afterSelection provider session g).1.updateSequence = session.updateSequence + 1 := by
  unfold afterSelection
  split_ifs <;> rfl

theorem sound_setVisibleFields (hb : b.Wf) (providerId : String) (fields : List String) :
    Locked.Sound b (b.setVisibleFields providerId fields) := by
  unfold setVisibleFields
  split
  · exact sound_self hb []
  · dsimp only
    split_ifs
    · exact sound_self hb []
    · exact sound_changeSessions (moves_afterSelection _ _) (callbacks_afterSelection _ _) hb
        (directory_afterSelection _ _) (fun _ _ => by simp) (.inl rfl) _ b.fieldDisplayNames _

theorem sound_setFieldDisplayNames (hb : b.Wf) (providerId : String)
    (displayNames : Table String String) :
    Locked.Sound b (b.setFieldDisplayNames providerId displayNames) := by
  unfold setFieldDisplayNames
  split
  · exact sound_self hb []
  · dsimp only
    split_ifs
    · exact sound_self hb []
    · exact sound_changeSessions (fun session g => (SessionState.Moves.refl g session).nextUpdate)
        (fun _ _ => rfl) hb (fun _ _ => rfl) (fun _ _ => Nat.lt_succ_self _) (.inl rfl)
        b.visibleFields _ []

/-! ### The session of an attachment -/

theorem sessionOf_eq_some (h : b.sessionOf a = some (sid, session)) :
    b.attachmentSessions.lookup a = some sid ∧ b.sessions.lookup sid = some session := by
  obtain ⟨sid', ha, hs⟩ := Option.bind_eq_some_iff.mp h
  obtain ⟨session', hs', heq⟩ := Option.map_eq_some_iff.mp hs
  obtain ⟨rfl, rfl⟩ := Prod.mk.inj heq
  exact ⟨ha, hs'⟩

theorem sound_setVisibleFieldsFor (hb : b.Wf) (a : AttachmentId) (providerId : String)
    (fields : List String) : Locked.Sound b (b.setVisibleFieldsFor a providerId fields) := by
  unfold setVisibleFieldsFor
  split
  · split
    · exact sound_self hb []
    · rename_i session hs
      dsimp only
      split_ifs
      · exact sound_self hb []
      · have hm : ∀ fields, session.Moves b.nextGeneration b.nextGeneration
            (session.selectFields a fields) :=
          fun _ => .of_providers_eq rfl rfl le_rfl le_rfl rfl
        refine sound_store hb hs ((hm _).trans (moves_afterSelection b _ _ _))
          (.inl (directory_afterSelection b _ _ _)) ?_ (.inr ⟨_, rfl, ?_⟩) _
        · rw [callbacks_afterSelection]
          exact List.Sublist.refl _
        · rw [updateSequence_afterSelection]
          exact Nat.lt_succ_self _
  · exact sound_self hb []

theorem sound_updateContext (hb : b.Wf) (a : AttachmentId) (workingDirectory : Path)
    (authoritative : Bool) (shellType : Option String) :
    Locked.Sound b (b.updateContext a workingDirectory authoritative shellType) := by
  unfold updateContext
  split
  · exact sound_self hb []
  · rename_i sid session hs
    dsimp only
    split_ifs
    · exact sound_self hb []
    · have hm : session.Moves b.nextGeneration b.nextGeneration
          (session.setContext workingDirectory authoritative shellType).nextUpdate :=
        .of_providers_eq rfl rfl (Nat.le_succ _) (Nat.le_succ _) rfl
      have hgit := SessionState.moves_invalidateGitStatus b.isGitStatus
        (session.setContext workingDirectory authoritative shellType).nextUpdate b.nextGeneration
      exact sound_store hb (sessionOf_eq_some hs).2 (hm.trans hgit)
        (.inr (SessionState.cleared_invalidateGitStatus _ _ _)) (List.Sublist.refl _)
        (.inr ⟨_, rfl, (Nat.lt_succ_self _).trans_le hgit.updateSequence⟩) _

theorem sound_updateFirstPartyFields (hb : b.Wf) (a : AttachmentId)
    (fields : Table String String) : Locked.Sound b (b.updateFirstPartyFields a fields) := by
  unfold updateFirstPartyFields
  split
  · exact sound_self hb []
  · rename_i sid session hs
    dsimp only
    split_ifs
    · exact sound_self hb []
    · have hm : session.Moves b.nextGeneration b.nextGeneration
          { session with
            context := { session.context with firstPartyFields := fields }
            contextRevision := session.contextRevision + 1 } :=
        .of_providers_eq rfl rfl (Nat.le_succ _) le_rfl rfl
      exact sound_store hb (sessionOf_eq_some hs).2
        (hm.trans (SessionState.moves_invalidateProviders _ _)).nextUpdate (.inl rfl)
        (List.Sublist.refl _) (.inr ⟨_, rfl, Nat.lt_succ_self _⟩) _

theorem sound_updateAgentWorkingDirectory (hb : b.Wf) (a : AttachmentId) (agentActive : Bool)
    (workingDirectory : Option String) :
    Locked.Sound b (b.updateAgentWorkingDirectory a agentActive workingDirectory) := by
  unfold updateAgentWorkingDirectory
  split
  · exact sound_self hb []
  · rename_i sid session hs
    have hm : session.Moves b.nextGeneration b.nextGeneration
        (session.setActiveAgent a agentActive workingDirectory) :=
      .of_providers_eq rfl rfl le_rfl le_rfl rfl
    dsimp only
    split_ifs with hchanged
    · have hk := SessionState.directoryKept_recompute b.isGitStatus
        (session.setActiveAgent a agentActive workingDirectory) b.nextGeneration
      refine sound_store hb (sessionOf_eq_some hs).2 (hm.trans (SessionState.moves_recompute _ _ _))
        hk ?_ (.inr ⟨_, rfl, SessionState.updateSequence_recompute hchanged⟩) _
      rw [SessionState.callbacks_recompute]
      exact List.Sublist.refl _
    · rw [SessionState.recompute_of_not hchanged]
      exact sound_store hb (sessionOf_eq_some hs).2 hm (.inl rfl) (List.Sublist.refl _)
        (.inl rfl) _

theorem sound_notify (hb : b.Wf) (a : AttachmentId) (reason : ActivationEvent) :
    Locked.Sound b (b.notify a reason) := by
  unfold notify
  split <;> exact sound_self hb _

/-! ### Pruning -/

theorem lookup_of_prune
    (h : (b.pruneDetachedSessions now).sessions.lookup sid = some session) :
    b.sessions.lookup sid = some session :=
  (Option.filter_eq_some_iff.mp ((Table.lookup_keep _ _ _).symm.trans h)).1

theorem lookup_prune_of_ne_nil (h : b.sessions.lookup sid = some session)
    (hcb : session.callbacks ≠ []) :
    (b.pruneDetachedSessions now).sessions.lookup sid = some session := by
  refine (Table.lookup_keep _ _ _).trans (Option.filter_eq_some_iff.mpr ⟨h, ?_⟩)
  have : session.callbacks.isEmpty = false := by simpa using hcb
  simp [this]

theorem Wf.prune (hb : b.Wf) (now : Time) : (b.pruneDetachedSessions now).Wf :=
  ⟨fun sid session h => hb.sessionId sid session (lookup_of_prune h),
    fun sid session h => hb.sessionIncarnation sid session (lookup_of_prune h),
    fun sid session id state h => hb.generation sid session id state (lookup_of_prune h),
    fun sid session h => hb.attached sid session (lookup_of_prune h),
    fun sid session h => hb.nodup sid session (lookup_of_prune h), hb.fresh⟩

theorem sound_prune (h : Locked.Sound b out) (now : Time) :
    Locked.Sound b { out with broker := out.broker.pruneDetachedSessions now } where
  wf := h.wf.prune now
  nextGeneration := h.nextGeneration
  nextSessionIncarnation := h.nextSessionIncarnation
  nextAttachment := h.nextAttachment
  catalog := h.catalog.imp_right fun hnew sid session' id state' hs =>
    hnew sid session' id state' (lookup_of_prune hs)
  origin := fun sid session' hs => h.origin sid session' (lookup_of_prune hs)
  sends := by
    intro n hn
    obtain ⟨sid, session', hs, ha, hrest⟩ := h.sends n hn
    exact ⟨sid, session', lookup_prune_of_ne_nil hs (List.ne_nil_of_mem ha), ha, hrest⟩
  nodup := h.nodup

theorem sound_of_prune (hb : b.Wf)
    (h : Locked.Sound (b.pruneDetachedSessions now) out) : Locked.Sound b out where
  wf := h.wf
  nextGeneration := h.nextGeneration
  nextSessionIncarnation := h.nextSessionIncarnation
  nextAttachment := h.nextAttachment
  catalog := h.catalog
  origin := by
    intro sid session' hs
    rcases h.origin sid session' hs with ⟨session, hold, hrest⟩ | hnew
    · exact .inl ⟨session, lookup_of_prune hold, hrest⟩
    · exact .inr hnew
  sends := by
    intro n hn
    obtain ⟨sid, session', hs, ha, hinc, hseq, hrest⟩ := h.sends n hn
    refine ⟨sid, session', hs, ha, hinc, hseq, hrest.imp_right fun hlt session hold heq => ?_⟩
    rcases h.origin sid session' hs with ⟨old, hold', hmoves, -⟩ | ⟨hnew, -⟩
    · obtain rfl : session = old := Option.some.inj (hold.symm.trans (lookup_of_prune hold'))
      exact hlt session hold' heq
    · exact absurd (hb.sessionIncarnation sid session hold) (by
        rw [heq]
        exact not_lt.mpr hnew)
  nodup := h.nodup

/-! ### Detaching -/

theorem sound_leave (hb : b.Wf) (hs : b.sessions.lookup sid = some session) (a : AttachmentId)
    (now : Time) : Locked.Sound b (b.leave sid session a now) := by
  have hm : session.Moves b.nextGeneration b.nextGeneration (session.removeAttachment a) :=
    .of_providers_eq rfl rfl le_rfl le_rfl rfl
  have hsub : (session.removeAttachment a).callbacks.Sublist session.callbacks :=
    List.erase_sublist
  have hrec := SessionState.moves_recompute b.isGitStatus (session.removeAttachment a)
    b.nextGeneration
  have hk : session.DirectoryKept b.isGitStatus b.nextGeneration _ :=
    SessionState.directoryKept_recompute b.isGitStatus (session.removeAttachment a)
      b.nextGeneration
  have hcb := SessionState.callbacks_recompute b.isGitStatus (session.removeAttachment a)
    b.nextGeneration
  unfold leave
  dsimp only
  split_ifs with hnone hchanged hselection
  · exact sound_store hb hs (hm.trans (SessionState.moves_abandon _ _ _ _))
      (.inr (SessionState.cleared_abandon _ _ _ _)) hsub (.inl rfl) _
  · exact sound_store hb hs (hm.trans hrec) hk (hcb.symm ▸ hsub)
      (.inr ⟨_, rfl, SessionState.updateSequence_recompute hchanged⟩) _
  · rw [SessionState.recompute_of_not hchanged]
    exact sound_store hb hs hm.nextUpdate (.inl rfl) hsub (.inr ⟨_, rfl, Nat.lt_succ_self _⟩) _
  · rw [SessionState.recompute_of_not hchanged]
    exact sound_store hb hs hm (.inl rfl) hsub (.inl rfl) _

theorem leave_lookup (a : AttachmentId) (now : Time) :
    ∃ session', (b.leave sid session a now).broker = b.store sid session'
        (b.leave sid session a now).broker.nextGeneration ∧
      session'.callbacks = session.callbacks.erase a := by
  have hcb := SessionState.callbacks_recompute b.isGitStatus (session.removeAttachment a)
    b.nextGeneration
  unfold leave
  dsimp only
  split_ifs
  · exact ⟨_, rfl, rfl⟩
  · exact ⟨_, rfl, hcb⟩
  · exact ⟨_, rfl, hcb⟩
  · exact ⟨_, rfl, hcb⟩

theorem sound_eraseAttachment (h : Locked.Sound b out)
    (ha : ∀ sid session, out.broker.sessions.lookup sid = some session → a ∉ session.callbacks) :
    Locked.Sound b { out with broker := { out.broker with
      attachmentSessions := out.broker.attachmentSessions.erase a } } where
  wf :=
    { sessionId := h.wf.sessionId
      sessionIncarnation := h.wf.sessionIncarnation
      generation := h.wf.generation
      attached := by
        intro sid session hs a' ha'
        rw [Table.lookup_erase_eq, if_neg]
        · exact h.wf.attached sid session hs a' ha'
        · rintro rfl
          exact ha sid session hs ha'
      nodup := h.wf.nodup
      fresh := by
        intro a' sid ha'
        rw [Table.lookup_erase_eq] at ha'
        split_ifs at ha'
        exact h.wf.fresh a' sid ha' }
  nextGeneration := h.nextGeneration
  nextSessionIncarnation := h.nextSessionIncarnation
  nextAttachment := h.nextAttachment
  catalog := h.catalog
  origin := h.origin
  sends := h.sends
  nodup := h.nodup

theorem sound_detach (hb : b.Wf) (a : AttachmentId) (now pruneNow : Time) :
    Locked.Sound b (b.detach a now pruneNow) := by
  unfold detach
  split
  · exact sound_self hb []
  · rename_i sid ha
    refine sound_prune (sound_eraseAttachment ?_ ?_) pruneNow
    · split
      · exact sound_self hb []
      · rename_i session hs
        exact sound_leave hb hs a now
    · split
      · rename_i hnone
        intro sid' session' hs' hmem
        have hsid := Option.some.inj (ha.symm.trans (hb.attached sid' session' hs' a hmem))
        exact absurd (hsid ▸ hs') (by simp [hnone])
      · rename_i session hs
        obtain ⟨left, hleft, hcb⟩ := @leave_lookup b sid session a now
        rw [hleft]
        intro sid' session' hs' hmem
        rw [lookup_store] at hs'
        split_ifs at hs' with heq
        · obtain rfl : left = session' := Option.some.inj hs'
          rw [hcb] at hmem
          exact (hb.nodup sid session hs).not_mem_erase hmem
        · exact heq (Option.some.inj ((hb.attached sid' session' hs' a hmem).symm.trans ha))

/-! ### Attaching -/

theorem moves_replaceContext (b : Broker) (session : SessionState) (context : SessionContext) :
    session.Moves b.nextGeneration (b.replaceContext session context).2
      (b.replaceContext session context).1 := by
  let changed := session.setContext context.workingDirectory
    context.workingDirectoryAuthoritative context.shellType
  have hset : session.Moves b.nextGeneration b.nextGeneration changed :=
    .of_providers_eq rfl rfl (Nat.le_succ _) le_rfl rfl
  have hall := SessionState.moves_invalidateProviders changed b.nextGeneration
  have hgit := SessionState.moves_invalidateGitStatus b.isGitStatus
    (changed.invalidateProviders b.nextGeneration).1
    (changed.invalidateProviders b.nextGeneration).2
  exact (hset.trans (hall.trans hgit)).nextUpdate

theorem cleared_replaceContext (b : Broker) (session : SessionState) (context : SessionContext) :
    (b.replaceContext session context).1.Cleared b.isGitStatus b.nextGeneration := by
  let changed := session.setContext context.workingDirectory
    context.workingDirectoryAuthoritative context.shellType
  intro id state hgit hstate
  have hc := SessionState.cleared_invalidateGitStatus b.isGitStatus
    (changed.invalidateProviders b.nextGeneration).1
    (changed.invalidateProviders b.nextGeneration).2 id state hgit hstate
  exact ⟨(SessionState.moves_invalidateProviders changed b.nextGeneration).le.trans hc.1, hc.2⟩

theorem enter_of_none
    (hs : b.sessions.lookup context.sessionId = none) :
    b.enter context =
      { session := { context, sessionIncarnation := b.nextSessionIncarnation }
        nextGeneration := b.nextGeneration
        nextSessionIncarnation := b.nextSessionIncarnation + 1
        contextChanged := false } := by
  simp only [enter, hs, Option.getD_none]
  rfl

theorem enter_of_some (hb : b.Wf)
    (hs : b.sessions.lookup context.sessionId = some session) :
    (b.enter context).nextSessionIncarnation = b.nextSessionIncarnation ∧
    (b.enter context).session.callbacks = session.callbacks ∧
    session.Moves b.nextGeneration (b.enter context).nextGeneration (b.enter context).session ∧
    session.DirectoryKept b.isGitStatus b.nextGeneration (b.enter context).session := by
  have hid := hb.sessionId _ _ hs
  have hm : session.Moves b.nextGeneration b.nextGeneration { session with detachedAt := none } :=
    .of_providers_eq rfl rfl le_rfl le_rfl rfl
  have hne : ¬ session.context.sessionId = "" := hid.1 ▸ hid.2
  simp only [enter, hs, Option.getD_some, if_neg hne]
  split_ifs
  · exact ⟨rfl, rfl, hm, .inl rfl⟩
  · exact ⟨rfl, rfl, hm.trans (moves_replaceContext b _ context),
      .inr (cleared_replaceContext b _ context)⟩

section Attach

variable {a : AttachmentId} {visibleFields : VisibleFieldMap}
  {changed own : Bool} {sessionId : String}

@[simp] theorem callbacks_addAttachment (session : SessionState) (a : AttachmentId)
    (visibleFields : VisibleFieldMap) :
    (session.addAttachment a visibleFields).callbacks = session.callbacks ++ [a] := rfl

theorem moves_addAttachment (session : SessionState) (a : AttachmentId)
    (visibleFields : VisibleFieldMap) (g : ℕ) :
    session.Moves g g (session.addAttachment a visibleFields) :=
  .of_providers_eq rfl rfl le_rfl le_rfl rfl

theorem mem_attach_notifications
    {n : AttachmentId × BrokerUpdate}
    (h : n ∈ (if changed then (b.notificationsFor sessionId session []).filter (·.1 ≠ a) else []) ++
      if own then [(a, b.updateFor sessionId session [] a)] else []) :
    n.2.sessionIncarnation = session.sessionIncarnation ∧
      n.2.updateSequence = session.updateSequence ∧
      (n.1 = a ∨ (changed = true ∧ n.1 ∈ session.callbacks)) := by
  rcases List.mem_append.mp h with h | h
  · split_ifs at h with hchanged
    · obtain ⟨ha, hinc, hseq⟩ := mem_notificationsFor (List.mem_filter.mp h).1
      exact ⟨hinc, hseq, .inr ⟨hchanged, ha⟩⟩
    · exact absurd h List.not_mem_nil
  · split_ifs at h
    · rw [List.mem_singleton] at h
      subst h
      exact ⟨rfl, rfl, .inl rfl⟩
    · exact absurd h List.not_mem_nil

theorem nodup_attach_notifications
    (hcb : session.callbacks.Nodup) :
    (((if changed then (b.notificationsFor sessionId session []).filter (·.1 ≠ a) else []) ++
      if own then [(a, b.updateFor sessionId session [] a)] else []).map Prod.fst).Nodup := by
  have hfilter : (((b.notificationsFor sessionId session []).filter (·.1 ≠ a)).map
      Prod.fst).Nodup := by
    refine List.Nodup.sublist (List.filter_sublist.map Prod.fst) ?_
    rwa [map_fst_notificationsFor]
  rw [List.map_append, List.nodup_append]
  refine ⟨?_, ?_, ?_⟩
  · split_ifs
    · exact hfilter
    · exact List.nodup_nil
  · split_ifs
    · exact List.nodup_singleton a
    · exact List.nodup_nil
  · intro x hx y hy
    split_ifs at hx hy
    · obtain ⟨n, hn, rfl⟩ := List.mem_map.mp hx
      obtain rfl := List.mem_singleton.mp hy
      simpa using (List.mem_filter.mp hn).2
    all_goals simp_all

theorem enter_cases (hb : b.Wf) (context : SessionContext) :
    let e := b.enter context
    e.session.context.sessionId = context.sessionId ∧
    e.session.sessionIncarnation < e.nextSessionIncarnation ∧
    b.nextSessionIncarnation ≤ e.nextSessionIncarnation ∧ b.nextGeneration ≤ e.nextGeneration ∧
    ((∃ session, b.sessions.lookup context.sessionId = some session ∧
        e.session.callbacks = session.callbacks ∧
        session.Moves b.nextGeneration e.nextGeneration e.session ∧
        session.DirectoryKept b.isGitStatus b.nextGeneration e.session) ∨
      (b.sessions.lookup context.sessionId = none ∧ e.session.callbacks = [] ∧
        b.nextSessionIncarnation ≤ e.session.sessionIncarnation ∧
        ∀ id, e.session.providers.lookup id = none)) := by
  intro e
  cases hs : b.sessions.lookup context.sessionId with
  | none =>
    have he : e = _ := enter_of_none hs
    rw [he]
    exact ⟨rfl, Nat.lt_succ_self _, Nat.le_succ _, le_rfl, .inr ⟨rfl, rfl, le_rfl, fun _ => rfl⟩⟩
  | some session =>
    obtain ⟨hinc, hcb, hm, hk⟩ := enter_of_some hb hs
    refine ⟨hm.sessionId.trans (hb.sessionId _ _ hs).1, ?_, hinc.ge, hm.le,
      .inl ⟨session, rfl, hcb, hm, hk⟩⟩
    rw [hm.sessionIncarnation, hinc]
    exact hb.sessionIncarnation _ _ hs

theorem sound_attach (hb : b.Wf) (context : SessionContext) (visibleFields : VisibleFieldMap)
    (now : Time) : Locked.Sound b (b.attach context visibleFields now) := by
  unfold attach
  split_ifs with hid
  · exact sound_self hb []
  apply sound_of_prune hb
  have hb₁ := hb.prune now
  generalize b.pruneDetachedSessions now = b₁ at hb₁ ⊢
  obtain ⟨heid, heinc, hinc, hgen, hcases⟩ := enter_cases hb₁ context
  have hadd := moves_addAttachment (b₁.enter context).session b₁.nextAttachment visibleFields
    (b₁.enter context).nextGeneration
  have hrec := SessionState.moves_recompute b₁.isGitStatus
    ((b₁.enter context).session.addAttachment b₁.nextAttachment visibleFields)
    (b₁.enter context).nextGeneration
  have hk := SessionState.directoryKept_recompute b₁.isGitStatus
    ((b₁.enter context).session.addAttachment b₁.nextAttachment visibleFields)
    (b₁.enter context).nextGeneration
  have hcb := SessionState.callbacks_recompute b₁.isGitStatus
    ((b₁.enter context).session.addAttachment b₁.nextAttachment visibleFields)
    (b₁.enter context).nextGeneration
  have hseq := @SessionState.updateSequence_recompute b₁.isGitStatus
    ((b₁.enter context).session.addAttachment b₁.nextAttachment visibleFields)
    (b₁.enter context).nextGeneration
  rw [callbacks_addAttachment] at hcb
  dsimp only
  generalize ((b₁.enter context).session.addAttachment b₁.nextAttachment
    visibleFields).recomputeAgentWorkingDirectory b₁.isGitStatus
      (b₁.enter context).nextGeneration = r at *
  generalize b₁.enter context = e at *
  have hmoves := hadd.trans hrec
  have hold : (∀ a ∈ e.session.callbacks, b₁.attachmentSessions.lookup a = some context.sessionId) ∧
      e.session.callbacks.Nodup ∧ ∀ id state, e.session.providers.lookup id = some state →
        state.generation < e.nextGeneration := by
    rcases hcases with ⟨session, hs, hcb', hm, -⟩ | ⟨-, hcb', -, hnone⟩
    · rw [hcb']
      exact ⟨hb₁.attached _ _ hs, hb₁.nodup _ _ hs,
        hm.generation_lt fun id state => hb₁.generation _ _ id state hs⟩
    · rw [hcb']
      exact ⟨fun a ha => absurd ha List.not_mem_nil, List.nodup_nil,
        fun id state h => absurd h (by simp [hnone])⟩
  obtain ⟨hattached, hnodupOld, hgenOld⟩ := hold
  have hlt : ∀ a sid', b₁.attachmentSessions.lookup a = some sid' → a ≠ b₁.nextAttachment :=
    fun a sid' h => (hb₁.fresh a sid' h).ne
  have hnodup : r.1.callbacks.Nodup := by
    rw [hcb]
    refine List.nodup_append.mpr ⟨hnodupOld, List.nodup_singleton _, fun a ha a' ha' => ?_⟩
    rw [List.mem_singleton.mp ha']
    exact hlt a _ (hattached a ha)
  have hgenNew := hmoves.generation_lt hgenOld
  refine ⟨⟨?_, ?_, ?_, ?_, ?_, ?_⟩, hgen.trans hmoves.le, hinc, Nat.le_succ _, .inl ⟨rfl, rfl⟩,
    ?_, ?_, nodup_attach_notifications hnodup⟩
  · exact forall_store (g := r.2.1) hb₁.sessionId ⟨hmoves.sessionId.trans heid, hid⟩
  · exact forall_store (g := r.2.1) (fun sid session h => (hb₁.sessionIncarnation sid session h).trans_le hinc)
      (hmoves.sessionIncarnation.symm ▸ heinc)
  · have hall : ∀ sid session, (b₁.store context.sessionId r.1 r.2.1).sessions.lookup sid =
        some session → ∀ id state, session.providers.lookup id = some state →
          state.generation < r.2.1 :=
      forall_store (fun sid session h id state hstate =>
        (hb₁.generation sid session id state h hstate).trans_le (hgen.trans hmoves.le)) hgenNew
    exact fun sid session id state h => hall sid session h id state
  · refine forall_store (g := r.2.1) ?_ ?_
    · intro sid session h a ha
      rw [Table.lookup_insert_eq, if_neg (hlt a sid (hb₁.attached sid session h a ha))]
      exact hb₁.attached sid session h a ha
    · intro a ha
      rw [Table.lookup_insert_eq]
      split_ifs with heq
      · rw [heid]
      · rw [hcb, List.mem_append, List.mem_singleton] at ha
        exact hattached a (ha.resolve_right heq)
  · exact forall_store (g := r.2.1) hb₁.nodup hnodup
  · intro a sid h
    rw [Table.lookup_insert_eq] at h
    split_ifs at h with heq
    · exact heq ▸ Nat.lt_succ_self _
    · exact (hb₁.fresh a sid h).trans (Nat.lt_succ_self _)
  · refine forall_store (g := r.2.1) (fun _ _ h => origin_self h (hgen.trans hmoves.le)) ?_
    rcases hcases with ⟨session, hs, hcb', hm, hkept⟩ | ⟨-, -, hnew, hnone⟩
    · refine .inl ⟨session, hs, hm.trans hmoves, ?_, fun a ha => ?_⟩
      · have hkadd : e.session.DirectoryKept b₁.isGitStatus e.nextGeneration r.1 := hk
        exact hkept.trans hmoves hkadd hm.le
      · rw [hcb, hcb', List.mem_append, List.mem_singleton] at ha
        exact ha.imp_right fun heq => heq.ge
    · refine .inr ⟨hmoves.sessionIncarnation.symm ▸ hnew, fun id => ?_⟩
      cases hstate : r.1.providers.lookup id with
      | none => rfl
      | some state' =>
        obtain ⟨state, hstate', -⟩ := hmoves.touched id state' hstate
        exact absurd hstate' (by simp [hnone])
  · intro n hn
    obtain ⟨hninc, hnseq, hmem⟩ := mem_attach_notifications hn
    refine ⟨context.sessionId, r.1, AList.lookup_insert _, ?_, hninc, hnseq, ?_⟩
    · rcases hmem with heq | ⟨-, hmem⟩
      · rw [hcb, heq]
        exact List.mem_append_right _ (List.mem_singleton_self _)
      · exact hmem
    · rcases hmem with heq | ⟨hchanged, -⟩
      · exact .inl heq.ge
      · refine .inr fun session hs _ => ?_
        rcases hcases with ⟨session', hs', -, hm, -⟩ | ⟨hnone, -⟩
        · obtain rfl : session = session' := Option.some.inj (hs.symm.trans hs')
          exact hm.updateSequence.trans_lt (hseq hchanged)
        · exact absurd hs (by simp [hnone])

end Attach

end Broker

end IntelligentTerminal.RichTab
