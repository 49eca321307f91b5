import IntelligentTerminal.Sessions.RegistryFrame

/-!
# Late events and sessions that are over

A session that has ended, or that is part of the history, comes back only by an explicit act. Late
events are the others: everything except the start of a session and the dispatch of a resume. Two
of them do bring a session back whose row still owns a pane: the failure of the connection makes an
error of it, and a completed conversation makes the row of an agent pane idle.

Source: `tools/wta/src/session_registry.rs`, lines 3925-4008 and 4315-4736.
-/

namespace IntelligentTerminal.Sessions

variable {crates : Crates} {s t u : RegistryState} {id id' : SessionIdentity}
  {row row' : SessionInfo} {pane : String}

/-- A session that is over stays so. -/
def KeepsOver (id : SessionIdentity) (s t : RegistryState) : Prop :=
  ∀ row, s.sessions.lookup id = some row → row.isOver →
    ∃ row', t.sessions.lookup id = some row' ∧ row'.isOver ∧
      (row'.paneSessionId = row.paneSessionId ∨ row'.paneSessionId = none)

namespace KeepsOver

theorem of_lookup (h : t.sessions.lookup id = s.sessions.lookup id) : KeepsOver id s t :=
  fun row hrow hover => ⟨row, h.trans hrow, hover, .inl rfl⟩

theorem refl (id : SessionIdentity) (s : RegistryState) : KeepsOver id s s := of_lookup rfl

theorem trans (h : KeepsOver id s t) (h' : KeepsOver id t u) : KeepsOver id s u := by
  intro row hrow hover
  obtain ⟨row₁, hrow₁, hover₁, hpane₁⟩ := h row hrow hover
  obtain ⟨row₂, hrow₂, hover₂, hpane₂⟩ := h' row₁ hrow₁ hover₁
  refine ⟨row₂, hrow₂, hover₂, ?_⟩
  rcases hpane₂ with heq | heq
  · rw [heq]
    exact hpane₁
  · exact .inr heq

theorem setRow_ne (hid : id' ≠ id) (s : RegistryState) (row' : SessionInfo) :
    KeepsOver id s (s.setRow id' row') := by
  refine of_lookup ?_
  change (s.sessions.insert id' row').lookup id = _
  rw [Table.lookup_insert_eq, if_neg (Ne.symm hid)]

theorem ne_of_not_over {row₀ : SessionInfo} (hrow : s.sessions.lookup id' = some row)
    (hover : row.isOver = false) (hrow₀ : s.sessions.lookup id = some row₀)
    (hover₀ : row₀.isOver) : id' ≠ id := by
  rintro rfl
  rw [hrow] at hrow₀
  rw [Option.some.inj hrow₀, hover₀] at hover
  exact absurd hover (by simp)

theorem setRow_of_not_over (hrow : s.sessions.lookup id' = some row) (hover : row.isOver = false)
    (row' : SessionInfo) : KeepsOver id s (s.setRow id' row') :=
  fun row₀ hrow₀ hover₀ =>
    setRow_ne (ne_of_not_over hrow hover hrow₀ hover₀) s row' row₀ hrow₀ hover₀

theorem setRow_of_over (hover : row'.isOver) (hpane : row'.paneSessionId = none) :
    KeepsOver id s (s.setRow id' row') := by
  intro row₀ hrow₀ hover₀
  by_cases hid : id' = id
  · subst hid
    refine ⟨row', ?_, hover, .inr hpane⟩
    change (s.sessions.insert id' row').lookup id' = _
    rw [Table.lookup_insert_eq, if_pos rfl]
  · exact setRow_ne hid s row' row₀ hrow₀ hover₀

theorem release (s : RegistryState) (pane : Option String) :
    KeepsOver id s (s.releasePane crates id' pane) := by
  refine of_lookup ?_
  rw [releasePane_eq]

theorem endEntry (s : RegistryState) (id' : SessionIdentity) (now : ℕ) :
    KeepsOver id s (s.endEntry crates id' now).1 := by
  unfold RegistryState.endEntry
  simp only
  split
  · exact of_lookup rfl
  · refine (of_lookup rfl).trans ((release s.advanceCwdRevision _).trans (setRow_of_over ?_ ?_))
    · rfl
    · rfl

theorem restoreFailedResume (s : RegistryState) (id' : SessionIdentity) (reason : String)
    (now : ℕ) :
    KeepsOver id s (s.restoreFailedResumeIdentityLocked crates id' reason now).1 := by
  unfold RegistryState.restoreFailedResumeIdentityLocked
  split
  · exact refl id s
  · simp only
    split
    · exact endEntry s id' now
    · next entry hentry =>
      refine (endEntry s id' now).trans (setRow_of_over rfl ?_)
      cases hrow : s.sessions.lookup id' with
      | none =>
        have hrow' : s.advanceCwdRevision.sessions.lookup id' = none := hrow
        simp only [RegistryState.endEntry, hrow'] at hentry
        exact absurd hentry (by simp)
      | some row =>
        obtain ⟨row', hrow', _, hpane, _⟩ := lookup_endEntry_self crates hrow now
        rw [hentry] at hrow'
        rw [Option.some.inj hrow']
        exact hpane

theorem applyConnectionFailure (s : RegistryState) {pane : String} (reason : String) (now : ℕ)
    (hne : s.activeByPane.lookup pane ≠ some id) :
    KeepsOver id s (s.applyConnectionFailureLocked crates pane reason now).1 := by
  unfold RegistryState.applyConnectionFailureLocked
  split
  · exact refl id s
  · next id' howner =>
    split
    · exact (restoreFailedResume s id' reason now).trans (of_lookup rfl)
    · split
      · exact refl id s
      · split
        · exact refl id s
        · refine setRow_ne ?_ s _
          rintro rfl
          exact hne howner

/-! ### Binding another session -/

theorem markResumeDispatched (hne : id' ≠ id) (s : RegistryState) (clock : ℕ) :
    KeepsOver id s (s.markResumeDispatchedIdentityLocked crates id' clock).1 := by
  unfold RegistryState.markResumeDispatchedIdentityLocked
  simp only
  split
  · exact of_lookup rfl
  · split
    · exact (of_lookup rfl).trans ((release s.advanceCwdRevision _).trans (setRow_ne hne _ _))
    · exact of_lookup rfl

theorem linkNativePane_sessions (hne : id' ≠ id) (s : RegistryState) (pane : String)
    (previous : Option ℕ) :
    (s.linkNativePane crates id' pane previous).sessions.lookup id = s.sessions.lookup id := by
  unfold RegistryState.linkNativePane
  split
  · rfl
  · simp only
    split_ifs
    · simp only
      rw [Table.lookup_adjust, if_neg (Ne.symm hne)]
    · rfl
    · rfl

theorem linkNativePane_active (s : RegistryState) (pane : String) (previous : Option ℕ) :
    (s.linkNativePane crates id' pane previous).activeByPane = s.activeByPane := by
  unfold RegistryState.linkNativePane
  split
  · rfl
  · simp only
    split_ifs <;> rfl

theorem movePane (hne : id' ≠ id) (s : RegistryState) (entry : SessionInfo) (pane : String)
    (now : ℕ) :
    KeepsOver id s (s.movePane crates id' entry pane now) ∧
      (s.movePane crates id' entry pane now).activeByPane.lookup pane = some id' := by
  unfold RegistryState.movePane
  simp only
  constructor
  · refine of_lookup ((linkNativePane_sessions hne _ _ _).trans ?_)
    change ((s.dropOldPane crates id' entry.paneSessionId pane).sessions.insert id' _).lookup id = _
    rw [Table.lookup_insert_eq, if_neg (Ne.symm hne), dropOldPane_eq]
  · rw [linkNativePane_active]
    exact AList.lookup_insert _

theorem endCompetitor (s : RegistryState) (pane : String) (now : ℕ) :
    KeepsOver id s (s.endCompetitor crates id' pane now) := by
  unfold RegistryState.endCompetitor
  split
  · exact refl id s
  · split
    · exact endEntry s _ now
    · exact refl id s

theorem placeSession (hne : id' ≠ id) (s : RegistryState) (pane : String) (now : ℕ)
    (revived : Bool) : KeepsOver id s (s.placeSession crates id' pane now revived).1 := by
  unfold RegistryState.placeSession
  simp only
  split
  · exact of_lookup rfl
  · next entry _ =>
    split
    · exact of_lookup rfl
    · obtain ⟨hmoved, howner⟩ : KeepsOver id s.advanceCwdRevision
          (s.advanceCwdRevision.movePane crates id' entry pane now) ∧ _ :=
        movePane hne s.advanceCwdRevision entry pane now
      have hmoved' : KeepsOver id s (s.advanceCwdRevision.movePane crates id' entry pane now) :=
        (of_lookup rfl).trans hmoved
      split
      · refine hmoved'.trans (applyConnectionFailure _ _ now ?_)
        rw [howner]
        exact fun heq => hne (Option.some.inj heq)
      · exact hmoved'

theorem bindResumePane (hne : id' ≠ id) (s : RegistryState) (pane : String) (now clock : ℕ) :
    KeepsOver id s (s.bindResumePane crates id' pane now clock).1 := by
  rw [RegistryState.bindResumePane_eq]
  exact (markResumeDispatched hne s clock).trans ((endCompetitor _ pane now).trans
    (placeSession hne _ pane now _))

theorem assignResumePaneIdentity (hne : id' ≠ id) (s : RegistryState) (pane : String)
    (now clock : ℕ) :
    KeepsOver id s (s.assignResumePaneIdentityLocked crates id' pane now clock).1 := by
  unfold RegistryState.assignResumePaneIdentityLocked
  split
  · exact refl id s
  · simp only
    split
    · exact refl id s
    · split
      · split
        · exact refl id s
        · exact (restoreFailedResume s id' _ now).trans (of_lookup rfl)
      · exact bindResumePane hne s _ now clock

/-! ### Late events -/

theorem not_over_of_live (h : row.isLive) : row.isOver = false := by
  simp only [SessionInfo.isLive, SessionInfo.isOver, List.mem_cons, List.not_mem_nil, or_false,
    decide_eq_true_eq] at h ⊢
  rcases h with h | h | h | h <;> simp [h]

theorem sessionStopped (s : RegistryState) (key : AgentKey) (reason : String) (now : ℕ)
    (h : ¬(reason = "complete" ∧ s.uniqueIdentityForRaw key = some id ∧
      ∃ row pane, s.sessions.lookup id = some row ∧ row.origin = some .agentPane ∧
        row.paneSessionId = some pane ∧ s.activeByPane.lookup (crates.paneKey pane) = some id)) :
    KeepsOver id s (s.sessionStopped crates key reason now).1 := by
  unfold RegistryState.sessionStopped
  split
  · exact refl id s
  · next id' hid' =>
    simp only
    split
    · exact of_lookup rfl
    · next entry hentry =>
      split
      · next hlive =>
        refine (of_lookup rfl).trans (setRow_ne ?_ s.advanceCwdRevision _)
        rintro rfl
        obtain ⟨horigin, hpane, hreason⟩ := hlive
        rw [Option.any_eq_true] at hpane
        obtain ⟨pane, hpane, howner⟩ := hpane
        exact h ⟨hreason, hid', entry, pane, hentry, horigin, hpane, of_decide_eq_true howner⟩
      · exact (of_lookup rfl).trans ((release s.advanceCwdRevision _).trans (setRow_of_over rfl rfl))

theorem toolActivity {qualified : Option SessionIdentity} {key : AgentKey}
    (hrow : s.activityRow qualified key = some (id', row)) (hover : row.isOver = false)
    (row' : SessionInfo) : KeepsOver id s (s.setRow id' row') :=
  setRow_of_not_over (Writes.activityRow hrow) hover row'

theorem sessionStoppedIfOwner (s : RegistryState) (key : AgentKey) (pane : Option String)
    (reason : String) (now : ℕ) :
    KeepsOver id s (s.sessionStoppedIfOwner crates key pane reason now).1 := by
  unfold RegistryState.sessionStoppedIfOwner
  split
  · exact refl id s
  · next id' hid' =>
    split
    · next hguard =>
      split
      · exact refl id s
      · intro row₀ hrow₀ hover₀
        refine sessionStopped s key reason now ?_ row₀ hrow₀ hover₀
        rintro ⟨_, hunique, _⟩
        rw [hid'] at hunique
        obtain rfl := Option.some.inj hunique
        rw [hrow₀, Option.any_some, decide_eq_true_eq] at hguard
        rw [not_over_of_live hguard.2.1] at hover₀
        exact absurd hover₀ (by simp)
    · exact refl id s

theorem sessionRenamed (s : RegistryState) (key : AgentKey) (pane title : String) (now : ℕ) :
    KeepsOver id s (s.sessionRenamed key pane title now).1 := by
  unfold RegistryState.sessionRenamed
  split
  · exact refl id s
  · split
    · exact refl id s
    · split
      · exact refl id s
      · split
        · exact refl id s
        · next entry hentry =>
          split
          · exact refl id s
          · next hguard =>
            simp only [not_or, Bool.not_eq_true, Bool.not_eq_false'] at hguard
            exact setRow_of_not_over hentry (not_over_of_live hguard.2.2.1) _

theorem workingDirectoryChanged (s : RegistryState) (key : AgentKey) (pane : String)
    (cwd : PathBuf) (now : ℕ) :
    KeepsOver id s (s.workingDirectoryChanged key pane cwd now).1 := by
  unfold RegistryState.workingDirectoryChanged
  split
  · exact refl id s
  · split
    · exact refl id s
    · split
      · exact refl id s
      · split
        · exact refl id s
        · next entry hentry =>
          split
          · exact refl id s
          · next hlive =>
            simp only [Bool.not_eq_true, Bool.not_eq_false'] at hlive
            have hover := not_over_of_live hlive
            split
            · exact refl id s
            · simp only
              split
              · exact (of_lookup rfl).trans
                  (setRow_of_not_over (s := s.advanceCwdRevision) hentry hover _)
              · exact (of_lookup rfl).trans
                  (setRow_of_not_over (s := s.advanceCwdRevision) hentry hover _)

theorem toolReturned (s : RegistryState) (qualified : Option SessionIdentity) (key : AgentKey)
    (timestampMs : Option ℕ) (now : ℕ) :
    KeepsOver id s (s.toolReturned qualified key timestampMs now).1 := by
  unfold RegistryState.toolReturned
  split
  · exact refl id s
  · next id' entry hentry =>
    split
    · exact refl id s
    · next hguard =>
      simp only [not_or, not_not] at hguard
      have hover : entry.isOver = false := by
        have hstatus := hguard.2
        simp only [List.mem_cons, List.not_mem_nil, or_false] at hstatus
        rcases hstatus with hstatus | hstatus <;> simp [SessionInfo.isOver, hstatus]
      split_ifs
      · exact refl id s
      · exact refl id s
      · exact toolActivity hentry hover _

theorem sessionUnbound (s : RegistryState) (key : AgentKey) (pane : String) :
    KeepsOver id s (s.sessionUnbound key pane).1 := by
  unfold RegistryState.sessionUnbound
  split
  · exact refl id s
  · split
    · exact refl id s
    · split
      · exact refl id s
      · next row hrow =>
        split
        · next hguard =>
          exact (of_lookup rfl).trans
            (setRow_of_not_over (s := s.advanceCwdRevision) hrow (not_over_of_live hguard.2.2.2) _)
        · exact refl id s

theorem paneClosed (s : RegistryState) (pane : String) (now : ℕ) :
    KeepsOver id s (s.paneClosed pane now).1 := by
  unfold RegistryState.paneClosed
  simp only
  generalize hstate : (if s.paneConnections.lookup pane = some .connected then
    { s with paneConnections := s.paneConnections.erase pane } else s) = t
  have ht : KeepsOver id s t := by
    rw [← hstate]
    split <;> exact of_lookup rfl
  split
  · exact ht
  · split
    · exact ht.trans (of_lookup rfl)
    · refine ht.trans ((of_lookup rfl).trans (setRow_of_over ?_ ?_))
      · rfl
      · rfl

theorem resumeFailed (s : RegistryState) (key : AgentKey) (reason : String) (now : ℕ) :
    KeepsOver id s (s.resumeFailed key reason now).1 := by
  unfold RegistryState.resumeFailed
  split
  · exact refl id s
  · split
    · exact refl id s
    · next entry hentry =>
      split
      · next hidle => exact setRow_of_not_over hentry (by simp [SessionInfo.isOver, hidle.1]) _
      · exact refl id s

theorem resumePaneAssigned (s : RegistryState) (key : AgentKey) (pane : String) (now clock : ℕ) :
    KeepsOver id s (s.resumePaneAssigned crates key pane now clock).1 := by
  unfold RegistryState.resumePaneAssigned
  split
  · exact refl id s
  · next id' _ =>
    split
    · exact refl id s
    · next hover =>
      intro row₀ hrow₀ hover₀
      have hne : id' ≠ id := by
        rintro rfl
        rw [hrow₀, Option.any_some] at hover
        exact hover hover₀
      exact assignResumePaneIdentity hne s pane now clock row₀ hrow₀ hover₀

end KeepsOver

/-! ### Events that bring a session back -/

end IntelligentTerminal.Sessions
