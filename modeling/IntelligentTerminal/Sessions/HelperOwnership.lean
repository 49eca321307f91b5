import IntelligentTerminal.Data.Run
import IntelligentTerminal.Sessions.Helper

/-!
# Who owns a pane in the helper's registry

The index of panes and the rows of the sessions are meant to agree. Two operations break that.
`SessionEvent::ResumePaneAssigned` ends the owner of the pane before it looks whether the session
has a row, and it binds the empty pane id. `apply_alive_session_join` binds a pane without ending
its owner, and the empty pane id as well. `HelperOp.Clean` says when that does not happen, and a
run keeps the agreement exactly if all its steps are clean.

Source: `tools/wta/src/agent_sessions.rs`, lines 553-1135 and 1304-1579.
-/

namespace IntelligentTerminal.Sessions

namespace AgentSessionRegistry

/-- Index and rows agree: the index names a session for a pane exactly if the row of the session
has the pane. So no two rows claim one pane, no pane has an owner without a row, nobody owns the
empty pane id, and a session that is over owns no pane. -/
structure OwnsPanes (r : AgentSessionRegistry) : Prop where
  owner_iff : ∀ p k, r.activeByPane.lookup p = some k ↔
    ∃ row, r.sessions.lookup k = some row ∧ row.paneSessionId = some p
  unique : ∀ p k k' row row', r.sessions.lookup k = some row → r.sessions.lookup k' = some row' →
    row.paneSessionId = some p → row'.paneSessionId = some p → k = k'
  owner_mem : ∀ p k, r.activeByPane.lookup p = some k → k ∈ r.sessions
  empty : r.activeByPane.lookup "" = none
  finished : ∀ k row, r.sessions.lookup k = some row →
    row.status = .ended ∨ row.status = .historical → ∀ p, r.activeByPane.lookup p ≠ some k

end AgentSessionRegistry

/-- A row with a pane is live, and the pane is a real one. No row has the status that only
responses have. -/
structure AgentSession.RowOk (row : AgentSession) : Prop where
  status : row.status ≠ .inUse
  pane : ∀ p, row.paneSessionId = some p → p ≠ "" ∧ row.liveness = .live

/-- Index and rows agree, and rows with a pane are live. -/
structure Owned (r : AgentSessionRegistry) : Prop where
  owns : Table.Owns AgentSession.paneSessionId r.sessions r.activeByPane
  rows : ∀ k row, r.sessions.lookup k = some row → row.RowOk

variable {r : AgentSessionRegistry} {key : AgentKey} {entry entry' : AgentSession} {pane : String}
  {now : SystemTime}

theorem Owned.ownsPanes (h : Owned r) : r.OwnsPanes := by
  have hiff : ∀ p k, r.activeByPane.lookup p = some k ↔
      ∃ row, r.sessions.lookup k = some row ∧ row.paneSessionId = some p := by
    intro p k
    rw [h.owns p k, Option.bind_eq_some_iff]
  refine ⟨hiff, fun p k k' row row' hrow hrow' hp hp' => ?_, fun p k hk => ?_, ?_,
    fun k row hrow hstatus p hp => ?_⟩
  · have h₁ := (hiff p k).mpr ⟨row, hrow, hp⟩
    have h₂ := (hiff p k').mpr ⟨row', hrow', hp'⟩
    exact Option.some.inj (h₁.symm.trans h₂)
  · obtain ⟨row, hrow, -⟩ := (hiff p k).mp hk
    rw [← AList.lookup_isSome, hrow]
    rfl
  · rw [Option.eq_none_iff_forall_ne_some]
    intro k hk
    obtain ⟨row, hrow, hp⟩ := (hiff "" k).mp hk
    exact ((h.rows k row hrow).pane "" hp).1 rfl
  · obtain ⟨row', hrow', hpane⟩ := (hiff p k).mp hp
    obtain rfl : row = row' := Option.some.inj (hrow.symm.trans hrow')
    have hlive := ((h.rows k row hrow).pane p hpane).2
    unfold AgentSession.liveness at hlive
    rcases hstatus with hs | hs <;> rw [hs] at hlive <;> exact absurd hlive (by simp)

/-! ### Writes -/

theorem AgentSession.rowOk_of_none (h : entry.paneSessionId = none) (hs : entry.status ≠ .inUse) :
    entry.RowOk := by
  refine ⟨hs, fun p hp => ?_⟩
  rw [h] at hp
  exact absurd hp (by simp)

theorem AgentSession.status_ne_of_live (h : entry.liveness = .live) : entry.status ≠ .inUse := by
  intro hs
  rw [AgentSession.liveness, hs] at h
  exact absurd h (by simp)

theorem AgentSession.RowOk.of_eq (h : entry.RowOk)
    (hpane : entry'.paneSessionId = entry.paneSessionId)
    (hs : entry'.status = entry.status ∨ entry'.liveness = .live) : entry'.RowOk := by
  rcases hs with hs | hs
  · refine ⟨by rw [hs]; exact h.status, fun p hp => ?_⟩
    rw [AgentSession.liveness, hs]
    exact h.pane p (hpane ▸ hp)
  · exact ⟨AgentSession.status_ne_of_live hs, fun p hp => ⟨(h.pane p (hpane ▸ hp)).1, hs⟩⟩

namespace Owned

theorem of_eq {r' : AgentSessionRegistry} (h : Owned r) (hs : r'.sessions = r.sessions)
    (hp : r'.activeByPane = r.activeByPane) : Owned r' := by
  refine ⟨?_, ?_⟩
  · rw [hs, hp]
    exact h.owns
  · rw [hs]
    exact h.rows

theorem rows_insert (h : Owned r) (hok : entry'.RowOk) :
    ∀ k row, (r.sessions.insert key entry').lookup k = some row → row.RowOk := by
  intro k row hrow
  rw [Table.lookup_insert_eq] at hrow
  split_ifs at hrow
  · obtain rfl := Option.some.inj hrow
    exact hok
  · exact h.rows k row hrow

theorem set_keep (h : Owned r) (hrow : r.sessions.lookup key = some entry)
    (hpane : entry'.paneSessionId = entry.paneSessionId)
    (hs : entry'.status = entry.status ∨ entry'.liveness = .live) :
    Owned (r.setSession key entry') := by
  refine ⟨h.owns.keep ?_, h.rows_insert ((h.rows key entry hrow).of_eq hpane hs)⟩
  rw [hrow, Option.bind_some, hpane]

theorem set_none (h : Owned r) (hrow : (r.sessions.lookup key).bind (·.paneSessionId) = none)
    (hpane : entry'.paneSessionId = none) (hs : entry'.status ≠ .inUse) :
    Owned (r.setSession key entry') := by
  refine ⟨h.owns.keep ?_, h.rows_insert (AgentSession.rowOk_of_none hpane hs)⟩
  rw [hpane]
  exact hrow.symm

theorem set_release (h : Owned r) (hrow : r.sessions.lookup key = some entry)
    (hpane : entry.paneSessionId = some pane) (hnone : entry'.paneSessionId = none)
    (hs : entry'.status ≠ .inUse) :
    Owned { r.setSession key entry' with activeByPane := r.activeByPane.erase pane } := by
  refine ⟨h.owns.release ?_ hnone, h.rows_insert (AgentSession.rowOk_of_none hnone hs)⟩
  rw [hrow, Option.bind_some, hpane]

theorem set_drop (h : Owned r) (hrow : r.sessions.lookup key = some entry)
    (hnone : entry'.paneSessionId = none) (hs : entry'.status ≠ .inUse) :
    Owned { r.setSession key entry' with
      activeByPane :=
        match entry.paneSessionId with
        | none => r.activeByPane
        | some pane => r.activeByPane.erase pane } := by
  cases hpane : entry.paneSessionId with
  | none =>
    refine (h.set_none ?_ hnone hs).of_eq rfl rfl
    rw [hrow, Option.bind_some, hpane]
  | some pane => exact (h.set_release hrow hpane hnone hs).of_eq rfl rfl

theorem toEnded_status : (entry.toEnded now).status ≠ .inUse := by
  simp [AgentSession.toEnded]

theorem owner (h : Owned r) (hp : r.activeByPane.lookup pane = some key) :
    ∃ entry, r.sessions.lookup key = some entry ∧ entry.paneSessionId = some pane ∧ pane ≠ "" ∧
      entry.liveness = .live := by
  obtain ⟨entry, hrow, hpane⟩ := Option.bind_eq_some_iff.mp ((h.owns pane key).mp hp)
  obtain ⟨h₁, h₂⟩ := (h.rows key entry hrow).pane pane hpane
  exact ⟨entry, hrow, hpane, h₁, h₂⟩

theorem index_of_row (h : Owned r) (hrow : r.sessions.lookup key = some entry)
    (hpane : entry.paneSessionId = some pane) : r.activeByPane.lookup pane = some key := by
  rw [h.owns, hrow, Option.bind_some, hpane]

/-! ### Taking over a pane -/

theorem lookup_demoteOwner (h : Owned r) (k : AgentKey) :
    (r.demoteOwner key pane now).sessions.lookup k =
      if k ≠ key ∧ r.activeByPane.lookup pane = some k then
        (r.sessions.lookup k).map (·.toEnded now)
      else r.sessions.lookup k := by
  unfold AgentSessionRegistry.demoteOwner
  cases hp : r.activeByPane.lookup pane with
  | none => simp
  | some prevKey =>
    obtain ⟨prev, hprev, hpane, -, -⟩ := h.owner hp
    simp only [hprev, if_pos hpane, Option.some.injEq]
    split_ifs with h₁ h₂ h₂
    · exact absurd (h₂.2.symm.trans h₁) h₂.1
    · rfl
    · rw [Table.lookup_insert_eq, if_pos h₂.2.symm, ← h₂.2, hprev, Option.map_some]
    · rw [Table.lookup_insert_eq, if_neg]
      rintro rfl
      exact h₂ ⟨h₁, rfl⟩

theorem activeByPane_demoteOwner (r : AgentSessionRegistry) :
    (r.demoteOwner key pane now).activeByPane = r.activeByPane := by
  unfold AgentSessionRegistry.demoteOwner
  split
  · rfl
  · split_ifs
    · rfl
    · split
      · rfl
      · split_ifs <;> rfl

theorem lookup_demoteOwner_self (h : Owned r) :
    (r.demoteOwner key pane now).sessions.lookup key = r.sessions.lookup key := by
  rw [h.lookup_demoteOwner, if_neg (fun hk => hk.1 rfl)]

theorem lookup_dropOldPane (h : Owned r)
    (hentry : entry.paneSessionId = (r.sessions.lookup key).bind (·.paneSessionId)) {p : String}
    (hp : p ≠ pane) :
    (AgentSessionRegistry.dropOldPane r.activeByPane entry pane).lookup p =
      if r.activeByPane.lookup p = some key then none else r.activeByPane.lookup p := by
  have howner : r.activeByPane.lookup p = some key ↔ entry.paneSessionId = some p := by
    rw [h.owns, hentry]
  unfold AgentSessionRegistry.dropOldPane
  split
  · next hnone => rw [if_neg (by rw [howner, hnone]; simp)]
  · next old hold =>
    rw [hold, Option.some.injEq] at howner
    by_cases hne : old = pane
    · rw [if_neg (not_not.mpr hne), if_neg]
      rw [howner, hne]
      exact Ne.symm hp
    · rw [if_pos hne, Table.lookup_erase_eq]
      by_cases hpo : p = old
      · rw [if_pos hpo, if_pos (howner.mpr hpo.symm)]
      · rw [if_neg hpo, if_neg fun e => hpo (howner.mp e).symm]

theorem takeover (h : Owned r) (hne : pane ≠ "")
    (hentry : entry.paneSessionId = (r.sessions.lookup key).bind (·.paneSessionId))
    (hpane : entry'.paneSessionId = some pane) (hlive : entry'.liveness = .live) :
    Owned { (r.demoteOwner key pane now).setSession key entry' with
      activeByPane :=
        (AgentSessionRegistry.dropOldPane r.activeByPane entry pane).insert pane key } := by
  have hlookup : ∀ k, ((r.demoteOwner key pane now).sessions.insert key entry').lookup k =
      if k = key then some entry'
      else if r.activeByPane.lookup pane = some k then (r.sessions.lookup k).map (·.toEnded now)
      else r.sessions.lookup k := by
    intro k
    rw [Table.lookup_insert_eq, h.lookup_demoteOwner]
    split_ifs <;> simp_all
  refine ⟨h.owns.takeover (p := pane) (k := key) ?_ (fun k hk => ?_) (fun p => ?_),
    fun k row hrow => ?_⟩
  · change (((r.demoteOwner key pane now).sessions.insert key entry').lookup key).bind _ = _
    rw [hlookup, if_pos rfl, Option.bind_some, hpane]
  · change (((r.demoteOwner key pane now).sessions.insert key entry').lookup k).bind _ = _
    rw [hlookup, if_neg hk]
    split_ifs
    · cases r.sessions.lookup k <;> rfl
    · rfl
  · change ((AgentSessionRegistry.dropOldPane r.activeByPane entry pane).insert pane key).lookup p =
      _
    rw [Table.lookup_insert_eq]
    split_ifs with hp
    · rfl
    · rw [h.lookup_dropOldPane hentry hp, if_pos ‹_›]
    · rw [h.lookup_dropOldPane hentry hp, if_neg ‹_›]
  · change ((r.demoteOwner key pane now).sessions.insert key entry').lookup k = some row at hrow
    rw [hlookup] at hrow
    split_ifs at hrow
    · obtain rfl := Option.some.inj hrow
      refine ⟨AgentSession.status_ne_of_live hlive, fun p hp => ?_⟩
      rw [hpane] at hp
      exact ⟨Option.some.inj hp ▸ hne, hlive⟩
    · obtain ⟨old, -, rfl⟩ := Option.map_eq_some_iff.mp hrow
      exact AgentSession.rowOk_of_none rfl toEnded_status
    · exact h.rows k row hrow

/-! ### Events -/

theorem start_paneSessionId (isNewEntry : Bool) (cliSource : CliSource) (pane : Option String)
    (cwd : PathBuf) (title : String) :
    (entry.start isNewEntry cliSource pane cwd title now).paneSessionId = pane := by
  unfold AgentSession.start
  by_cases h : isNewEntry = true ∨
    entry.status ∈ [AgentStatus.ended, .error, .historical, .inUse]
  · simp only [if_pos h, AgentSession.clearActivity]
  · simp only [if_neg h]

theorem start_status (isNewEntry : Bool) (cliSource : CliSource) (pane : Option String)
    (cwd : PathBuf) (title : String) :
    (entry.start isNewEntry cliSource pane cwd title now).status =
      if isNewEntry ∨ entry.status ∈ [AgentStatus.ended, .error, .historical, .inUse] then .idle
      else entry.status := by
  unfold AgentSession.start
  by_cases h : isNewEntry = true ∨
    entry.status ∈ [AgentStatus.ended, .error, .historical, .inUse]
  · simp only [if_pos h]
  · simp only [if_neg h]

theorem start_liveness (isNewEntry : Bool) (cliSource : CliSource) (pane : Option String)
    (cwd : PathBuf) (title : String) :
    (entry.start isNewEntry cliSource pane cwd title now).liveness = .live := by
  rw [AgentSession.liveness, start_status]
  cases entry.status <;> cases isNewEntry <;> rfl

theorem sessionStarted (h : Owned r) (cliSource : CliSource) (cwd : PathBuf) (title : String) :
    Owned (r.sessionStarted key cliSource pane cwd title now) := by
  unfold AgentSessionRegistry.sessionStarted
  by_cases hne : pane = ""
  · simp only [hne, ne_eq, not_true_eq_false, decide_false, Bool.false_eq_true, if_false]
    cases hrow : r.sessions.lookup key with
    | none =>
      refine (h.set_none ?_ (start_paneSessionId _ cliSource none cwd title)
        (AgentSession.status_ne_of_live (start_liveness _ _ _ _ _))).of_eq rfl rfl
      rw [hrow]
      rfl
    | some entry =>
      refine (h.set_drop hrow (start_paneSessionId _ cliSource none cwd title)
        (AgentSession.status_ne_of_live (start_liveness _ _ _ _ _))).of_eq rfl ?_
      -- the old pane is a real one
      simp only [Option.getD_some, AgentSessionRegistry.dropOldPane]
      cases hpane : entry.paneSessionId with
      | none => rfl
      | some old => exact if_pos ((h.rows key entry hrow).pane old hpane).1
  · simp only [ne_eq, hne, not_false_eq_true, decide_true, if_true]
    rw [activeByPane_demoteOwner]
    refine h.takeover hne ?_ (start_paneSessionId _ _ _ _ _) (start_liveness _ _ _ _ _)
    rw [h.lookup_demoteOwner_self]
    cases r.sessions.lookup key <;> rfl

theorem sessionRenamed (h : Owned r) (title : String) :
    Owned (r.sessionRenamed key pane title now) := by
  unfold AgentSessionRegistry.sessionRenamed
  split
  · exact h
  · next entry hrow =>
    split_ifs
    · exact h.set_keep hrow rfl (Or.inl rfl)
    · exact h

theorem workingDirectoryChanged (h : Owned r) (cwd : PathBuf) :
    Owned (r.workingDirectoryChanged key pane cwd now) := by
  unfold AgentSessionRegistry.workingDirectoryChanged
  split_ifs
  · split
    · exact h
    · next entry hrow =>
      split_ifs
      · exact h.set_keep hrow rfl (Or.inl rfl)
      · exact h
  · exact h

theorem toolStarting (h : Owned r) (toolName : String) :
    Owned (r.toolStarting key toolName now) := by
  unfold AgentSessionRegistry.toolStarting
  split
  · exact h
  · next entry hrow => exact h.set_keep hrow rfl (Or.inr rfl)

theorem toolReturned (h : Owned r) (timestampMs : Option ℕ) :
    Owned (r.toolReturned key timestampMs now) := by
  unfold AgentSessionRegistry.toolReturned
  split
  · exact h
  · next entry hrow =>
    split_ifs
    · exact h
    · exact h
    · exact h
    · exact h.set_keep hrow rfl (Or.inr rfl)

theorem toolCompleted (h : Owned r) : Owned (r.toolCompleted key now) := by
  unfold AgentSessionRegistry.toolCompleted
  split
  · exact h
  · next entry hrow =>
    simp only
    split_ifs
    · exact h.set_keep hrow rfl (Or.inr rfl)
    · exact h.set_keep hrow rfl (Or.inl rfl)

theorem notification (h : Owned r) (message : String) (timestampMs : Option ℕ) :
    Owned (r.notification key message timestampMs now) := by
  unfold AgentSessionRegistry.notification
  split
  · exact h
  · next entry hrow => exact h.set_keep hrow rfl (Or.inr rfl)

theorem sessionUnbound (h : Owned r) : Owned (r.sessionUnbound key pane) := by
  unfold AgentSessionRegistry.sessionUnbound
  split
  · exact h
  · next entry hrow =>
    split_ifs with hif
    · exact h.set_release hrow hif.2.2.1 rfl (h.rows key entry hrow).status
    · exact h

theorem sessionStopped (h : Owned r) (reason : String) :
    Owned (r.sessionStopped key reason now) := by
  unfold AgentSessionRegistry.sessionStopped
  split
  · exact h
  · next entry hrow =>
    simp only
    split_ifs
    · exact h.set_keep hrow rfl (Or.inr rfl)
    · exact h.set_drop hrow rfl toEnded_status

theorem sessionStoppedIfOwner (h : Owned r) (pane : Option String) (reason : String) :
    Owned (r.sessionStoppedIfOwner key pane reason now) := by
  unfold AgentSessionRegistry.sessionStoppedIfOwner
  split
  · exact h
  · split_ifs
    · exact h.sessionStopped reason
    · exact h

theorem paneClosed (h : Owned r) : Owned (r.paneClosed pane now) := by
  unfold AgentSessionRegistry.paneClosed
  split
  · exact h
  · next key hp =>
    obtain ⟨entry, hrow, hpane, -, -⟩ := h.owner hp
    simp only [hrow]
    exact (h.set_release hrow hpane rfl toEnded_status).of_eq rfl rfl

theorem connectionFailed (h : Owned r) (reason : String) :
    Owned (r.connectionFailed pane reason now) := by
  unfold AgentSessionRegistry.connectionFailed
  split
  · exact h
  · split
    · exact h
    · next entry hrow =>
      split_ifs
      · exact h
      · exact h.set_keep hrow rfl (Or.inr rfl)

theorem resumeDispatched (h : Owned r) : Owned (r.resumeDispatched key now) := by
  unfold AgentSessionRegistry.resumeDispatched
  split
  · exact h
  · next entry hrow =>
    split_ifs
    · exact h.set_keep hrow rfl (Or.inr rfl)
    · exact h

theorem resumeFailed (h : Owned r) (reason : String) : Owned (r.resumeFailed key reason now) := by
  unfold AgentSessionRegistry.resumeFailed
  split
  · exact h
  · next entry hrow =>
    split_ifs with hif
    · refine h.set_none ?_ hif.2 (by simp)
      rw [hrow, Option.bind_some, hif.2]
    · exact h

theorem demoteOwner_eq_self (h : r.activeByPane.lookup pane = none ∨
    r.activeByPane.lookup pane = some key) : r.demoteOwner key pane now = r := by
  unfold AgentSessionRegistry.demoteOwner
  rcases h with h | h
  · rw [h]
  · rw [h]
    exact if_pos rfl

end Owned

/-- When `SessionEvent::ResumePaneAssigned` keeps index and rows in agreement: the session is over,
so that nothing happens, or it has a row and the pane is a real one, or it has no row and nobody
owns the pane. -/
def ResumeClean (r : AgentSessionRegistry) (key : AgentKey) (pane : String) : Prop :=
  (∀ entry, r.sessions.lookup key = some entry →
    entry.status = .historical ∨ entry.status = .ended ∨ pane ≠ "") ∧
  (r.sessions.lookup key = none → r.activeByPane.lookup pane = none)

namespace Owned

theorem resumePaneAssigned (h : Owned r) :
    (ResumeClean r key pane → Owned (r.resumePaneAssigned key pane now)) ∧
      (¬ResumeClean r key pane → ¬(r.resumePaneAssigned key pane now).OwnsPanes) := by
  unfold AgentSessionRegistry.resumePaneAssigned
  cases hrow : r.sessions.lookup key with
  | none =>
    simp only [Option.any_none, Bool.false_eq_true, if_false, h.lookup_demoteOwner_self, hrow]
    refine ⟨fun hclean => ?_, fun hnot h' => hnot ⟨fun entry he => ?_, fun _ => ?_⟩⟩
    · rw [demoteOwner_eq_self (Or.inl (hclean.2 hrow))]
      exact h
    · rw [hrow] at he
      exact absurd he (by simp)
    · by_contra hp
      obtain ⟨prevKey, hprev⟩ := Option.ne_none_iff_exists'.mp hp
      obtain ⟨prev, hprevRow, -, -, -⟩ := h.owner hprev
      have hne : prevKey ≠ key := by
        rintro rfl
        rw [hrow] at hprevRow
        exact absurd hprevRow (by simp)
      have howner : (r.demoteOwner key pane now).activeByPane.lookup pane = some prevKey := by
        rw [activeByPane_demoteOwner, hprev]
      obtain ⟨row, hlook, hpane⟩ := (h'.owner_iff _ _).mp howner
      rw [h.lookup_demoteOwner, if_pos ⟨hne, hprev⟩, hprevRow, Option.map_some] at hlook
      obtain rfl := Option.some.inj hlook
      exact absurd hpane (by simp [AgentSession.toEnded])
  | some entry =>
    have hclean_iff : ResumeClean r key pane ↔
        entry.status = .historical ∨ entry.status = .ended ∨ pane ≠ "" := by
      unfold ResumeClean
      rw [hrow]
      refine ⟨fun hc => hc.1 entry rfl, fun hc => ⟨fun entry' he => ?_, fun he => ?_⟩⟩
      · exact Option.some.inj he ▸ hc
      · exact absurd he (by simp)
    rw [hclean_iff]
    simp only [Option.any_some, decide_eq_true_eq, h.lookup_demoteOwner_self, hrow]
    split_ifs with hover hpane
    · exact ⟨fun _ => h, fun hnot => absurd (hover.imp id Or.inl) hnot⟩
    · rw [demoteOwner_eq_self (Or.inr (h.index_of_row hrow hpane))]
      exact ⟨fun _ => h,
        fun hnot => absurd (Or.inr (Or.inr ((h.rows key entry hrow).pane pane hpane).1)) hnot⟩
    · rw [activeByPane_demoteOwner]
      refine ⟨fun hclean => ?_, fun hnot h' => hnot (Or.inr (Or.inr ?_))⟩
      · have hne : pane ≠ "" := by
          rcases hclean with hs | hs | hs
          · exact absurd (Or.inl hs) hover
          · exact absurd (Or.inr hs) hover
          · exact hs
        have hlive : entry.liveness = .live := by
          have huse := (h.rows key entry hrow).status
          unfold AgentSession.liveness
          cases hstatus : entry.status <;> simp_all
        refine h.takeover hne ?_ rfl hlive
        rw [hrow, Option.bind_some]
      · rintro rfl
        have hempty := h'.empty
        change ((AgentSessionRegistry.dropOldPane r.activeByPane entry "").insert "" key).lookup
          "" = none at hempty
        rw [AList.lookup_insert] at hempty
        exact absurd hempty (by simp)

/-! ### Reconciliation -/

theorem setOrigin (h : Owned r) (origin : SessionOrigin) : Owned (r.setOrigin key origin) := by
  unfold AgentSessionRegistry.setOrigin
  split
  · exact h
  · next entry hrow =>
    split_ifs
    · exact h.set_keep hrow rfl (Or.inl rfl)
    · exact h

theorem setLocation (h : Owned r) (location : SessionLocation) :
    Owned (r.setLocation key location) := by
  unfold AgentSessionRegistry.setLocation
  split
  · exact h
  · next entry hrow =>
    split_ifs
    · exact h.set_keep hrow rfl (Or.inl rfl)
    · exact h

theorem rows_erase (h : Owned r) :
    ∀ k row, (r.sessions.erase key).lookup k = some row → row.RowOk := by
  intro k row hrow
  rw [Table.lookup_erase_eq] at hrow
  split_ifs at hrow
  exact h.rows k row hrow

theorem remove (h : Owned r) : Owned (r.remove key) := by
  unfold AgentSessionRegistry.remove
  split
  · exact h
  · next entry hrow =>
    cases hpane : entry.paneSessionId with
    | none => exact ⟨h.owns.erase_of_none (by rw [hrow, Option.bind_some, hpane]), h.rows_erase⟩
    | some pane => exact ⟨h.owns.erase (by rw [hrow, Option.bind_some, hpane]), h.rows_erase⟩

theorem dropSyntheticForPane (crates : Crates) (h : Owned r) :
    Owned (r.dropSyntheticForPane crates pane) := by
  unfold AgentSessionRegistry.dropSyntheticForPane
  simp only
  split
  · exact h
  · next key hp =>
    split_ifs
    · exact ⟨h.owns.erase ((h.owns _ _).mp hp), h.rows_erase⟩
    · exact h

theorem applyMasterSessionEnded (h : Owned r) : Owned (r.applyMasterSessionEnded key now) := by
  unfold AgentSessionRegistry.applyMasterSessionEnded
  split
  · exact h
  · next entry hrow =>
    split_ifs
    · exact h
    · have hnone : (entry.toEnded now).paneSessionId = none := rfl
      refine (h.set_drop hrow hnone toEnded_status).of_eq ?_ ?_ <;> cases entry.paneSessionId <;> rfl

theorem endPane (h : Owned r) : Owned (r.endPane now pane) := by
  unfold AgentSessionRegistry.endPane
  cases hp : r.activeByPane.lookup pane with
  | none => exact h.of_eq rfl rfl
  | some key =>
    obtain ⟨entry, hrow, hpane, -, hlive⟩ := h.owner hp
    simp only [hrow, hlive, if_true]
    exact (h.set_release hrow hpane rfl toEnded_status).of_eq rfl rfl

theorem foldl_endPane (h : Owned r) (removed : List String) :
    Owned (removed.foldl (AgentSessionRegistry.endPane now) r) := by
  induction removed generalizing r with
  | nil => exact h
  | cons pane removed ih => exact ih h.endPane

theorem applyAlivePaneSnapshot (crates : Crates) (h : Owned r)
    (alivePanes : List String) : Owned (r.applyAlivePaneSnapshot crates alivePanes now) :=
  (h.foldl_endPane _).of_eq rfl rfl

end Owned

/-! ### Joining the sessions that are alive -/

variable {crates : Crates}

/-- When joining a session keeps index and rows in agreement: if its row is to be bound, the pane
is a real one that nobody owns. -/
def JoinClean (crates : Crates) (r : AgentSessionRegistry) (alive : String × Option String) :
    Prop :=
  ∀ entry pane, r.sessions.lookup alive.1 = some entry → alive.2 = some pane →
    entry.status ≠ .ended → entry.paneSessionId = none →
    pane ≠ "" ∧ r.activeByPane.lookup (crates.paneKey pane) = none

/-- A live row claims the empty pane id, or the pane of another live row. -/
def Conflict (r : AgentSessionRegistry) : Prop :=
  ∃ k row p, r.sessions.lookup k = some row ∧ row.paneSessionId = some p ∧ row.liveness = .live ∧
    (p = "" ∨ ∃ k' row', k' ≠ k ∧ r.sessions.lookup k' = some row' ∧
      row'.paneSessionId = some p ∧ row'.liveness = .live)

theorem Conflict.not_ownsPanes (hc : Conflict r) : ¬r.OwnsPanes := by
  intro h
  obtain ⟨k, row, p, hrow, hp, -, rfl | ⟨k', row', hne, hrow', hp', -⟩⟩ := hc
  · have howner := (h.owner_iff "" k).mpr ⟨row, hrow, hp⟩
    rw [h.empty] at howner
    exact absurd howner (by simp)
  · exact hne (h.unique p k' k row' row hrow' hrow hp' hp)

theorem joinSession_eq (crates : Crates) (now : SystemTime) (r : AgentSessionRegistry)
    (alive : String × Option String) :
    r.joinSession crates now alive = r ∨ ∃ entry entry' index known,
      r.sessions.lookup alive.1 = some entry ∧
      (entry.paneSessionId = none ∨ entry.liveness ≠ .live) ∧
      r.joinSession crates now alive =
        { r.setSession alive.1 entry' with activeByPane := index, knownAlivePanes := known } := by
  unfold AgentSessionRegistry.joinSession
  split
  · exact Or.inl rfl
  · next entry hrow =>
    split
    · exact Or.inl rfl
    · next hlive =>
      split_ifs with hpane
      · exact Or.inl rfl
      · split
        · exact Or.inl rfl
        · exact Or.inr ⟨entry, _, _, _, hrow, Or.inl (by simpa using hpane), rfl⟩
    · next hlive =>
      have hne : entry.liveness ≠ .live := by rw [hlive]; simp
      simp only
      split
      · exact Or.inr ⟨entry, _, r.activeByPane, r.knownAlivePanes, hrow, Or.inr hne, rfl⟩
      · exact Or.inr ⟨entry, _, _, _, hrow, Or.inr hne, rfl⟩
    · next hlive =>
      have hne : entry.liveness ≠ .live := by rw [hlive]; simp
      simp only
      split
      · exact Or.inr ⟨entry, _, r.activeByPane, r.knownAlivePanes, hrow, Or.inr hne, rfl⟩
      · exact Or.inr ⟨entry, _, _, _, hrow, Or.inr hne, rfl⟩

theorem lookup_joinSession {k : AgentKey} {row : AgentSession} {p : String}
    (hrow : r.sessions.lookup k = some row) (hp : row.paneSessionId = some p)
    (hlive : row.liveness = .live) (alive : String × Option String) :
    (r.joinSession crates now alive).sessions.lookup k = some row := by
  rcases joinSession_eq crates now r alive with h | ⟨entry, entry', index, known, hentry, hor, h⟩
  · rw [h, hrow]
  · rw [h]
    change (r.sessions.insert alive.1 entry').lookup k = some row
    rw [Table.lookup_insert_eq, if_neg, hrow]
    rintro rfl
    obtain rfl := Option.some.inj (hrow.symm.trans hentry)
    rcases hor with hnone | hdead
    · rw [hp] at hnone
      exact absurd hnone (by simp)
    · exact hdead hlive

theorem Conflict.joinSession (hc : Conflict r) (alive : String × Option String) :
    Conflict (r.joinSession crates now alive) := by
  obtain ⟨k, row, p, hrow, hp, hlive, hor⟩ := hc
  refine ⟨k, row, p, lookup_joinSession hrow hp hlive alive, hp, hlive, hor.imp id ?_⟩
  rintro ⟨k', row', hne, hrow', hp', hlive'⟩
  exact ⟨k', row', hne, lookup_joinSession hrow' hp' hlive' alive, hp', hlive'⟩

theorem Owned.bind_row (h : Owned r) {r' : AgentSessionRegistry} {C : Prop}
    (hs : r'.sessions = r.sessions.insert key entry')
    (hp : r'.activeByPane = r.activeByPane.insert pane key)
    (hrow : r.sessions.lookup key = some entry) (hnone : entry.paneSessionId = none)
    (hpane : entry'.paneSessionId = some pane) (hlive : entry'.liveness = .live)
    (hC : C ↔ pane ≠ "" ∧ r.activeByPane.lookup pane = none) :
    (C → Owned r') ∧ (¬C → Conflict r') := by
  rw [hC]
  constructor
  · rintro ⟨hne, hfree⟩
    have htake : Owned { (r.demoteOwner key pane 0).setSession key entry' with
        activeByPane :=
          (AgentSessionRegistry.dropOldPane r.activeByPane entry pane).insert pane key } :=
      h.takeover hne (by rw [hrow, Option.bind_some]) hpane hlive
    rw [demoteOwner_eq_self (Or.inl hfree)] at htake
    refine htake.of_eq hs ?_
    rw [hp, AgentSessionRegistry.dropOldPane, hnone]
  · intro hnot
    have hself : r'.sessions.lookup key = some entry' := by
      rw [hs]
      exact AList.lookup_insert _
    refine ⟨key, entry', pane, hself, hpane, hlive, ?_⟩
    by_cases hne : pane = ""
    · exact Or.inl hne
    · obtain ⟨k, hk⟩ := Option.ne_none_iff_exists'.mp fun hfree => hnot ⟨hne, hfree⟩
      obtain ⟨row, hrow', hpane', -, hlive'⟩ := h.owner hk
      have hne' : k ≠ key := by
        rintro rfl
        obtain rfl := Option.some.inj (hrow.symm.trans hrow')
        rw [hnone] at hpane'
        exact absurd hpane' (by simp)
      refine Or.inr ⟨k, row, hne', ?_, hpane', hlive'⟩
      rw [hs, Table.lookup_insert_eq, if_neg hne', hrow']

theorem joinClean_iff {alive : String × Option String}
    (hrow : r.sessions.lookup alive.1 = some entry) :
    JoinClean crates r alive ↔ ∀ pane, alive.2 = some pane → entry.liveness ≠ .ended →
      entry.paneSessionId = none →
      crates.paneKey pane ≠ "" ∧ r.activeByPane.lookup (crates.paneKey pane) = none := by
  have hended : entry.liveness = .ended ↔ entry.status = .ended := by
    unfold AgentSession.liveness
    cases entry.status <;> simp
  unfold JoinClean
  rw [hrow]
  simp only [Option.some.injEq, ne_eq, Crates.paneKey_eq_empty, hended]
  exact ⟨fun hc pane => hc entry pane rfl, fun hc _ pane he => he ▸ hc pane⟩

theorem Owned.joinSession (h : Owned r) (crates : Crates) (now : SystemTime)
    (alive : String × Option String) :
    (JoinClean crates r alive → Owned (r.joinSession crates now alive)) ∧
      (¬JoinClean crates r alive → Conflict (r.joinSession crates now alive)) := by
  cases hrow : r.sessions.lookup alive.1 with
  | none =>
    have hclean : JoinClean crates r alive := fun entry pane he => by
      rw [hrow] at he
      exact absurd he (by simp)
    unfold AgentSessionRegistry.joinSession
    rw [hrow]
    exact ⟨fun _ => h, fun hnot => absurd hclean hnot⟩
  | some entry =>
    have hok := h.rows alive.1 entry hrow
    have huse := hok.status
    rw [joinClean_iff hrow]
    unfold AgentSessionRegistry.joinSession
    simp only [hrow]
    cases hlive : entry.liveness with
    | inUse =>
      unfold AgentSession.liveness at hlive
      cases hs : entry.status <;> simp_all
    | ended =>
      simp only
      exact ⟨fun _ => h, fun hnot => absurd (fun _ _ hne => absurd rfl hne) hnot⟩
    | live =>
      simp only
      cases hpane : entry.paneSessionId with
      | some p =>
        simp only [Option.isSome_some, if_true]
        exact ⟨fun _ => h, fun hnot => absurd (fun _ _ _ he => absurd he (by simp)) hnot⟩
      | none =>
        simp only [Option.isSome_none, Bool.false_eq_true, if_false]
        cases halive : alive.2 with
        | none => exact ⟨fun _ => h, fun hnot => absurd (fun _ he => absurd he (by simp)) hnot⟩
        | some pane =>
          refine h.bind_row rfl rfl hrow hpane rfl hlive ?_
          exact ⟨fun hc => hc pane rfl (by simp) trivial,
            fun hc pane' he _ _ => Option.some.inj he ▸ hc⟩
    | historical =>
      have hnone : entry.paneSessionId = none := by
        by_contra hp
        obtain ⟨p, hp⟩ := Option.ne_none_iff_exists'.mp hp
        have := (hok.pane p hp).2
        rw [hlive] at this
        exact absurd this (by simp)
      simp only
      cases halive : alive.2 with
      | none =>
        refine ⟨fun _ => h.set_none ?_ hnone (by simp),
          fun hnot => absurd (fun _ he => absurd he (by simp)) hnot⟩
        rw [hrow, Option.bind_some, hnone]
      | some pane =>
        refine h.bind_row rfl ?_ hrow hnone rfl rfl ?_
        · simp only [AgentSessionRegistry.dropOldPane, AgentSession.clearActivity, hnone]
        · exact ⟨fun hc => hc pane rfl (by simp) hnone,
            fun hc pane' he _ _ => Option.some.inj he ▸ hc⟩

theorem Owned.applyAliveSessionJoin (h : Owned r) (alive : List (String × Option String)) :
    (Along (AgentSessionRegistry.joinSession crates now) (JoinClean crates) r alive →
      Owned (r.applyAliveSessionJoin crates alive now)) ∧
    (¬Along (AgentSessionRegistry.joinSession crates now) (JoinClean crates) r alive →
      ¬(r.applyAliveSessionJoin crates alive now).OwnsPanes) := by
  unfold AgentSessionRegistry.applyAliveSessionJoin
  have hconflict : ∀ (alive : List (String × Option String)) {r : AgentSessionRegistry},
      Conflict r → Conflict (alive.foldl (AgentSessionRegistry.joinSession crates now) r) := by
    intro alive
    induction alive with
    | nil => exact id
    | cons a alive ih => exact fun hc => ih (hc.joinSession a)
  induction alive generalizing r with
  | nil => exact ⟨fun _ => h, fun hnot => absurd trivial hnot⟩
  | cons a alive ih =>
    obtain ⟨hclean, hbad⟩ := h.joinSession crates now a
    refine ⟨fun ha => (ih (hclean ha.1)).1 ha.2, fun hnot => ?_⟩
    by_cases ha : JoinClean crates r a
    · exact (ih (hclean ha)).2 fun hrest => hnot ⟨ha, hrest⟩
    · exact (hconflict alive (hbad ha)).not_ownsPanes

/-! ### Runs -/

/-- The operations on the registry. -/
inductive HelperOp
  | apply (ev : SessionEvent) (now : SystemTime)
  | alivePaneSnapshot (alivePanes : List String) (now : SystemTime)
  | aliveSessionJoin (alive : List (String × Option String)) (now : SystemTime)
  | masterSessionEnded (sessionId : String) (now : SystemTime)
  | dropSyntheticForPane (paneSessionId : String)
  | remove (key : AgentKey)
  | setOrigin (key : AgentKey) (origin : SessionOrigin)
  | setLocation (key : AgentKey) (location : SessionLocation)

namespace HelperOp

def step (crates : Crates) (r : AgentSessionRegistry) : HelperOp → AgentSessionRegistry
  | apply ev now => r.applyAt crates ev now
  | alivePaneSnapshot alivePanes now => r.applyAlivePaneSnapshot crates alivePanes now
  | aliveSessionJoin alive now => r.applyAliveSessionJoin crates alive now
  | masterSessionEnded sessionId now => r.applyMasterSessionEnded sessionId now
  | dropSyntheticForPane pane => r.dropSyntheticForPane crates pane
  | remove key => r.remove key
  | setOrigin key origin => r.setOrigin key origin
  | setLocation key location => r.setLocation key location

/-- When an operation keeps index and rows in agreement. -/
def Clean (crates : Crates) (r : AgentSessionRegistry) : HelperOp → Prop
  | apply (.resumePaneAssigned key pane) _ => ResumeClean r key (crates.paneKey pane)
  | aliveSessionJoin alive now =>
    Along (AgentSessionRegistry.joinSession crates now) (JoinClean crates) r alive
  | _ => True

theorem owned_step (h : Owned r) (op : HelperOp) (hclean : op.Clean crates r) :
    Owned (op.step crates r) := by
  cases op with
  | apply ev now =>
    cases ev with
    | sessionStarted key cliSource pane cwd title => exact h.sessionStarted cliSource cwd _
    | sessionRenamed key pane title => exact h.sessionRenamed title
    | workingDirectoryChanged key pane cwd => exact h.workingDirectoryChanged cwd
    | toolStarting key toolName => exact h.toolStarting toolName
    | toolCompleted key => exact h.toolCompleted
    | toolReturned key timestampMs => exact h.toolReturned timestampMs
    | notification key message timestampMs => exact h.notification message timestampMs
    | sessionStopped key reason => exact h.sessionStopped reason
    | sessionUnbound key pane => exact h.sessionUnbound
    | sessionStoppedIfOwner key pane reason => exact h.sessionStoppedIfOwner _ reason
    | connectionFailed pane reason => exact h.connectionFailed reason
    | paneClosed pane => exact h.paneClosed
    | resumeDispatched key => exact h.resumeDispatched
    | resumeFailed key reason => exact h.resumeFailed reason
    | resumePaneAssigned key pane => exact h.resumePaneAssigned.1 hclean
  | alivePaneSnapshot alivePanes now => exact h.applyAlivePaneSnapshot crates alivePanes
  | aliveSessionJoin alive now => exact (h.applyAliveSessionJoin alive).1 hclean
  | masterSessionEnded sessionId now => exact h.applyMasterSessionEnded
  | dropSyntheticForPane pane => exact h.dropSyntheticForPane crates
  | remove key => exact h.remove
  | setOrigin key origin => exact h.setOrigin origin
  | setLocation key location => exact h.setLocation location

theorem not_ownsPanes_step (h : Owned r) (op : HelperOp) (hnot : ¬op.Clean crates r) :
    ¬(op.step crates r).OwnsPanes := by
  cases op with
  | apply ev now =>
    cases ev with
    | resumePaneAssigned key pane => exact h.resumePaneAssigned.2 hnot
    | _ => exact absurd trivial hnot
  | aliveSessionJoin alive now => exact (h.applyAliveSessionJoin alive).2 hnot
  | _ => exact absurd trivial hnot

end HelperOp

theorem owned_new : Owned {} :=
  ⟨Table.owns_empty, fun k row hrow => absurd hrow (by rw [AList.lookup_empty]; simp)⟩

/-- Index and rows agree after every operation of a run exactly if every operation is clean. -/
theorem ownsPanes_iff_along_clean (crates : Crates) (ops : List HelperOp) :
    (∀ pre, pre <+: ops → (pre.foldl (HelperOp.step crates) {}).OwnsPanes) ↔
      Along (HelperOp.step crates) (HelperOp.Clean crates) {} ops :=
  forall_isPrefix_iff_along (fun _ h => h.ownsPanes) ops
    (fun _ op _ h => HelperOp.owned_step h op)
    (fun _ op _ h => HelperOp.not_ownsPanes_step h op) owned_new

/-- A callback for a session that has no row ends the owner of the pane, and the index still names
it. -/
theorem resumePaneAssigned_not_ownsPanes :
    ¬([HelperOp.apply (.sessionStarted "a" .copilot "p" [] "") 0,
        HelperOp.apply (.resumePaneAssigned "b" "p") 0].foldl
      (HelperOp.step Crates.ofUuid) {}).OwnsPanes := by
  intro h
  obtain ⟨row, hrow, hpane⟩ := (h.owner_iff "p" "a").mp (by decide)
  have hnone : (([HelperOp.apply (.sessionStarted "a" .copilot "p" [] "") 0,
      HelperOp.apply (.resumePaneAssigned "b" "p") 0].foldl
      (HelperOp.step Crates.ofUuid) {}).sessions.lookup "a").bind (·.paneSessionId) = none := by
    decide
  rw [hrow, Option.bind_some, hpane] at hnone
  exact absurd hnone (by simp)

end IntelligentTerminal.Sessions
