import IntelligentTerminal.Sessions.RegistryFrame

/-!
# A pane that fails to start while its session is bound

When a session is resumed, a new pane is made for it. That the pane failed to start, and that the
pane is the session's, are told by two callers, in either order. If the pane is bound first, the
failure finds it and gives the session back; if the failure comes first, it is remembered and the
binding is rolled back at once.

Both orders end alike, except when the process never started and either the pane's canonical form
is not stable, or the session still claims another pane, or it was given back before with the same
error and keeps what it was doing then.

Source: `tools/wta/src/session_registry.rs`, lines 2720-2767, 3775-3908 and 3947-4008.
-/

namespace IntelligentTerminal.Sessions

variable {crates : Crates} {allowed : Allowed} {s t : RegistryState} {id : SessionIdentity}
  {row : SessionInfo} {p reason : String}
  {owner : Option SessionIdentity} {r : Resume} {pane : String} {failed : Bool} {reason' : String}

/-! ### What is compared -/

/-- What a binding and a failure decide of a session. -/
structure Resume where
  status : Option AgentStatus
  pane : Option String
  lastError : Option String
  currentTool : Option String
  attentionReason : Option String
  bornBoundPane : Bool

/-- What was decided of the session of a row. -/
def SessionInfo.resume (row : SessionInfo) : Resume where
  status := row.status
  pane := row.paneSessionId
  lastError := row.lastError
  currentTool := row.currentTool
  attentionReason := row.attentionReason
  bornBoundPane := row.bornBoundPane

/-- The session is bound to a pane that has not failed. -/
def Resume.bind (r : Resume) (p : String) : Resume :=
  { r with status := some .idle, pane := some p, bornBoundPane := true }

/-- The pane of the session failed after its process had started. -/
def Resume.fail (r : Resume) (reason : String) : Resume :=
  { r with status := some .error, lastError := some reason }

/-- The session is given back, since its pane never started. -/
def Resume.giveBack (reason : String) : Resume where
  status := some .historical
  pane := none
  lastError := some reason
  currentTool := none
  attentionReason := none
  bornBoundPane := false

/-- What became of a session and of the pane `p`, in relation to the state before. -/
structure Outcome (s t : RegistryState) (id : SessionIdentity) (p : String) (r : Resume)
    (owner : Option SessionIdentity) (failed : Bool) : Prop where
  row : ∃ row, t.sessions.lookup id = some row ∧ row.resume = r
  owners : ∀ q, t.activeByPane.lookup q = if q = p then owner else s.activeByPane.lookup q
  failed : ∀ x, x ∈ t.failedResumeAssignments ↔
    x ∈ s.failedResumeAssignments ∨ (failed = true ∧ x = (id, p))
  connections : t.paneConnections = s.paneConnections

/-- A session without a pane, and a pane of which nothing is known but how its connection failed. -/
structure Unbound (s : RegistryState) (id : SessionIdentity) (row : SessionInfo) (p : String) :
    Prop where
  lookup : s.sessions.lookup id = some row
  status : row.status ∈ [some AgentStatus.idle, some .ended, some .historical]
  owns : ∀ q, s.activeByPane.lookup q ≠ some id
  owner : s.activeByPane.lookup p = none
  native : s.nativePanes.lookup p = none
  failed : (id, p) ∉ s.failedResumeAssignments

namespace Outcome

variable {u : RegistryState} {r r' : Resume} {owner owner' : Option SessionIdentity}
  {failed failed' : Bool}

theorem trans (h : Outcome s t id p r owner failed) (h' : Outcome t u id p r' owner' failed') :
    Outcome s u id p r' owner' (failed || failed') := by
  refine ⟨h'.row, fun q => ?_, fun x => ?_, h'.connections.trans h.connections⟩
  · rw [h'.owners, h.owners]
    split_ifs <;> rfl
  · rw [h'.failed, h.failed, Bool.or_eq_true, or_and_right, or_assoc]

theorem of_eq (h : Outcome s t id p r owner failed) (hrow : u.sessions = t.sessions)
    (howners : u.activeByPane = t.activeByPane)
    (hfailed : u.failedResumeAssignments = t.failedResumeAssignments)
    (hconnections : u.paneConnections = t.paneConnections) :
    Outcome s u id p r owner failed := by
  refine ⟨?_, ?_, ?_, hconnections.trans h.connections⟩
  · rw [hrow]
    exact h.row
  · rw [howners]
    exact h.owners
  · rw [hfailed]
    exact h.failed

end Outcome

/-- The failure of a pane is noted. -/
def RegistryState.noteFailure (s : RegistryState) (p : String) (started : Option Bool)
    (reason : String) : RegistryState :=
  { s with paneConnections := s.paneConnections.insert p (.failed started reason) }

theorem Outcome.noteFailure
    (h : Outcome s t id p r owner failed) (started : Option Bool) (reason : String) :
    Outcome (s.noteFailure p started reason) (t.noteFailure p started reason) id p r owner
      failed :=
  ⟨h.row, h.owners, h.failed, by
    rw [RegistryState.noteFailure, RegistryState.noteFailure, h.connections]⟩

/-! ### The pane is bound -/

theorem releasePane_of_owns (howns : ∀ q, s.activeByPane.lookup q ≠ some id)
    (pane : Option String) : s.releasePane crates id pane = s := by
  unfold RegistryState.releasePane
  split
  · rfl
  · exact if_neg (howns _)

theorem dropOldPane_of_owns (howns : ∀ q, s.activeByPane.lookup q ≠ some id)
    (old : Option String) : s.dropOldPane crates id old p = s := by
  unfold RegistryState.dropOldPane
  split
  · rfl
  · exact if_neg fun h => howns _ h.2

theorem mark_of_isOver (h : Unbound s id row p) (hover : row.isOver) (clock : ℕ) :
    (s.markResumeDispatchedIdentityLocked crates id clock).1 =
      s.advanceCwdRevision.setRow id
        { row with
          paneSessionId := none, bornBoundPane := false, boundPid := none, status := some .idle
          cwdEvidence := { row.cwdEvidence with revision := s.newRevision }
          lastActivityAtMs := some clock } := by
  have hrow : s.advanceCwdRevision.sessions.lookup id = some row := h.lookup
  have howns : ∀ q, s.advanceCwdRevision.activeByPane.lookup q ≠ some id := h.owns
  simp only [RegistryState.markResumeDispatchedIdentityLocked, hrow, hover, if_true,
    releasePane_of_owns howns]
  rfl

theorem mark_of_not_isOver (h : Unbound s id row p) (hover : row.isOver = false) (clock : ℕ) :
    (s.markResumeDispatchedIdentityLocked crates id clock).1 = s.advanceCwdRevision := by
  have hrow : s.advanceCwdRevision.sessions.lookup id = some row := h.lookup
  simp only [RegistryState.markResumeDispatchedIdentityLocked, hrow, hover, Bool.false_eq_true,
    if_false]

theorem status_of_not_isOver (h : Unbound s id row p) (hover : row.isOver = false) :
    row.status = some .idle := by
  have := h.status
  simp only [SessionInfo.isOver] at hover
  simp only [List.mem_cons, List.not_mem_nil, or_false] at this
  rcases this with h | h | h
  · exact h
  · simp [h] at hover
  · simp [h] at hover

variable (crates) in
theorem movePane_outcome {entry : SessionInfo} (howns : ∀ q, s.activeByPane.lookup q ≠ some id)
    (hnative : s.nativePanes.lookup p = none) (hstatus : entry.status = some .idle) (now : ℕ) :
    Outcome s (s.movePane crates id entry p now) id p (entry.resume.bind p) (some id) false := by
  have hlink : ∀ u : RegistryState, u.nativePanes.lookup p = none →
      u.linkNativePane crates id p entry.lastActivityAtMs = u := by
    intro u hu
    simp only [RegistryState.linkNativePane, hu]
  unfold RegistryState.movePane
  simp only [dropOldPane_of_owns howns]
  rw [hlink _ (by
    rw [RegistryState.forgetInferred, Table.lookup_mapValues]
    exact Option.map_eq_none_iff.mpr hnative)]
  refine ⟨⟨_, AList.lookup_insert _, ?_⟩, fun q => Table.lookup_insert_eq _ _ _ _, fun x => ?_, rfl⟩
  · simp only [SessionInfo.resume, Resume.bind, hstatus]
  · exact ⟨.inl, fun hx => hx.resolve_right (by simp)⟩

variable (crates) in
theorem exists_entry (h : Unbound s id row p) (hmoves : row.isOver ∨ row.paneSessionId ≠ some p)
    (now clock : ℕ) :
    ∃ u entry, ((s.markResumeDispatchedIdentityLocked crates id clock).1.endCompetitor crates id p
        now).advanceCwdRevision = u ∧ u.sessions.lookup id = some entry ∧
      entry.paneSessionId ≠ some p ∧ entry.status = some .idle ∧
      entry.resume.bind p = row.resume.bind p ∧ u.activeByPane = s.activeByPane ∧
      u.nativePanes = s.nativePanes ∧ u.paneConnections = s.paneConnections ∧
      u.failedResumeAssignments = s.failedResumeAssignments := by
  have hcompetitor : ∀ u : RegistryState, u.activeByPane = s.activeByPane →
      u.endCompetitor crates id p now = u := by
    intro u hu
    rw [RegistryState.endCompetitor, hu, h.owner]
  by_cases hover : row.isOver
  · rw [mark_of_isOver h hover, hcompetitor]
    · refine ⟨_, _, rfl, AList.lookup_insert _, ?_, rfl, rfl, rfl, rfl, rfl, rfl⟩
      simp
    · rfl
  · have hover' : row.isOver = false := by simpa using hover
    rw [mark_of_not_isOver h hover', hcompetitor]
    · exact ⟨_, row, rfl, h.lookup, hmoves.resolve_left hover, status_of_not_isOver h hover', rfl,
        rfl, rfl, rfl, rfl⟩
    · rfl

variable (crates) in
theorem bindResumePane_moves (h : Unbound s id row p)
    (hmoves : row.isOver ∨ row.paneSessionId ≠ some p) (now clock : ℕ) :
    ∃ v, Outcome s v id p (row.resume.bind p) (some id) false ∧
      s.bindResumePane crates id p now clock =
        match s.paneConnections.lookup p with
        | some (.failed _ reason) => ((v.applyConnectionFailureLocked crates p reason now).1, true)
        | _ => (v, true) := by
  obtain ⟨u, entry, hu, hentry, hpane, hstatus, hresume, howners, hnative, hconn, hfailed⟩ :=
    exists_entry crates h hmoves now clock
  have howns : ∀ q, u.activeByPane.lookup q ≠ some id := by
    rw [howners]
    exact h.owns
  have hmove := movePane_outcome crates howns (by rw [hnative]; exact h.native)
    hstatus now
  refine ⟨u.movePane crates id entry p now, ?_, ?_⟩
  · rw [← hresume]
    refine ⟨hmove.row, ?_, ?_, hmove.connections.trans hconn⟩
    · rw [← howners]
      exact hmove.owners
    · rw [← hfailed]
      exact hmove.failed
  · have hplaced := RegistryState.placeSession_of_moves crates hu hentry hpane now
      ((s.markResumeDispatchedIdentityLocked crates id clock).2.any (·.1))
    rw [hmove.connections, hconn] at hplaced
    exact hplaced

variable (crates) in
theorem bindResumePane_stays (h : Unbound s id row p) (hover : row.isOver = false)
    (hpane : row.paneSessionId = some p) (now clock : ℕ) :
    Outcome s (s.bindResumePane crates id p now clock).1 id p row.resume none false := by
  have hrow : s.advanceCwdRevision.advanceCwdRevision.sessions.lookup id = some row := h.lookup
  have hcompetitor : s.advanceCwdRevision.endCompetitor crates id p now = s.advanceCwdRevision := by
    have howner : s.advanceCwdRevision.activeByPane.lookup p = none := h.owner
    rw [RegistryState.endCompetitor, howner]
  rw [RegistryState.bindResumePane_eq, mark_of_not_isOver h hover, hcompetitor]
  simp only [RegistryState.placeSession, hrow, if_pos hpane]
  refine ⟨⟨row, h.lookup, rfl⟩, fun q => ?_, fun x => ?_, rfl⟩
  · split_ifs with hq
    · rw [hq]
      exact h.owner
    · rfl
  · exact ⟨.inl, fun hx => hx.resolve_right (by simp)⟩

/-! ### The failure finds the session -/

variable (crates reason) in
theorem applyFailure_started {started : Option Bool}
    (hrow : ∃ row, s.sessions.lookup id = some row ∧ row.resume = r.bind p)
    (howner : s.activeByPane.lookup p = some id)
    (hconn : s.paneConnections.lookup p = some (.failed started reason'))
    (hstarted : started ≠ some false) (now : ℕ) :
    Outcome s (s.applyConnectionFailureLocked crates p reason now).1 id p
      ((r.bind p).fail reason) (some id) false := by
  obtain ⟨row, hrow, hresume⟩ := hrow
  have hstatus : row.status = some .idle := congrArg Resume.status hresume
  unfold RegistryState.applyConnectionFailureLocked
  simp only [howner]
  rw [if_neg (by
    rintro ⟨_, hunstarted⟩
    rw [hconn, Option.any_some] at hunstarted
    split at hunstarted
    · next heq =>
      cases heq
      exact absurd rfl hstarted
    · exact absurd hunstarted (by simp))]
  simp only [hrow]
  rw [if_neg (by simp [hstatus])]
  refine ⟨⟨_, AList.lookup_insert _, ?_⟩, fun q => ?_, fun x => ?_, rfl⟩
  · rw [← hresume]
    rfl
  · split_ifs with hq
    · rw [hq]
      exact howner
    · rfl
  · exact ⟨.inl, fun hx => hx.resolve_right (by simp)⟩

variable (crates reason) in
theorem restore_row (hrow : s.sessions.lookup id = some row)
    (hnew : ¬(row.status = some .historical ∧ row.paneSessionId = none ∧
      row.lastError = some reason)) (now : ℕ) :
    (∃ row', (s.restoreFailedResumeIdentityLocked crates id reason now).1.sessions.lookup id =
      some row' ∧ row'.resume = .giveBack reason) ∧
    (s.restoreFailedResumeIdentityLocked crates id reason now).1.activeByPane =
      (s.releasePane crates id row.paneSessionId).activeByPane ∧
    (s.restoreFailedResumeIdentityLocked crates id reason now).1.failedResumeAssignments =
      s.failedResumeAssignments ∧
    (s.restoreFailedResumeIdentityLocked crates id reason now).1.paneConnections =
      s.paneConnections := by
  have hrow' : s.advanceCwdRevision.sessions.lookup id = some row := hrow
  have hall : ¬((s.sessions.lookup id).all fun entry =>
      entry.status = some .historical ∧ entry.paneSessionId = none ∧
        entry.lastError = some reason) := by
    rw [hrow]
    simpa using hnew
  unfold RegistryState.restoreFailedResumeIdentityLocked RegistryState.endEntry
  simp only [if_neg hall, hrow', RegistryState.setRow, AList.lookup_insert]
  have hadvance : s.advanceCwdRevision.activeByPane = s.activeByPane := rfl
  rw [releasePane_eq]
  exact ⟨⟨_, rfl, rfl⟩, releasePane_activeByPane hadvance id _, rfl, rfl⟩

variable (crates reason) in
theorem applyFailure_unstarted
    (hrow : ∃ row, s.sessions.lookup id = some row ∧ row.resume = r.bind p)
    (howner : s.activeByPane.lookup p = some id)
    (howns : ∀ q, q ≠ p → s.activeByPane.lookup q ≠ some id)
    (hconn : s.paneConnections.lookup p = some (.failed (some false) reason')) (now : ℕ) :
    Outcome s (s.applyConnectionFailureLocked crates p reason now).1 id p (.giveBack reason)
      (if crates.paneKey p = p then none else some id) true := by
  obtain ⟨row, hrow, hresume⟩ := hrow
  have hstatus : row.status = some .idle := congrArg Resume.status hresume
  have hborn : row.bornBoundPane = true := congrArg Resume.bornBoundPane hresume
  have hpane : row.paneSessionId = some p := congrArg Resume.pane hresume
  have hnew : ¬(row.status = some .historical ∧ row.paneSessionId = none ∧
      row.lastError = some reason) := by simp [hstatus]
  obtain ⟨hrestored, howners, hfailed, hconns⟩ := restore_row crates reason hrow hnew now
  unfold RegistryState.applyConnectionFailureLocked
  simp only [howner, hrow, hconn, Option.any_some, hborn, hstatus]
  rw [if_pos (by simp)]
  refine ⟨hrestored, fun q => ?_, fun x => ?_, hconns⟩
  · change AList.lookup q (s.restoreFailedResumeIdentityLocked crates id reason now).1.activeByPane
      = _
    rw [howners, hpane, RegistryState.releasePane]
    by_cases hstable : crates.paneKey p = p
    · rw [hstable, if_pos howner, if_pos rfl, Table.lookup_erase_eq]
    · rw [if_neg (howns _ hstable), if_neg hstable]
      split_ifs with hq
      · rw [hq]
        exact howner
      · rfl
  · change x ∈ List.insert _ (s.restoreFailedResumeIdentityLocked crates id reason
      now).1.failedResumeAssignments ↔ _
    rw [hfailed, List.mem_insert_iff]
    simp [or_comm]

/-! ### The two orders -/

/-- `assign_resume_pane_identity`, then `record_pane_connection_failure`. -/
def bindThenFail (crates : Crates) (s : RegistryState) (id : SessionIdentity) (pane reason : String)
    (started : Option Bool) (now later : ℕ) : RegistryState :=
  ((s.assignResumePaneIdentityLocked crates id pane now now).1.recordPaneConnectionFailure crates
    pane reason started later).1

/-- `record_pane_connection_failure`, then `assign_resume_pane_identity`. -/
def failThenBind (crates : Crates) (s : RegistryState) (id : SessionIdentity) (pane reason : String)
    (started : Option Bool) (now later : ℕ) : RegistryState :=
  ((s.recordPaneConnectionFailure crates pane reason started now).1.assignResumePaneIdentityLocked
    crates id pane later later).1

theorem recordFailure_eq (hconn : s.paneConnections.lookup (crates.paneKey pane) =
    none) (started : Option Bool) (now : ℕ) :
    (s.recordPaneConnectionFailure crates pane reason started now).1 =
      (((s.noteFailure (crates.paneKey pane) started reason).applyConnectionFailureLocked crates
        (crates.paneKey pane) reason now).1).reconcileNative (crates.paneKey pane) := by
  unfold RegistryState.recordPaneConnectionFailure
  simp only [hconn, RegistryState.processStarted, RegistryState.noteFailure]

theorem assign_eq (h : Unbound s id row (crates.paneKey pane))
    (hconn : ∀ reason, s.paneConnections.lookup (crates.paneKey pane) ≠
      some (.failed (some false) reason)) (now : ℕ) :
    s.assignResumePaneIdentityLocked crates id pane now now =
      s.bindResumePane crates id (crates.paneKey pane) now now := by
  unfold RegistryState.assignResumePaneIdentityLocked
  -- the second branch is taken by `hconn`
  simp only [h.lookup, if_neg h.failed]

theorem recordFailure_unowned (h : Unbound s id row (crates.paneKey pane))
    (hconn : s.paneConnections.lookup (crates.paneKey pane) = none) (started : Option Bool)
    (now : ℕ) :
    (s.recordPaneConnectionFailure crates pane reason started now).1 =
      (s.noteFailure (crates.paneKey pane) started reason).reconcileNative (crates.paneKey pane) := by
  have howner : (s.noteFailure (crates.paneKey pane) started reason).activeByPane.lookup
      (crates.paneKey pane) = none := h.owner
  rw [recordFailure_eq hconn]
  simp only [RegistryState.applyConnectionFailureLocked, howner]

theorem unbound_noteFailure (h : Unbound s id row p) (started : Option Bool) (reason : String) :
    Unbound ((s.noteFailure p started reason).reconcileNative p) id row p := by
  refine ⟨h.lookup, h.status, h.owns, h.owner, ?_, h.failed⟩
  unfold RegistryState.reconcileNative
  simp only [Table.lookup_adjust, if_true]
  exact Option.map_eq_none_iff.mpr h.native

variable {pane : String} {started : Option Bool}

theorem bindThenFail_started (h : Unbound s id row (crates.paneKey pane))
    (hconn : s.paneConnections.lookup (crates.paneKey pane) = none)
    (hmoves : row.isOver ∨ row.paneSessionId ≠ some (crates.paneKey pane))
    (hstarted : started ≠ some false) (now later : ℕ) :
    Outcome (s.noteFailure (crates.paneKey pane) started reason)
      (bindThenFail crates s id pane reason started now later) id (crates.paneKey pane)
      ((row.resume.bind (crates.paneKey pane)).fail reason) (some id) false := by
  obtain ⟨v, hv, heq⟩ := bindResumePane_moves crates h hmoves now now
  rw [bindThenFail, assign_eq h (by simp [hconn]), heq, hconn,
    recordFailure_eq (by rw [hv.connections, hconn])]
  have hnoted := hv.noteFailure started reason
  have hfails := applyFailure_started crates reason hnoted.row
    ((hnoted.owners _).trans (if_pos rfl))
    (AList.lookup_insert v.paneConnections) hstarted later
  exact (hnoted.trans hfails).of_eq rfl rfl rfl rfl

variable (crates reason) in
theorem bindThenFail_unstarted (h : Unbound s id row (crates.paneKey pane))
    (hconn : s.paneConnections.lookup (crates.paneKey pane) = none)
    (hmoves : row.isOver ∨ row.paneSessionId ≠ some (crates.paneKey pane)) (now later : ℕ) :
    Outcome (s.noteFailure (crates.paneKey pane) (some false) reason)
      (bindThenFail crates s id pane reason (some false) now later) id (crates.paneKey pane)
      (.giveBack reason)
      (if crates.paneKey (crates.paneKey pane) = crates.paneKey pane then none else some id)
      true := by
  obtain ⟨v, hv, heq⟩ := bindResumePane_moves crates h hmoves now now
  rw [bindThenFail, assign_eq h (by simp [hconn]), heq, hconn,
    recordFailure_eq (by rw [hv.connections, hconn])]
  have hnoted := hv.noteFailure (some false) reason
  have howns : ∀ q, q ≠ crates.paneKey pane →
      (v.noteFailure (crates.paneKey pane) (some false) reason).activeByPane.lookup q ≠ some id := by
    intro q hq
    rw [hnoted.owners, if_neg hq]
    exact h.owns q
  have hfails := applyFailure_unstarted crates reason hnoted.row
    ((hnoted.owners _).trans (if_pos rfl)) howns (AList.lookup_insert v.paneConnections) later
  exact (hnoted.trans hfails).of_eq rfl rfl rfl rfl

variable (crates reason) in
theorem bindThenFail_stays (h : Unbound s id row (crates.paneKey pane))
    (hconn : s.paneConnections.lookup (crates.paneKey pane) = none) (hover : row.isOver = false)
    (hpane : row.paneSessionId = some (crates.paneKey pane)) (now later : ℕ) :
    Outcome (s.noteFailure (crates.paneKey pane) started reason)
      (bindThenFail crates s id pane reason started now later) id (crates.paneKey pane)
      row.resume none false := by
  have hstays := bindResumePane_stays crates h hover hpane now now
  rw [bindThenFail, assign_eq h (by simp [hconn]),
    recordFailure_eq (by rw [hstays.connections, hconn])]
  have hnoted := hstays.noteFailure started reason
  simp only [RegistryState.applyConnectionFailureLocked, (hnoted.owners _).trans (if_pos rfl)]
  exact hnoted.of_eq rfl rfl rfl rfl

theorem failThenBind_started (h : Unbound s id row (crates.paneKey pane))
    (hconn : s.paneConnections.lookup (crates.paneKey pane) = none)
    (hmoves : row.isOver ∨ row.paneSessionId ≠ some (crates.paneKey pane))
    (hstarted : started ≠ some false) (now later : ℕ) :
    Outcome (s.noteFailure (crates.paneKey pane) started reason)
      (failThenBind crates s id pane reason started now later) id (crates.paneKey pane)
      ((row.resume.bind (crates.paneKey pane)).fail reason) (some id) false := by
  have hunbound := unbound_noteFailure h started reason
  have hlookup : ((s.noteFailure (crates.paneKey pane) started reason).reconcileNative
      (crates.paneKey pane)).paneConnections.lookup (crates.paneKey pane) =
        some (.failed started reason) := AList.lookup_insert s.paneConnections
  obtain ⟨v, hv, heq⟩ := bindResumePane_moves crates hunbound hmoves later later
  rw [failThenBind, recordFailure_unowned h hconn, assign_eq hunbound (by simp [hlookup, hstarted]),
    heq, hlookup]
  have hfails := applyFailure_started crates reason hv.row
    ((hv.owners _).trans (if_pos rfl)) (by rw [hv.connections, hlookup]) hstarted later
  have hboth := hv.trans hfails
  exact ⟨hboth.row, hboth.owners, hboth.failed, hboth.connections⟩

theorem failThenBind_stays (h : Unbound s id row (crates.paneKey pane))
    (hconn : s.paneConnections.lookup (crates.paneKey pane) = none) (hover : row.isOver = false)
    (hpane : row.paneSessionId = some (crates.paneKey pane)) (hstarted : started ≠ some false)
    (now later : ℕ) :
    Outcome (s.noteFailure (crates.paneKey pane) started reason)
      (failThenBind crates s id pane reason started now later) id (crates.paneKey pane)
      row.resume none false := by
  have hunbound := unbound_noteFailure h started reason
  have hlookup : ((s.noteFailure (crates.paneKey pane) started reason).reconcileNative
      (crates.paneKey pane)).paneConnections.lookup (crates.paneKey pane) =
        some (.failed started reason) := AList.lookup_insert s.paneConnections
  rw [failThenBind, recordFailure_unowned h hconn, assign_eq hunbound (by simp [hlookup, hstarted])]
  have hstays := bindResumePane_stays crates hunbound hover hpane later later
  exact ⟨hstays.row, hstays.owners, hstays.failed, hstays.connections⟩

theorem failThenBind_unstarted (h : Unbound s id row (crates.paneKey pane))
    (hconn : s.paneConnections.lookup (crates.paneKey pane) = none) (now later : ℕ) :
    failThenBind crates s id pane reason (some false) now later =
      if (row.paneSessionId.any fun q =>
          q ≠ crates.paneKey pane ∨ !row.bornBoundPane ∨ row.status = some .working ∨
            row.status = some .attention) ∧ row.isLive then
        (s.noteFailure (crates.paneKey pane) (some false) reason).reconcileNative
          (crates.paneKey pane)
      else
        let t := (((s.noteFailure (crates.paneKey pane) (some false) reason).reconcileNative
          (crates.paneKey pane)).restoreFailedResumeIdentityLocked crates id reason later).1
        { t with
          failedResumeAssignments := t.failedResumeAssignments.insert (id, crates.paneKey pane) } := by
  have hunbound := unbound_noteFailure h (some false) reason
  have hlookup : ((s.noteFailure (crates.paneKey pane) (some false) reason).reconcileNative
      (crates.paneKey pane)).paneConnections.lookup (crates.paneKey pane) =
        some (.failed (some false) reason) := AList.lookup_insert s.paneConnections
  rw [failThenBind, recordFailure_unowned h hconn]
  unfold RegistryState.assignResumePaneIdentityLocked
  simp only [hunbound.lookup, if_neg hunbound.failed, hlookup]
  split_ifs <;> rfl

theorem not_refused (hfree : row.paneSessionId = none ∨ row.isOver) :
    ¬((row.paneSessionId.any fun q =>
      q ≠ p ∨ !row.bornBoundPane ∨ row.status = some .working ∨ row.status = some .attention) ∧
        row.isLive) := by
  rintro ⟨hpane, hlive⟩
  rcases hfree with hfree | hover
  · rw [hfree] at hpane
    exact absurd hpane (by simp)
  · simp only [SessionInfo.isOver, SessionInfo.isLive, decide_eq_true_eq, List.mem_cons,
      List.not_mem_nil, or_false] at hover hlive
    rcases hover with h | h <;> simp [h] at hlive

theorem failThenBind_restores (h : Unbound s id row (crates.paneKey pane))
    (hconn : s.paneConnections.lookup (crates.paneKey pane) = none)
    (hfree : row.paneSessionId = none ∨ row.isOver)
    (hnew : ¬(row.status = some .historical ∧ row.paneSessionId = none ∧
      row.lastError = some reason)) (now later : ℕ) :
    Outcome (s.noteFailure (crates.paneKey pane) (some false) reason)
      (failThenBind crates s id pane reason (some false) now later) id (crates.paneKey pane)
      (.giveBack reason) none true := by
  have hunbound := unbound_noteFailure h (some false) reason
  obtain ⟨hrestored, howners, hfailed, hconns⟩ :=
    restore_row crates reason hunbound.lookup hnew later
  rw [releasePane_of_owns hunbound.owns] at howners
  rw [failThenBind_unstarted h hconn, if_neg (not_refused hfree)]
  refine ⟨hrestored, fun q => ?_, fun x => ?_, hconns⟩
  · refine (congrArg (AList.lookup q) howners).trans ?_
    split_ifs with hq
    · rw [hq]
      exact h.owner
    · rfl
  · rw [List.mem_insert_iff, hfailed, or_comm]
    simp only [true_and]
    rfl

variable (crates) in
theorem failThenBind_restored (h : Unbound s id row (crates.paneKey pane))
    (hconn : s.paneConnections.lookup (crates.paneKey pane) = none)
    (hold : row.status = some .historical ∧ row.paneSessionId = none ∧
      row.lastError = some reason) (now later : ℕ) :
    Outcome (s.noteFailure (crates.paneKey pane) (some false) reason)
      (failThenBind crates s id pane reason (some false) now later) id (crates.paneKey pane)
      row.resume none true := by
  have hunbound := unbound_noteFailure h (some false) reason
  have hall : ((s.noteFailure (crates.paneKey pane) (some false) reason).reconcileNative
      (crates.paneKey pane)).restoreFailedResumeIdentityLocked crates id reason later =
        ((s.noteFailure (crates.paneKey pane) (some false) reason).reconcileNative
          (crates.paneKey pane), false) := by
    unfold RegistryState.restoreFailedResumeIdentityLocked
    rw [hunbound.lookup, Option.all_some, if_pos (by simpa using hold)]
  rw [failThenBind_unstarted h hconn, if_neg (not_refused (.inl hold.2.1)), hall]
  refine ⟨⟨row, h.lookup, rfl⟩, fun q => ?_, fun x => ?_, rfl⟩
  · split_ifs with hq
    · rw [hq]
      exact h.owner
    · rfl
  · rw [List.mem_insert_iff, or_comm]
    simp only [true_and]
    rfl

/-! ### What a failed assignment leaves -/

theorem failed_subset_write (hw : Write crates allowed s t) :
    s.failedResumeAssignments ⊆ t.failedResumeAssignments := by
  cases hw with
  | aside _ _ _ _ _ _ hfailed => exact hfailed
  | release => rw [releasePane_eq]; exact List.Subset.refl _
  | bind => rw [dropOldPane_eq]; exact List.Subset.refl _
  | remove id =>
    cases hrow : s.sessions.lookup id with
    | none =>
      simp only [RegistryState.removeIdentityLocked, hrow]
      exact List.Subset.refl _
    | some row =>
      rw [removeIdentityLocked_eq hrow]
      exact List.Subset.refl _
  | upsert => rw [upsertLocked_eq]; exact List.Subset.refl _
  | _ => exact List.Subset.refl _

theorem failed_subset (hw : Writes crates allowed s t) :
    s.failedResumeAssignments ⊆ t.failedResumeAssignments := by
  induction hw with
  | refl => exact List.Subset.refl _
  | tail _ hlast ih => exact List.Subset.trans ih (failed_subset_write hlast)

theorem failed_subset_run (ops : List RegistryOp) (s : RegistryState) :
    s.failedResumeAssignments ⊆ (ops.foldl (RegistryOp.step crates) s).failedResumeAssignments := by
  induction ops generalizing s with
  | nil => exact List.Subset.refl _
  | cons op ops ih =>
    have hw : Writes crates Allowed.all s (op.step crates s) :=
      op.writes s (fun _ _ => trivial) (fun _ _ => trivial) (fun _ => trivial) (fun _ => trivial)
    exact List.Subset.trans (failed_subset hw) (ih _)

theorem assign_of_failed (h : (id, crates.paneKey pane) ∈ s.failedResumeAssignments) (now : ℕ) :
    s.assignResumePaneIdentityLocked crates id pane now now = (s, false) := by
  unfold RegistryState.assignResumePaneIdentityLocked
  split
  · rfl
  · exact if_pos h

/-! ### Both orders end alike -/

/-- The states agree on the session, the owners of panes, the connections and the failed
assignments. -/
structure SameResume (id : SessionIdentity) (t u : RegistryState) : Prop where
  row : (t.sessions.lookup id).map SessionInfo.resume = (u.sessions.lookup id).map SessionInfo.resume
  owners : ∀ q, t.activeByPane.lookup q = u.activeByPane.lookup q
  connections : ∀ q, t.paneConnections.lookup q = u.paneConnections.lookup q
  failed : ∀ x, x ∈ t.failedResumeAssignments ↔ x ∈ u.failedResumeAssignments

/-- The session is in the history again, with the error, and its assignment to the pane is refused
from now on. -/
structure GivenBack (crates : Crates) (id : SessionIdentity) (pane reason : String)
    (t : RegistryState) : Prop where
  row : ∃ row, t.sessions.lookup id = some row ∧ row.status = some .historical ∧
    row.lastError = some reason ∧ row.paneSessionId = none
  refused : ∀ (ops : List RegistryOp) now, (ops.foldl (RegistryOp.step crates) t).assignResumePaneIdentityLocked crates
    id pane now now = (ops.foldl (RegistryOp.step crates) t, false)

/-- The binding and the failure commute. -/
structure Commutes (crates : Crates) (s : RegistryState) (id : SessionIdentity)
    (pane reason : String) (started : Option Bool) : Prop where
  same : ∀ now later now' later', SameResume id
    (bindThenFail crates s id pane reason started now later)
    (failThenBind crates s id pane reason started now' later')
  givenBack : started = some false → ∀ now later,
    GivenBack crates id pane reason (bindThenFail crates s id pane reason started now later) ∧
      GivenBack crates id pane reason (failThenBind crates s id pane reason started now later)

theorem SameResume.of_outcomes {u : RegistryState} (h : Outcome s t id p r owner failed)
    (h' : Outcome s u id p r owner failed) :
    SameResume id t u := by
  refine ⟨?_, fun q => ?_, fun q => ?_, fun x => ?_⟩
  · obtain ⟨row, hrow, hresume⟩ := h.row
    obtain ⟨row', hrow', hresume'⟩ := h'.row
    rw [hrow, hrow', Option.map_some, Option.map_some, hresume, hresume']
  · rw [h.owners, h'.owners]
  · rw [h.connections, h'.connections]
  · rw [h.failed, h'.failed]

theorem GivenBack.of_outcome
    (h : Outcome s t id (crates.paneKey pane) (.giveBack reason) owner true) :
    GivenBack crates id pane reason t := by
  obtain ⟨row, hrow, hresume⟩ := h.row
  refine ⟨⟨row, hrow, congrArg Resume.status hresume, congrArg Resume.lastError hresume,
    congrArg Resume.pane hresume⟩, fun ops now => ?_⟩
  refine assign_of_failed (failed_subset_run ops t ?_) now
  exact (h.failed _).mpr (.inr ⟨rfl, rfl⟩)

/-- What a session needs for the orders to end alike if the process never started. -/
structure GivesBackClean (crates : Crates) (row : SessionInfo) (pane reason : String) : Prop where
  stable : crates.paneKey (crates.paneKey pane) = crates.paneKey pane
  free : row.paneSessionId = none ∨ row.isOver
  clean : row.status = some .historical → row.paneSessionId = none → row.lastError = some reason →
    row.currentTool = none ∧ row.attentionReason = none ∧ row.bornBoundPane = false

theorem resume_of_clean (hclean : GivesBackClean crates row pane reason)
    (hold : row.status = some .historical ∧ row.paneSessionId = none ∧
      row.lastError = some reason) : row.resume = .giveBack reason := by
  obtain ⟨hstatus, hpane, herror⟩ := hold
  obtain ⟨htool, hattention, hborn⟩ := hclean.clean hstatus hpane herror
  simp only [SessionInfo.resume, Resume.giveBack, hstatus, hpane, herror, htool, hattention, hborn]

theorem commutes_of_clean (h : Unbound s id row (crates.paneKey pane))
    (hconn : s.paneConnections.lookup (crates.paneKey pane) = none)
    (hclean : GivesBackClean crates row pane reason) :
    Commutes crates s id pane reason (some false) := by
  have hmoves : row.isOver ∨ row.paneSessionId ≠ some (crates.paneKey pane) := by
    rcases hclean.free with hfree | hover
    · exact .inr (by simp [hfree])
    · exact .inl hover
  have hbind : ∀ now later, Outcome (s.noteFailure (crates.paneKey pane) (some false) reason)
      (bindThenFail crates s id pane reason (some false) now later) id (crates.paneKey pane)
      (.giveBack reason) none true := by
    intro now later
    have := bindThenFail_unstarted crates reason h hconn hmoves now later
    rwa [if_pos hclean.stable] at this
  have hfail : ∀ now later, Outcome (s.noteFailure (crates.paneKey pane) (some false) reason)
      (failThenBind crates s id pane reason (some false) now later) id (crates.paneKey pane)
      (.giveBack reason) none true := by
    intro now later
    by_cases hold : row.status = some .historical ∧ row.paneSessionId = none ∧
        row.lastError = some reason
    · have := failThenBind_restored crates h hconn hold now later
      rwa [resume_of_clean hclean hold] at this
    · exact failThenBind_restores h hconn hclean.free hold now later
  exact ⟨fun now later now' later' => .of_outcomes (hbind now later) (hfail now' later'),
    fun _ now later => ⟨.of_outcome (hbind now later), .of_outcome (hfail now later)⟩⟩

theorem commutes_of_started (h : Unbound s id row (crates.paneKey pane))
    (hconn : s.paneConnections.lookup (crates.paneKey pane) = none)
    (hstarted : started ≠ some false) : Commutes crates s id pane reason started := by
  refine ⟨fun now later now' later' => ?_, fun hfalse => absurd hfalse hstarted⟩
  by_cases hmoves : row.isOver ∨ row.paneSessionId ≠ some (crates.paneKey pane)
  · exact .of_outcomes (bindThenFail_started h hconn hmoves hstarted now later)
      (failThenBind_started h hconn hmoves hstarted now' later')
  · rw [not_or, not_not] at hmoves
    have hover : row.isOver = false := by simpa using hmoves.1
    exact .of_outcomes (bindThenFail_stays crates reason h hconn hover hmoves.2 now later)
      (failThenBind_stays h hconn hover hmoves.2 hstarted now' later')

theorem clean_of_commutes (h : Unbound s id row (crates.paneKey pane))
    (hconn : s.paneConnections.lookup (crates.paneKey pane) = none)
    (hcommutes : Commutes crates s id pane reason (some false)) :
    GivesBackClean crates row pane reason := by
  have hsame := hcommutes.same 0 0 0 0
  obtain ⟨hbind, hfail⟩ := hcommutes.givenBack rfl 0 0
  -- a live session with another pane would not be given back
  have hfree : row.paneSessionId = none ∨ row.isOver := by
    by_contra hfree
    rw [not_or] at hfree
    have hover : row.isOver = false := by simpa using hfree.2
    have hidle := status_of_not_isOver h hover
    by_cases hpane : row.paneSessionId = some (crates.paneKey pane)
    · have hstays : Outcome (s.noteFailure (crates.paneKey pane) (some false) reason)
          (bindThenFail crates s id pane reason (some false) 0 0) id (crates.paneKey pane)
          row.resume none false := bindThenFail_stays crates reason h hconn hover hpane 0 0
      obtain ⟨row', hrow', hresume⟩ := hstays.row
      obtain ⟨row'', hrow'', hstatus, _⟩ := hbind.row
      rw [hrow'] at hrow''
      obtain rfl := Option.some.inj hrow''
      have hstatus' : row'.status = row.status := congrArg Resume.status hresume
      rw [hstatus', hidle] at hstatus
      exact absurd hstatus (by simp)
    · have hlive : row.isLive := by simp [SessionInfo.isLive, hidle]
      have hother : (row.paneSessionId.any fun q =>
          q ≠ crates.paneKey pane ∨ !row.bornBoundPane ∨ row.status = some .working ∨
            row.status = some .attention) = true := by
        cases hq : row.paneSessionId with
        | none => exact absurd hq hfree.1
        | some q =>
          have hne : q ≠ crates.paneKey pane := fun heq => hpane (by rw [hq, heq])
          simp [hne]
      obtain ⟨row', hrow', hstatus, _⟩ := hfail.row
      rw [failThenBind_unstarted h hconn, if_pos ⟨hother, hlive⟩] at hrow'
      obtain rfl := Option.some.inj (h.lookup.symm.trans hrow')
      rw [hidle] at hstatus
      exact absurd hstatus (by simp)
  have hmoves : row.isOver ∨ row.paneSessionId ≠ some (crates.paneKey pane) := by
    rcases hfree with hfree | hover
    · exact .inr (by simp [hfree])
    · exact .inl hover
  have hbound := bindThenFail_unstarted crates reason h hconn hmoves 0 0
  refine ⟨?_, hfree, fun hstatus hpane herror => ?_⟩
  · -- otherwise the pane keeps its owner in one of the orders
    by_contra hstable
    have howner := hsame.owners (crates.paneKey pane)
    rw [hbound.owners, if_pos rfl, if_neg hstable] at howner
    have hnone : (failThenBind crates s id pane reason (some false) 0 0).activeByPane.lookup
        (crates.paneKey pane) = none := by
      by_cases hold : row.status = some .historical ∧ row.paneSessionId = none ∧
          row.lastError = some reason
      · exact ((failThenBind_restored crates h hconn hold 0 0).owners _).trans (if_pos rfl)
      · exact ((failThenBind_restores h hconn hfree hold 0 0).owners _).trans (if_pos rfl)
    rw [hnone] at howner
    exact absurd howner (by simp)
  · -- otherwise the session keeps what it was doing in one of the orders
    obtain ⟨row', hrow', hresume'⟩ := hbound.row
    obtain ⟨row'', hrow'', hresume''⟩ :=
      (failThenBind_restored crates h hconn ⟨hstatus, hpane, herror⟩ 0 0).row
    have hrows := hsame.row
    rw [hrow', hrow'', Option.map_some, Option.map_some, hresume', hresume''] at hrows
    have hresume := (Option.some.inj hrows).symm
    exact ⟨congrArg Resume.currentTool hresume, congrArg Resume.attentionReason hresume,
      congrArg Resume.bornBoundPane hresume⟩

/-- A binding and the failure of its pane end alike in either order, and give the session back if
the process never started, exactly if nothing stands in the way in that case. -/
theorem resumeFailure_commutes_iff (crates : Crates) (s : RegistryState) (id : SessionIdentity)
    (row : SessionInfo) (pane reason : String) (started : Option Bool)
    (h : Unbound s id row (crates.paneKey pane))
    (hconn : s.paneConnections.lookup (crates.paneKey pane) = none) :
    Commutes crates s id pane reason started ↔
      (started = some false → GivesBackClean crates row pane reason) := by
  refine ⟨fun hcommutes hstarted => ?_, fun hclean => ?_⟩
  · rw [hstarted] at hcommutes
    exact clean_of_commutes h hconn hcommutes
  · by_cases hstarted : started = some false
    · rw [hstarted]
      exact commutes_of_clean h hconn (hclean hstarted)
    · exact commutes_of_started h hconn hstarted

theorem unbound_history (p : String) :
    Unbound (reached Crates.ofUuid [.upsert (historyRow "a")]) ⟨"a", none⟩
      { historyRow "a" with cwdEvidence := { revision := 1 } } p := by
  have hactive : (reached Crates.ofUuid [.upsert (historyRow "a")]).activeByPane = ∅ :=
    AList.ext (List.eq_nil_of_length_eq_zero (by decide +kernel))
  have hnative : (reached Crates.ofUuid [.upsert (historyRow "a")]).nativePanes = ∅ :=
    AList.ext (List.eq_nil_of_length_eq_zero (by decide +kernel))
  have hfailed : (reached Crates.ofUuid [.upsert (historyRow "a")]).failedResumeAssignments = [] := by
    decide +kernel
  refine ⟨by decide +kernel, by decide +kernel, fun q => ?_, ?_, ?_, ?_⟩
  · rw [hactive, AList.lookup_empty]
    simp
  · rw [hactive, AList.lookup_empty]
  · rw [hnative, AList.lookup_empty]
  · rw [hfailed]
    simp

theorem resumeFailure_commutes_history :
    Commutes Crates.ofUuid (reached Crates.ofUuid [.upsert (historyRow "a")]) ⟨"a", none⟩ "p" "e"
      (some false) :=
  (resumeFailure_commutes_iff Crates.ofUuid _ _ _ "p" "e" (some false) (unbound_history _)
    (by decide +kernel)).mpr fun _ =>
      ⟨by decide +kernel, by decide +kernel, by decide +kernel⟩

/-- A pane whose canonical form spells a GUID keeps its owner if the failure comes last. -/
theorem resumeFailure_urn_not_commutes :
    let pane := "URN:UUID:67E55044-10B1-426F-9247-BB680E5FE0C8"
    let s := reached Crates.ofUuid [.upsert (historyRow "a")]
    Unbound s ⟨"a", none⟩ { historyRow "a" with cwdEvidence := { revision := 1 } }
        (Crates.ofUuid.paneKey pane) ∧
      s.paneConnections.lookup (Crates.ofUuid.paneKey pane) = none ∧
      ¬Commutes Crates.ofUuid s ⟨"a", none⟩ pane "e" (some false) := by
  intro pane s
  refine ⟨unbound_history _, by decide +kernel, fun h => ?_⟩
  exact absurd ((h.same 0 0 0 0).owners (Crates.ofUuid.paneKey pane)) (by decide +kernel)

end IntelligentTerminal.Sessions
