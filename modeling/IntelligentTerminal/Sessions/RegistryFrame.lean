import IntelligentTerminal.Sessions.RegistryIndex

/-!
# Events and the sessions they are not addressed to

An event that is addressed to a raw session id leaves the rows of other ids alone. The exception is
a session that starts in a pane: it takes the pane over from its owner, unless the owner was bound
by WTA itself and is idle or at work.

A raw id that several identities share addresses none of them. The exception is again the start of
a session, which puts a row for the id.

Source: `tools/wta/src/session_registry.rs`, lines 1861-1873, 3735-3742 and 4154-4736.
-/

namespace IntelligentTerminal.Sessions

variable {crates : Crates} {allowed : Allowed} {s t u : RegistryState} {id : SessionIdentity}
  {row row' : SessionInfo} {k : String}
  {existing : Option SessionIdentity} {owner : SessionIdentity} {p : String}

/-- The raw id of an event that should concern one session only. -/
def SessionEvent.ownKey : SessionEvent → Option AgentKey
  | .sessionStarted key _ _ _ _ | .toolStarting key _ | .toolReturned key _ | .toolCompleted key
  | .notification key _ _ | .sessionStopped key _ | .sessionStoppedIfOwner key _ _
  | .sessionRenamed key _ _ | .workingDirectoryChanged key _ _ | .resumeDispatched key
  | .resumeFailed key _ => some key
  | _ => none

/-! ### Runs -/

/-- The state that a run of the registry reaches. -/
def reached (crates : Crates) (ops : List RegistryOp) : RegistryState :=
  ops.foldl (RegistryOp.step crates) {}

theorem keyed_step (h : Keyed s) (op : RegistryOp) : Keyed (op.step crates s) := by
  refine h.writes (op.writes s ?_ ?_ ?_ ?_)
  · exact fun _ _ => trivial
  · exact fun _ _ => trivial
  · exact fun _ => trivial
  · exact fun _ => trivial

theorem keyed_reached (crates : Crates) (ops : List RegistryOp) : Keyed (reached crates ops) := by
  unfold reached
  induction ops using List.reverseRecOn with
  | nil => exact keyed_empty
  | append_singleton ops op ih =>
    rw [List.foldl_concat]
    exact keyed_step ih op

theorem eq_singleton_of_only {α : Type*} {l : List α} {a : α}
    (h : RegistryState.only l = some a) : l = [a] := by
  unfold RegistryState.only at h
  split at h
  · rw [Option.some.inj h]
  · exact absurd h (by simp)

theorem Keyed.sessionId_of_unique (h : Keyed s) (hid : s.uniqueIdentityForRaw k = some id) :
    id.sessionId = k := by
  obtain ⟨ids, hids, honly⟩ := Option.bind_eq_some_iff.mp hid
  refine ((h.mem_raw k id).mp ?_).2
  rw [hids, eq_singleton_of_only honly]
  exact List.mem_singleton_self id

/-! ### Rows of other ids -/

/-- The rows of other raw ids than `k` are the same. -/
def LeavesOthers (k : String) (s t : RegistryState) : Prop :=
  ∀ id, id.sessionId ≠ k → t.sessions.lookup id = s.sessions.lookup id

namespace LeavesOthers

theorem refl (s : RegistryState) : LeavesOthers k s s := fun _ _ => rfl

theorem trans (h : LeavesOthers k s t) (h' : LeavesOthers k t u) : LeavesOthers k s u :=
  fun id hne => (h' id hne).trans (h id hne)

theorem of_eq (h : t.sessions = s.sessions) : LeavesOthers k s t := fun id _ => by rw [h]

theorem insert (hid : id.sessionId = k) (h : t.sessions = s.sessions.insert id row) :
    LeavesOthers k s t := by
  intro id' hne
  rw [h, Table.lookup_insert_eq, if_neg]
  rintro rfl
  exact hne hid

theorem setRow (hid : id.sessionId = k) (s : RegistryState) (row : SessionInfo) :
    LeavesOthers k s (s.setRow id row) := insert hid rfl

theorem remove (hid : id.sessionId = k) (s : RegistryState) :
    LeavesOthers k s (s.removeIdentityLocked crates id).1 := by
  intro id' hne
  cases hrow : s.sessions.lookup id with
  | none => simp only [RegistryState.removeIdentityLocked, hrow]
  | some row =>
    rw [removeIdentityLocked_eq hrow]
    simp only
    rw [Table.lookup_erase_eq, if_neg]
    rintro rfl
    exact hne hid

theorem upsert (crates : Crates) (s : RegistryState) (info : SessionInfo) :
    LeavesOthers info.sessionId s (s.upsertLocked crates info) := by
  rw [upsertLocked_eq]
  exact insert rfl rfl

theorem releaseSetRow (hid : id.sessionId = k) (s : RegistryState) (pane : Option String)
    (row : SessionInfo) : LeavesOthers k s ((s.releasePane crates id pane).setRow id row) := by
  have hsessions : ((s.releasePane crates id pane).setRow id row).sessions =
      s.sessions.insert id row := by
    rw [releasePane_eq]
    rfl
  exact insert hid hsessions

theorem markResumeDispatched (hid : id.sessionId = k) (s : RegistryState) (clock : ℕ) :
    LeavesOthers k s (s.markResumeDispatchedIdentityLocked crates id clock).1 := by
  unfold RegistryState.markResumeDispatchedIdentityLocked
  simp only
  split
  · exact of_eq rfl
  · split
    · exact (of_eq rfl).trans (releaseSetRow hid _ _ _)
    · exact of_eq rfl

theorem sessionStopped (h : Keyed s) (reason : String) (now : ℕ) :
    LeavesOthers k s (s.sessionStopped crates k reason now).1 := by
  unfold RegistryState.sessionStopped
  split
  · exact refl s
  · next id hid =>
    have hsid := h.sessionId_of_unique hid
    simp only
    split
    · exact of_eq rfl
    · split
      · exact (of_eq rfl).trans (setRow hsid _ _)
      · exact (of_eq rfl).trans (releaseSetRow hsid _ _ _)

theorem of_activityRow (h : Keyed s) (hrow : s.activityRow none k = some (id, row)) :
    id.sessionId = k := by
  obtain ⟨id', hid', hmap⟩ := Option.bind_eq_some_iff.mp hrow
  obtain ⟨row', _, heq⟩ := Option.map_eq_some_iff.mp hmap
  obtain ⟨rfl, rfl⟩ := Prod.mk.inj heq
  exact h.sessionId_of_unique hid'

theorem applyArm (h : Keyed s) {ev : SessionEvent} (hkey : ev.ownKey = some k)
    (hstart : ∀ cli pane cwd title, ev ≠ .sessionStarted k cli pane cwd title) (now clock : ℕ) :
    LeavesOthers k s (s.applyArm crates none now clock (ev.canonical crates)).1 := by
  cases ev with
  | sessionStarted key cli pane cwd title =>
    obtain rfl := Option.some.inj hkey
    exact absurd rfl (hstart cli pane cwd title)
  | sessionRenamed key pane title =>
    obtain rfl := Option.some.inj hkey
    simp only [SessionEvent.canonical, RegistryState.applyArm, RegistryState.sessionRenamed]
    split
    · exact refl s
    · split
      · exact refl s
      · next id hid =>
        have hsid := h.sessionId_of_unique hid
        split
        · exact refl s
        · split
          · exact refl s
          · split
            · exact refl s
            · exact setRow hsid s _
  | workingDirectoryChanged key pane cwd =>
    obtain rfl := Option.some.inj hkey
    simp only [SessionEvent.canonical, RegistryState.applyArm,
      RegistryState.workingDirectoryChanged]
    split
    · exact refl s
    · split
      · exact refl s
      · next id hid =>
        have hsid := h.sessionId_of_unique hid
        split
        · exact refl s
        · split
          · exact refl s
          · split
            · exact refl s
            · split
              · exact refl s
              · split
                · exact (of_eq rfl).trans (setRow hsid _ _)
                · exact (of_eq rfl).trans (setRow hsid _ _)
  | toolStarting key toolName =>
    obtain rfl := Option.some.inj hkey
    simp only [SessionEvent.canonical, RegistryState.applyArm, RegistryState.toolStarting]
    split
    · exact refl s
    · next id row hrow =>
      split
      · exact refl s
      · exact setRow (of_activityRow h hrow) s _
  | toolCompleted key =>
    obtain rfl := Option.some.inj hkey
    simp only [SessionEvent.canonical, RegistryState.applyArm, RegistryState.toolCompleted]
    split
    · exact refl s
    · next id row hrow =>
      split
      · exact refl s
      · exact setRow (of_activityRow h hrow) s _
  | toolReturned key timestampMs =>
    obtain rfl := Option.some.inj hkey
    simp only [SessionEvent.canonical, RegistryState.applyArm, RegistryState.toolReturned]
    split
    · exact refl s
    · next id row hrow =>
      split_ifs
      · exact refl s
      · exact refl s
      · exact refl s
      · exact setRow (of_activityRow h hrow) s _
  | notification key message timestampMs =>
    obtain rfl := Option.some.inj hkey
    simp only [SessionEvent.canonical, RegistryState.applyArm, RegistryState.notification]
    split
    · exact refl s
    · next id row hrow =>
      split
      · exact refl s
      · exact setRow (of_activityRow h hrow) s _
  | sessionStopped key reason =>
    obtain rfl := Option.some.inj hkey
    exact sessionStopped h reason now
  | sessionStoppedIfOwner key pane reason =>
    obtain rfl := Option.some.inj hkey
    simp only [SessionEvent.canonical, RegistryState.applyArm,
      RegistryState.sessionStoppedIfOwner]
    split
    · exact refl s
    · split
      · split
        · exact refl s
        · exact sessionStopped h reason now
      · exact refl s
  | resumeDispatched key =>
    obtain rfl := Option.some.inj hkey
    simp only [SessionEvent.canonical, RegistryState.applyArm, RegistryState.resumeDispatched]
    split
    · exact refl s
    · next id hid => exact markResumeDispatched (h.sessionId_of_unique hid) s clock
  | resumeFailed key reason =>
    obtain rfl := Option.some.inj hkey
    simp only [SessionEvent.canonical, RegistryState.applyArm, RegistryState.resumeFailed]
    split
    · exact refl s
    · next id hid =>
      have hsid := h.sessionId_of_unique hid
      split
      · exact refl s
      · split
        · exact setRow hsid s _
        · exact refl s
  | _ => exact absurd hkey (by simp [SessionEvent.ownKey])

end LeavesOthers

/-! ### The start of a session -/

theorem start_sessionId (entry : SessionInfo) (isNew : Bool) (cli : CliSource)
    (pane : Option String) (cwd : PathBuf) (title : String) (now : ℕ) :
    (entry.start isNew cli pane cwd title now).sessionId = entry.sessionId := by
  unfold SessionInfo.start
  simp only
  split_ifs <;> rfl

theorem start_paneSessionId (entry : SessionInfo) (isNew : Bool) (cli : CliSource)
    (pane : Option String) (cwd : PathBuf) (title : String) (now : ℕ) :
    (entry.start isNew cli pane cwd title now).paneSessionId = pane := rfl

/-- The state before a started row is put: the old row is removed. -/
def RegistryState.beforeStart (crates : Crates) (s : RegistryState)
    (existing : Option SessionIdentity) : RegistryState × Option SessionInfo :=
  match existing with
  | none => (s, none)
  | some identity => s.removeIdentityLocked crates identity

theorem startSession_eq (s : RegistryState) (existing : Option SessionIdentity) (key : AgentKey)
    (cli : CliSource) (pane : String) (cwd : PathBuf) (title : String) (now : ℕ) :
    s.startSession crates existing key cli pane cwd title now =
      let known : Bool := pane ≠ "" && !s.ownedByOtherBornBound existing pane
      let before := (if known then s.endPreviousOwner crates existing pane now else s).beforeStart
        crates existing
      before.1.upsertLocked crates ((before.2.getD (SessionInfo.new key cwd)).start existing.isNone
        cli (if known then some pane else none) cwd title now) := rfl

theorem Keyed.removed_sessionId (h : Keyed s) {id : SessionIdentity}
    (hrow : (s.removeIdentityLocked crates id).2 = some row) : row.sessionId = id.sessionId := by
  unfold RegistryState.removeIdentityLocked at hrow
  split at hrow
  · exact absurd hrow (by simp)
  · next info hinfo =>
    obtain rfl := Option.some.inj hrow
    exact congrArg SessionIdentity.sessionId (h.keyed id info hinfo)

theorem Keyed.started_sessionId (h : Keyed s)
    (hexisting : ∀ id, existing = some id → id.sessionId = k) (cwd : PathBuf) :
    ((s.beforeStart crates existing).2.getD (SessionInfo.new k cwd)).sessionId = k := by
  cases existing with
  | none => rfl
  | some id =>
    cases hremoved : (s.removeIdentityLocked crates id).2 with
    | none =>
      simp only [RegistryState.beforeStart, hremoved]
      rfl
    | some row =>
      simp only [RegistryState.beforeStart, hremoved, Option.getD_some]
      rw [h.removed_sessionId hremoved, hexisting id rfl]

theorem leavesOthers_beforeStart (crates : Crates) (s : RegistryState)
    (hexisting : ∀ id, existing = some id → id.sessionId = k) :
    LeavesOthers k s (s.beforeStart crates existing).1 := by
  cases existing with
  | none => exact LeavesOthers.refl s
  | some id => exact LeavesOthers.remove (hexisting id rfl) s

variable (crates) in
theorem leavesOthers_startSession (h : Keyed s)
    (hexisting : ∀ id, existing = some id → id.sessionId = k) (cli : CliSource) (pane : String)
    (cwd : PathBuf) (title : String) (now : ℕ) :
    LeavesOthers k
      (if (pane ≠ "" && !s.ownedByOtherBornBound existing pane : Bool) then
        s.endPreviousOwner crates existing pane now else s)
      (s.startSession crates existing k cli pane cwd title now) := by
  rw [startSession_eq]
  simp only
  generalize hended : (if (decide (pane ≠ "") && !s.ownedByOtherBornBound existing pane) = true then
    s.endPreviousOwner crates existing pane now else s) = ended
  have hkeyed : Keyed ended := by
    rw [← hended]
    exact h.writes (Writes.ite _ (Writes.endPreviousOwner _ _ _ _))
  refine (leavesOthers_beforeStart crates ended hexisting).trans ?_
  have hput := LeavesOthers.upsert crates (ended.beforeStart crates existing).1
    (((ended.beforeStart crates existing).2.getD (SessionInfo.new k cwd)).start existing.isNone cli
      (if (decide (pane ≠ "") && !s.ownedByOtherBornBound existing pane) = true then some pane
        else none) cwd title now)
  rwa [start_sessionId, hkeyed.started_sessionId hexisting] at hput

/-- The row at `id` was ended because its pane was taken over by a session that started, and it was
not one that WTA bound to the pane and that is idle or at work. -/
structure TakenOver (crates : Crates) (s t : RegistryState) (k : String) (ev : SessionEvent)
    (id : SessionIdentity) : Prop where
  started : ∃ cli pane cwd title, ev = .sessionStarted k cli pane cwd title ∧ pane ≠ "" ∧
    s.activeByPane.lookup (crates.paneKey pane) = some id
  ended : ∃ row row', s.sessions.lookup id = some row ∧ t.sessions.lookup id = some row' ∧
    ¬(row.bornBoundPane ∧ row.status ∈ [some AgentStatus.idle, some .working, some .attention]) ∧
    row'.status = some .ended ∧ row'.paneSessionId = none ∧ row'.sessionId = row.sessionId

variable (crates) in
theorem lookup_endEntry_self (hrow : s.sessions.lookup id = some row) (now : ℕ) :
    ∃ row', (s.endEntry crates id now).1.sessions.lookup id = some row' ∧
      row'.status = some .ended ∧ row'.paneSessionId = none ∧ row'.sessionId = row.sessionId := by
  have hrow' : s.advanceCwdRevision.sessions.lookup id = some row := hrow
  simp only [RegistryState.endEntry, hrow', RegistryState.setRow, Table.lookup_insert_eq, if_true]
  exact ⟨_, rfl, rfl, rfl, rfl⟩

theorem ownedByOtherBornBound_iff {pane : String}
    (howner : s.activeByPane.lookup pane = some id) (hne : some id ≠ existing)
    (hrow : s.sessions.lookup id = some row) :
    s.ownedByOtherBornBound existing pane ↔ (row.bornBoundPane ∧
      row.status ∈ [some AgentStatus.idle, some .working, some .attention]) := by
  simp [RegistryState.ownedByOtherBornBound, howner, hne, hrow, Option.filter_some]

variable (crates) in
theorem lookup_endPreviousOwner (s : RegistryState) (existing : Option SessionIdentity)
    (pane : String) (now : ℕ) (id : SessionIdentity) :
    (s.endPreviousOwner crates existing pane now).sessions.lookup id = s.sessions.lookup id ∨
      (s.activeByPane.lookup pane = some id ∧ some id ≠ existing ∧
        ∃ row row', s.sessions.lookup id = some row ∧
          (s.endPreviousOwner crates existing pane now).sessions.lookup id = some row' ∧
          row'.status = some .ended ∧ row'.paneSessionId = none ∧
          row'.sessionId = row.sessionId) := by
  unfold RegistryState.endPreviousOwner
  split
  · exact .inl rfl
  · next previous howner =>
    split_ifs with hne
    · by_cases hid : id = previous
      · subst hid
        cases hrow : s.sessions.lookup id with
        | none =>
          have hrow' : s.advanceCwdRevision.sessions.lookup id = none := hrow
          refine .inl ?_
          simp only [RegistryState.endEntry, hrow']
        | some row =>
          obtain ⟨row', hrow', hend⟩ := lookup_endEntry_self crates hrow now
          exact .inr ⟨howner, hne, row, row', rfl, hrow', hend⟩
      · exact .inl (Writes.lookup_endEntry_ne s now hid)
    · exact .inl rfl

theorem sessionStarted_leaves_or_takenOver (h : Keyed s) (cli : CliSource) (pane : String)
    (cwd : PathBuf) (title title' : String) (now : ℕ) (hne : id.sessionId ≠ k) :
    (s.sessionStarted crates k cli (crates.paneKey pane) cwd title now).1.sessions.lookup id =
        s.sessions.lookup id ∨
      TakenOver crates s (s.sessionStarted crates k cli (crates.paneKey pane) cwd title now).1 k
        (.sessionStarted k cli pane cwd title') id := by
  have hexisting : ∀ id', s.uniqueIdentityForRaw k = some id' → id'.sessionId = k :=
    fun _ => h.sessionId_of_unique
  have hstarted := leavesOthers_startSession crates h hexisting cli
    (crates.paneKey pane) cwd title now id hne
  have hstart : (s.startSession crates (s.uniqueIdentityForRaw k) k cli (crates.paneKey pane) cwd
      title now).sessions.lookup id = s.sessions.lookup id ∨
      TakenOver crates s (s.startSession crates (s.uniqueIdentityForRaw k) k cli
        (crates.paneKey pane) cwd title now) k (.sessionStarted k cli pane cwd title') id := by
    rcases lookup_endPreviousOwner crates s (s.uniqueIdentityForRaw k)
      (crates.paneKey pane) now id with hsame | ⟨howner, hne', row, row', hrow, hrow', hend⟩
    · rw [hstarted]
      split_ifs
      · exact .inl hsame
      · exact .inl rfl
    · by_cases hknown : (decide (crates.paneKey pane ≠ "") &&
          !s.ownedByOtherBornBound (s.uniqueIdentityForRaw k) (crates.paneKey pane)) = true
      · rw [if_pos hknown] at hstarted
        simp only [ne_eq, Bool.and_eq_true, decide_eq_true_eq, Bool.not_eq_true'] at hknown
        obtain ⟨hempty, hfree⟩ := hknown
        rw [Crates.paneKey_eq_empty] at hempty
        refine .inr ⟨⟨cli, pane, cwd, title', rfl, hempty, howner⟩, row, row', hrow,
          hstarted.trans hrow', ?_, hend⟩
        rw [← ownedByOtherBornBound_iff howner hne' hrow, hfree]
        exact Bool.false_ne_true
      · rw [if_neg hknown] at hstarted
        exact .inl hstarted
  unfold RegistryState.sessionStarted
  simp only
  split
  · next id' entry hfound =>
    split
    · obtain ⟨id'', hid'', hmap⟩ := Option.bind_eq_some_iff.mp hfound
      obtain ⟨entry', _, heq⟩ := Option.map_eq_some_iff.mp hmap
      obtain ⟨rfl, rfl⟩ := Prod.mk.inj heq
      exact .inl (LeavesOthers.setRow (hexisting _ hid'') s _ id hne)
    · exact hstart
  · exact hstart

theorem lookup_releasePane_ne
    (hp : s.activeByPane.lookup p = some owner) (hne : owner ≠ id) (pane : Option String) :
    (s.releasePane crates id pane).activeByPane.lookup p = some owner := by
  unfold RegistryState.releasePane
  split
  · exact hp
  · next pane =>
    split_ifs with hactive
    · simp only
      rw [Table.lookup_erase_eq, if_neg]
      · exact hp
      · rintro rfl
        exact hne (Option.some.inj (hp.symm.trans hactive))
    · exact hp

theorem putRow_of_no_native (hnative : s.nativePanes = ∅) (info : SessionInfo) :
    (s.putRow crates info).paneSessionId = info.paneSessionId := by
  unfold RegistryState.putRow RegistryState.keepNativeBinding
  split
  · rfl
  · next old _ =>
    rw [hnative]
    cases old.paneSessionId with
    | none => rfl
    | some pane =>
      simp only [Option.bind_some, AList.lookup_empty]

theorem lookup_putPane_ne (hnative : s.nativePanes = ∅)
    (hp : s.activeByPane.lookup p = some owner) {info : SessionInfo}
    (hne : owner ≠ SessionIdentity.fromInfo info) (hpane : info.paneSessionId = none) :
    (s.upsertLocked crates info).activeByPane.lookup p = some owner := by
  rw [upsertLocked_eq]
  simp only [RegistryState.putPane, putRow_of_no_native hnative, hpane]
  exact lookup_releasePane_ne hp hne _

theorem lookup_beforeStart_ne
    (hp : s.activeByPane.lookup p = some owner)
    (hne : some owner ≠ existing) :
    (s.beforeStart crates existing).1.activeByPane.lookup p = some owner := by
  cases existing with
  | none => exact hp
  | some id =>
    have hne' : owner ≠ id := fun heq => hne (congrArg some heq)
    simp only [RegistryState.beforeStart]
    cases hrow : s.sessions.lookup id with
    | none =>
      simp only [RegistryState.removeIdentityLocked, hrow]
      exact hp
    | some row =>
      rw [removeIdentityLocked_eq hrow]
      exact lookup_releasePane_ne hp hne' _

theorem nativePanes_beforeStart (s : RegistryState) (existing : Option SessionIdentity) :
    (s.beforeStart crates existing).1.nativePanes = s.nativePanes := by
  cases existing with
  | none => rfl
  | some id =>
    simp only [RegistryState.beforeStart]
    cases hrow : s.sessions.lookup id with
    | none => simp only [RegistryState.removeIdentityLocked, hrow]
    | some row => rw [removeIdentityLocked_eq hrow]

theorem sessionStarted_keeps_bornBound (h : Keyed s) (hnative : s.nativePanes = ∅)
    {cli : CliSource} {pane : String} {cwd : PathBuf} {title : String} {now : ℕ}
    (howner : s.activeByPane.lookup pane = some owner)
    (hne : owner.sessionId ≠ k) (hrow : s.sessions.lookup owner = some row)
    (hborn : row.bornBoundPane)
    (hstatus : row.status ∈ [some AgentStatus.idle, some .working, some .attention]) :
    (s.sessionStarted crates k cli pane cwd title now).1.activeByPane.lookup pane =
      some owner := by
  have hexisting : ∀ id', s.uniqueIdentityForRaw k = some id' → id'.sessionId = k :=
    fun _ => h.sessionId_of_unique
  have hother : some owner ≠ s.uniqueIdentityForRaw k := fun heq => hne (hexisting owner heq.symm)
  have hstart : (s.startSession crates (s.uniqueIdentityForRaw k) k cli pane cwd title
      now).activeByPane.lookup pane = some owner := by
    have hprotected : s.ownedByOtherBornBound (s.uniqueIdentityForRaw k) pane = true :=
      (ownedByOtherBornBound_iff howner hother hrow).mpr ⟨hborn, hstatus⟩
    rw [startSession_eq]
    simp only [hprotected, Bool.not_true, Bool.and_false, Bool.false_eq_true, if_false]
    refine lookup_putPane_ne ((nativePanes_beforeStart s _).trans hnative)
      (lookup_beforeStart_ne howner hother) ?_ (start_paneSessionId _ _ _ _ _ _ _)
    intro heq
    refine hne ?_
    rw [heq]
    exact (start_sessionId _ _ _ _ _ _ now).trans (h.started_sessionId hexisting cwd)
  unfold RegistryState.sessionStarted
  simp only
  split
  · split
    · exact howner
    · exact hstart
  · exact hstart

/-- Events of one session do not disturb another. -/
theorem applyEvent_leavesOthers_or_takenOver (crates : Crates) (ops : List RegistryOp)
    (ev : SessionEvent) (k : AgentKey) (now : ℕ) (hkey : ev.ownKey = some k)
    (hnative : (reached crates ops).nativePanes = ∅) :
    let s := reached crates ops
    let t := (s.applyEventQualifiedAtMs crates ev none now now).1
    (∀ id, id.sessionId ≠ k →
      t.sessions.lookup id = s.sessions.lookup id ∨ TakenOver crates s t k ev id) ∧
    ∀ cli pane cwd title owner row, ev = .sessionStarted k cli pane cwd title → pane ≠ "" →
      s.activeByPane.lookup (crates.paneKey pane) = some owner → owner.sessionId ≠ k →
      s.sessions.lookup owner = some row → row.bornBoundPane →
      row.status ∈ [some AgentStatus.idle, some .working, some .attention] →
      t.sessions.lookup owner = some row ∧
        t.activeByPane.lookup (crates.paneKey pane) = some owner ∧
        ∀ id, id.sessionId = k → t.activeByPane.lookup (crates.paneKey pane) ≠ some id := by
  intro s t
  have h : Keyed s := keyed_reached crates ops
  have hrows : ∀ id, id.sessionId ≠ k →
      t.sessions.lookup id = s.sessions.lookup id ∨ TakenOver crates s t k ev id := by
    intro id hne
    simp only [t, RegistryState.applyEventQualifiedAtMs]
    split
    · exact .inl rfl
    · split
      · exact .inl rfl
      · by_cases hstart : ∃ cli pane cwd title, ev = .sessionStarted k cli pane cwd title
        · obtain ⟨cli, pane, cwd, title, rfl⟩ := hstart
          exact sessionStarted_leaves_or_takenOver h cli pane cwd _ title now hne
        · refine .inl (LeavesOthers.applyArm h hkey ?_ now now id hne)
          exact fun cli pane cwd title heq => hstart ⟨cli, pane, cwd, title, heq⟩
  refine ⟨hrows, ?_⟩
  rintro cli pane cwd title owner row rfl hpane howner hne hrow hborn hstatus
  have howner' : t.activeByPane.lookup (crates.paneKey pane) = some owner := by
    simp only [t, RegistryState.applyEventQualifiedAtMs]
    split
    · exact howner
    · split
      · exact howner
      · exact sessionStarted_keeps_bornBound h hnative howner hne hrow hborn hstatus
  refine ⟨?_, howner', fun id hid heq => ?_⟩
  · rcases hrows owner hne with hsame | htaken
    · rw [hsame, hrow]
    · obtain ⟨row', _, hrow', _, hfree, _⟩ := htaken.ended
      rw [hrow] at hrow'
      obtain rfl := Option.some.inj hrow'
      exact absurd ⟨hborn, hstatus⟩ hfree
  · rw [howner'] at heq
    exact hne ((congrArg SessionIdentity.sessionId (Option.some.inj heq)).trans hid)

/-- A session that starts in the pane of a resumed one does not end it. -/
theorem applyEvent_leavesOthers_resumed :
    let ops := [RegistryOp.upsert (historyRow "a"), .assignResumePaneIdentity ⟨"a", none⟩ "p" 0]
    let s := reached Crates.ofUuid ops
    let ev := SessionEvent.sessionStarted "b" .copilot "P" [] ""
    s.activeByPane.lookup "p" = some ⟨"a", none⟩ ∧
      ((s.applyEventQualifiedAtMs Crates.ofUuid ev none 1 1).1.sessions.lookup ⟨"a", none⟩ =
          s.sessions.lookup ⟨"a", none⟩ ∨
        TakenOver Crates.ofUuid s (s.applyEventQualifiedAtMs Crates.ofUuid ev none 1 1).1 "b" ev
          ⟨"a", none⟩) := by
  intro ops s ev
  have hnative : s.nativePanes = ∅ :=
    AList.ext (List.eq_nil_of_length_eq_zero (by decide +kernel))
  exact ⟨by decide +kernel, (applyEvent_leavesOthers_or_takenOver Crates.ofUuid ops ev "b" 1 rfl
    hnative).1 ⟨"a", none⟩ (by decide)⟩

/-! ### Ambiguous ids -/

/-- The operations that are addressed by a raw id. -/
inductive RawOp
  | lookup
  | remove
  | setOrigin (origin : SessionOrigin)
  | setLocation (location : SessionLocation)
  | markResumeDispatched (now : ℕ)
  | upgradeTitleIfSynthetic (candidate : String)
  | adoptAgentTitle (candidate : String)
  | applyEvent (ev : SessionEvent) (now : ℕ)

/-- The raw id that an event is keyed to. -/
def SessionEvent.key : SessionEvent → Option AgentKey
  | .sessionStarted key _ _ _ _ | .sessionRenamed key _ _ | .workingDirectoryChanged key _ _
  | .toolStarting key _ | .toolCompleted key | .toolReturned key _ | .notification key _ _
  | .sessionStopped key _ | .sessionUnbound key _ | .sessionStoppedIfOwner key _ _
  | .resumeDispatched key | .resumeFailed key _ | .resumePaneAssigned key _ => some key
  | .connectionFailed _ _ | .paneClosed _ => none

namespace RawOp

/-- An event is keyed to the id. -/
def KeyedTo (sid : String) : RawOp → Prop
  | applyEvent ev _ => ev.key = some sid
  | _ => True

/-- What an operation on a raw id does and returns. -/
def run (crates : Crates) (s : RegistryState) (sid : String) : RawOp → RegistryState × OpResult
  | lookup => (s, .row (s.lookup sid))
  | remove => (RegistryOp.remove sid).run crates s
  | setOrigin origin => (RegistryOp.setOrigin sid origin).run crates s
  | setLocation location => (RegistryOp.setLocation sid location).run crates s
  | markResumeDispatched now => (RegistryOp.markResumeDispatched sid now).run crates s
  | upgradeTitleIfSynthetic candidate =>
    (RegistryOp.upgradeTitleIfSynthetic sid candidate).run crates s
  | adoptAgentTitle candidate => (RegistryOp.adoptAgentTitle sid candidate).run crates s
  | applyEvent ev now => (RegistryOp.applyEvent ev now).run crates s

/-- The operation returns its failure value and leaves the rows of the id as they are. -/
def FailsClosed (crates : Crates) (s : RegistryState) (sid : String) (op : RawOp) : Prop :=
  (op.run crates s sid).2 ∈ [OpResult.row none, .flag false, .label none] ∧
    ∀ id, id.sessionId = sid →
      (op.run crates s sid).1.sessions.lookup id = s.sessions.lookup id

/-- A session starts in a pane that is not a native one. -/
def Starts (crates : Crates) (s : RegistryState) : RawOp → Prop
  | applyEvent (.sessionStarted _ _ pane _ _) _ =>
    (s.nativePanes.lookup (crates.paneKey pane)).isNone
  | _ => False

end RawOp

/-- The id has two or more identities. -/
def Ambiguous (s : RegistryState) (sid : String) : Prop :=
  ∃ id id', id ∈ s.sessions ∧ id' ∈ s.sessions ∧ id.sessionId = sid ∧ id'.sessionId = sid ∧ id ≠ id'

theorem Keyed.unique_of_ambiguous (h : Keyed s) {sid : String} (hsid : Ambiguous s sid) :
    s.uniqueIdentityForRaw sid = none := by
  obtain ⟨id, id', hid, hid', hs, hs', hne⟩ := hsid
  have hmem := (h.mem_raw sid id).mpr ⟨hid, hs⟩
  have hmem' := (h.mem_raw sid id').mpr ⟨hid', hs'⟩
  unfold RegistryState.uniqueIdentityForRaw
  cases hids : s.identitiesByRaw.lookup sid with
  | none => rfl
  | some ids =>
    rw [hids, Option.getD_some] at hmem hmem'
    rw [Option.bind_some]
    cases honly : RegistryState.only ids with
    | none => rfl
    | some id'' =>
      rw [eq_singleton_of_only honly, List.mem_singleton] at hmem hmem'
      exact absurd (hmem.trans hmem'.symm) hne

theorem applyArm_of_not_unique {sid : String} (hunique : s.uniqueIdentityForRaw sid = none)
    {ev : SessionEvent} (hkey : ev.key = some sid)
    (hstart : ∀ cli pane cwd title, ev ≠ .sessionStarted sid cli pane cwd title) (now clock : ℕ) :
    s.applyArm crates none now clock (ev.canonical crates) = (s, false) := by
  have hrow : s.activityRow none sid = none := by
    simp [RegistryState.activityRow, hunique]
  cases ev with
  | sessionStarted key cli pane cwd title =>
    obtain rfl := Option.some.inj hkey
    exact absurd rfl (hstart cli pane cwd title)
  | connectionFailed pane reason => exact absurd hkey (by simp [SessionEvent.key])
  | paneClosed pane => exact absurd hkey (by simp [SessionEvent.key])
  | _ =>
    obtain rfl := Option.some.inj hkey
    simp [SessionEvent.canonical, RegistryState.applyArm, RegistryState.sessionRenamed,
      RegistryState.workingDirectoryChanged, RegistryState.toolStarting,
      RegistryState.toolReturned, RegistryState.toolCompleted, RegistryState.notification,
      RegistryState.sessionUnbound, RegistryState.sessionStoppedIfOwner,
      RegistryState.sessionStopped, RegistryState.resumeDispatched, RegistryState.resumeFailed,
      RegistryState.resumePaneAssigned, hunique, hrow]

variable (crates) in
theorem applyEvent_sessionStarted (s : RegistryState) (key : AgentKey) (cli : CliSource)
    (pane : String) (cwd : PathBuf) (title : String) (now : ℕ) :
    (s.applyEventQualifiedAtMs crates (.sessionStarted key cli pane cwd title) none now now).2 =
      (s.nativePanes.lookup (crates.paneKey pane)).isNone := by
  have hstarted : ∀ title', (s.sessionStarted crates key cli (crates.paneKey pane) cwd title'
      now).2 = true := by
    intro title'
    unfold RegistryState.sessionStarted
    simp only
    split
    · split <;> rfl
    · rfl
  have hprotected : s.isProtected crates (.sessionStarted key cli pane cwd title) =
      (s.nativePanes.lookup (crates.paneKey pane)).isSome := rfl
  simp only [RegistryState.applyEventQualifiedAtMs, RegistryState.activityKey, Option.any_none,
    Bool.false_eq_true, if_false]
  split
  · next h =>
    rw [hprotected] at h
    exact (Option.isNone_eq_false_iff.mpr h).symm
  · next h =>
    rw [hprotected, Option.not_isSome_iff_eq_none] at h
    rw [h]
    exact hstarted _

/-- An operation on an ambiguous id fails closed exactly if it does not start a session in a pane
that is not a native one. -/
theorem rawOp_failsClosed_iff (crates : Crates) (ops : List RegistryOp) (sid : String)
    (hsid : Ambiguous (reached crates ops) sid) (op : RawOp) (hop : op.KeyedTo sid) :
    op.FailsClosed crates (reached crates ops) sid ↔ ¬op.Starts crates (reached crates ops) := by
  have hunique := (keyed_reached crates ops).unique_of_ambiguous hsid
  generalize reached crates ops = s at hunique
  have hfails : op.run crates s sid ∈ [(s, OpResult.row none), (s, .flag false), (s, .label none)] →
      ¬op.Starts crates s → (op.FailsClosed crates s sid ↔ ¬op.Starts crates s) := by
    intro hrun hstarts
    refine iff_of_true ?_ hstarts
    simp only [List.mem_cons, List.not_mem_nil, or_false] at hrun
    rcases hrun with hrun | hrun | hrun <;>
      exact ⟨by rw [hrun]; simp, fun id _ => by rw [hrun]⟩
  cases op with
  | applyEvent ev now =>
    by_cases hstart : ∃ cli pane cwd title, ev = .sessionStarted sid cli pane cwd title
    · obtain ⟨cli, pane, cwd, title, rfl⟩ := hstart
      have hresult := applyEvent_sessionStarted crates s sid cli pane cwd title now
      cases hnative : s.nativePanes.lookup (crates.paneKey pane) with
      | some native =>
        refine hfails ?_ (by simp [RawOp.Starts, hnative])
        simp [RawOp.run, RegistryOp.run, RegistryState.applyEventQualifiedAtMs,
          RegistryState.activityKey, RegistryState.isProtected, RegistryState.protectedPane, hnative]
      | none =>
        refine iff_of_false ?_ (by simp [RawOp.Starts, hnative])
        rintro ⟨hfailure, _⟩
        rw [hnative] at hresult
        simp [RawOp.run, RegistryOp.run, hresult] at hfailure
    · have hrun : s.applyEventQualifiedAtMs crates ev none now now = (s, false) := by
        unfold RegistryState.applyEventQualifiedAtMs
        split_ifs
        · rfl
        · rfl
        · exact applyArm_of_not_unique hunique hop
            (fun cli pane cwd title heq => hstart ⟨cli, pane, cwd, title, heq⟩) now now
      refine hfails (by simp [RawOp.run, RegistryOp.run, hrun]) ?_
      cases ev with
      | sessionStarted key cli pane cwd title =>
        obtain rfl := Option.some.inj hop
        exact absurd ⟨cli, pane, cwd, title, rfl⟩ hstart
      | _ => exact id
  | lookup => exact hfails (by simp [RawOp.run, RegistryState.lookup, hunique]) id
  | remove => exact hfails (by simp [RawOp.run, RegistryOp.run, RegistryState.remove, hunique]) id
  | setOrigin origin =>
    exact hfails (by simp [RawOp.run, RegistryOp.run, RegistryState.setOrigin, hunique]) id
  | setLocation location =>
    exact hfails (by simp [RawOp.run, RegistryOp.run, RegistryState.setLocationLocked, hunique]) id
  | markResumeDispatched now =>
    exact hfails (by simp [RawOp.run, RegistryOp.run, RegistryState.markResumeDispatched, hunique])
      id
  | upgradeTitleIfSynthetic candidate =>
    exact hfails (by simp [RawOp.run, RegistryOp.run, RegistryState.upgradeTitleIfSynthetic,
      hunique]) id
  | adoptAgentTitle candidate =>
    exact hfails (by simp [RawOp.run, RegistryOp.run, RegistryState.adoptAgentTitle, hunique]) id

/-- A row of the history of a provider. -/
def providerRow (sid provider : String) : SessionInfo :=
  { historyRow sid with providerId := some provider, location := .host }

theorem rawOp_failsClosed_remove :
    let ops := [RegistryOp.upsert (providerRow "a" "copilot"), .upsert (providerRow "a" "claude")]
    Ambiguous (reached Crates.ofUuid ops) "a" ∧
      RawOp.remove.FailsClosed Crates.ofUuid (reached Crates.ofUuid ops) "a" := by
  intro ops
  have h : Ambiguous (reached Crates.ofUuid ops) "a" := by
    refine ⟨SessionIdentity.fromInfo (providerRow "a" "copilot"),
      SessionIdentity.fromInfo (providerRow "a" "claude"), ?_, ?_, rfl, rfl, by decide +kernel⟩
    · exact AList.lookup_isSome.mp (by decide +kernel)
    · exact AList.lookup_isSome.mp (by decide +kernel)
  exact ⟨h, (rawOp_failsClosed_iff Crates.ofUuid ops "a" h .remove trivial).mpr id⟩

/-- A session that starts under an ambiguous id takes the row of one of its identities. -/
theorem sessionStarted_not_failsClosed :
    let ops := [RegistryOp.upsert (providerRow "a" "copilot"), .upsert (providerRow "a" "claude")]
    ¬(RawOp.applyEvent (.sessionStarted "a" .copilot "p" [] "") 0).FailsClosed Crates.ofUuid
      (reached Crates.ofUuid ops) "a" := by
  rintro ops ⟨hfailure, _⟩
  revert hfailure
  decide +kernel

end IntelligentTerminal.Sessions
