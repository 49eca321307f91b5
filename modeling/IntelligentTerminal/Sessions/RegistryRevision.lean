import IntelligentTerminal.Sessions.RegistryFrame

/-!
# Revisions of a session's directory

Every row has a revision, and an answer about the directory of a session is taken only for the
revision that was read before the question was sent. A row whose directory or pane changes gets a
revision that no row had before, and so an answer that comes too late is refused. One operation
forgets the new revision: a session that replaces the owner of a native pane detaches the owner
with its old revision.

Revisions are 64-bit counters that saturate; nothing is said of a counter that has.

Source: `tools/wta/src/session_registry.rs`, lines 2976-3048, 3213-3234 and 3642-3645.
-/

namespace IntelligentTerminal.Sessions

variable {crates : Crates} {allowed : Allowed} {s t u : RegistryState} {id id' : SessionIdentity}
  {row row' : SessionInfo}

/-- The row has the same directory, pane and revision. -/
structure SessionInfo.SameDirectory (row row' : SessionInfo) : Prop where
  cwd : row'.cwd = row.cwd
  pane : row'.paneSessionId = row.paneSessionId
  revision : row'.cwdEvidence.revision = row.cwdEvidence.revision

/-- The counter has reached its largest value. -/
def RegistryState.Saturated (s : RegistryState) : Prop := s.nextCwdRevision = 2 ^ 64 - 1

theorem RegistryState.Saturated.mono (h : s.Saturated)
    (hle : s.nextCwdRevision ≤ t.nextCwdRevision) (hlt : t.nextCwdRevision < 2 ^ 64) :
    t.Saturated := by
  unfold RegistryState.Saturated at h ⊢
  omega

/-- Each row afterwards is one from before, with its directory, pane and revision, or it has a
revision that is larger than all revisions before. -/
structure Fresh (s t : RegistryState) : Prop where
  next : s.nextCwdRevision ≤ t.nextCwdRevision
  rows : ∀ id row', t.sessions.lookup id = some row' →
    (∃ row, s.sessions.lookup id = some row ∧ row.SameDirectory row') ∨
      s.nextCwdRevision < row'.cwdEvidence.revision ∨ t.Saturated

/-- No revision is larger than the counter, and no two rows have the same one. -/
structure Revised (s : RegistryState) : Prop where
  next : s.nextCwdRevision < 2 ^ 64
  le : ∀ id row, s.sessions.lookup id = some row → row.cwdEvidence.revision ≤ s.nextCwdRevision
  inj : ∀ id id' row row', s.sessions.lookup id = some row → s.sessions.lookup id' = some row' →
    row.cwdEvidence.revision = row'.cwdEvidence.revision → id = id' ∨ s.Saturated

theorem revised_empty : Revised {} := by
  refine ⟨by decide, fun id row hrow => ?_, fun id id' row row' hrow => ?_⟩ <;>
    exact absurd hrow (by rw [AList.lookup_empty]; simp)

/-! ### One row -/

theorem newRevision_spec (h : s.nextCwdRevision < 2 ^ 64) :
    s.nextCwdRevision ≤ s.newRevision ∧ s.newRevision < 2 ^ 64 ∧
      (s.nextCwdRevision < s.newRevision ∨ s.newRevision = 2 ^ 64 - 1) := by
  simp only [RegistryState.newRevision, RegistryState.advanceCwdRevision, saturatingAdd]
  omega

theorem Fresh.of_subset (hnext : s.nextCwdRevision ≤ t.nextCwdRevision)
    (hrows : ∀ id row, t.sessions.lookup id = some row → s.sessions.lookup id = some row) :
    Fresh s t :=
  ⟨hnext, fun id row' hrow' => .inl ⟨row', hrows id row' hrow', ⟨rfl, rfl, rfl⟩⟩⟩

theorem Fresh.refl (s : RegistryState) : Fresh s s := of_subset le_rfl fun _ _ h => h

theorem Fresh.trans (h : Fresh s t) (h' : Fresh t u) (hu : u.nextCwdRevision < 2 ^ 64) :
    Fresh s u := by
  refine ⟨h.next.trans h'.next, fun id row₂ hrow₂ => ?_⟩
  rcases h'.rows id row₂ hrow₂ with ⟨row₁, hrow₁, hsame₁⟩ | hlt | hsat
  · rcases h.rows id row₁ hrow₁ with ⟨row₀, hrow₀, hsame₀⟩ | hlt | hsat
    · exact .inl ⟨row₀, hrow₀, hsame₁.cwd.trans hsame₀.cwd, hsame₁.pane.trans hsame₀.pane,
        hsame₁.revision.trans hsame₀.revision⟩
    · rw [← hsame₁.revision] at hlt
      exact .inr (.inl hlt)
    · have hnext := h'.next
      unfold RegistryState.Saturated at hsat ⊢
      exact .inr (.inr (by omega))
  · exact .inr (.inl (lt_of_le_of_lt h.next hlt))
  · exact .inr (.inr hsat)

theorem Fresh.insert (hs : s.nextCwdRevision < 2 ^ 64)
    (ht : t.sessions = s.sessions.insert id row') (hnext : t.nextCwdRevision = s.newRevision)
    (hrev : row'.cwdEvidence.revision = s.newRevision) : Fresh s t := by
  obtain ⟨hle, _, hlt⟩ := newRevision_spec hs
  refine ⟨hnext ▸ hle, fun id₁ row₁ hrow₁ => ?_⟩
  rw [ht, Table.lookup_insert_eq] at hrow₁
  split_ifs at hrow₁ with hid
  · rw [← Option.some.inj hrow₁, hrev]
    exact .inr (hlt.imp_right fun hsat => hnext.trans hsat)
  · exact .inl ⟨row₁, hrow₁, rfl, rfl, rfl⟩

theorem Fresh.edit (hrow : s.sessions.lookup id = some row) (hsame : row.SameDirectory row') :
    Fresh s (s.setRow id row') := by
  refine ⟨le_rfl, fun id₁ row₁ hrow₁ => ?_⟩
  change (s.sessions.insert id row').lookup id₁ = some row₁ at hrow₁
  rw [Table.lookup_insert_eq] at hrow₁
  split_ifs at hrow₁ with hid
  · rw [← Option.some.inj hrow₁, hid]
    exact .inl ⟨row, hrow, hsame⟩
  · exact .inl ⟨row₁, hrow₁, rfl, rfl, rfl⟩

theorem Revised.of_subset (h : Revised s) (hnext : s.nextCwdRevision ≤ t.nextCwdRevision)
    (hlt : t.nextCwdRevision < 2 ^ 64)
    (hrows : ∀ id row', t.sessions.lookup id = some row' → ∃ row, s.sessions.lookup id = some row ∧
      row'.cwdEvidence.revision = row.cwdEvidence.revision) : Revised t := by
  refine ⟨hlt, fun id row' hrow' => ?_, fun id₁ id₂ row₁ row₂ hrow₁ hrow₂ heq => ?_⟩
  · obtain ⟨row, hrow, hrev⟩ := hrows id row' hrow'
    rw [hrev]
    exact (h.le id row hrow).trans hnext
  · obtain ⟨row₁', hrow₁', hrev₁⟩ := hrows id₁ row₁ hrow₁
    obtain ⟨row₂', hrow₂', hrev₂⟩ := hrows id₂ row₂ hrow₂
    refine (h.inj id₁ id₂ row₁' row₂' hrow₁' hrow₂' ?_).imp_right fun hsat => ?_
    · rw [← hrev₁, ← hrev₂, heq]
    · unfold RegistryState.Saturated at hsat ⊢
      omega

theorem Revised.insert (h : Revised s) (ht : t.sessions = s.sessions.insert id row')
    (hnext : t.nextCwdRevision = s.newRevision)
    (hrev : row'.cwdEvidence.revision = s.newRevision) : Revised t := by
  obtain ⟨hle, hlt, hnew⟩ := newRevision_spec h.next
  have hold : ∀ {id₁ row₁}, t.sessions.lookup id₁ = some row₁ →
      (id₁ = id ∧ row₁ = row') ∨ s.sessions.lookup id₁ = some row₁ := by
    intro id₁ row₁ hrow₁
    rw [ht, Table.lookup_insert_eq] at hrow₁
    split_ifs at hrow₁ with hid
    · exact .inl ⟨hid, (Option.some.inj hrow₁).symm⟩
    · exact .inr hrow₁
  have hfresh : ∀ {id₁ row₁}, s.sessions.lookup id₁ = some row₁ →
      row₁.cwdEvidence.revision = s.newRevision → t.Saturated := by
    intro id₁ row₁ hrow₁ heq
    have := h.le id₁ row₁ hrow₁
    unfold RegistryState.Saturated
    omega
  refine ⟨hnext ▸ hlt, fun id₁ row₁ hrow₁ => ?_, fun id₁ id₂ row₁ row₂ hrow₁ hrow₂ heq => ?_⟩
  · rw [hnext]
    rcases hold hrow₁ with ⟨_, rfl⟩ | hrow₁
    · exact hrev.le
    · exact (h.le id₁ row₁ hrow₁).trans hle
  · rcases hold hrow₁ with ⟨rfl, rfl⟩ | hrow₁' <;> rcases hold hrow₂ with ⟨rfl, rfl⟩ | hrow₂'
    · exact .inl rfl
    · exact .inr (hfresh hrow₂' (heq.symm.trans hrev))
    · exact .inr (hfresh hrow₁' (heq.trans hrev))
    · refine (h.inj id₁ id₂ row₁ row₂ hrow₁' hrow₂' heq).imp_right fun hsat => ?_
      unfold RegistryState.Saturated at hsat ⊢
      omega

/-! ### Writes -/

theorem Revised.same (h : Revised s) (hnext : s.nextCwdRevision ≤ t.nextCwdRevision)
    (hlt : t.nextCwdRevision < 2 ^ 64)
    (hrows : ∀ id row, t.sessions.lookup id = some row → s.sessions.lookup id = some row) :
    Revised t ∧ Fresh s t :=
  ⟨h.of_subset hnext hlt fun id row hrow => ⟨row, hrows id row hrow, rfl⟩,
    Fresh.of_subset hnext hrows⟩

theorem Revised.put (h : Revised s) (ht : t.sessions = s.sessions.insert id row')
    (hnext : t.nextCwdRevision = s.newRevision)
    (hrev : row'.cwdEvidence.revision = s.newRevision) : Revised t ∧ Fresh s t :=
  ⟨h.insert ht hnext hrev, Fresh.insert h.next ht hnext hrev⟩

theorem lookup_of_removed {id₁ : SessionIdentity} {row₁ : SessionInfo}
    (h : (s.removeIdentityLocked crates id).1.sessions.lookup id₁ = some row₁) :
    s.sessions.lookup id₁ = some row₁ := by
  cases hrow : s.sessions.lookup id with
  | none =>
    simp only [RegistryState.removeIdentityLocked, hrow] at h
    exact h
  | some row =>
    rw [removeIdentityLocked_eq hrow, Table.lookup_erase_eq] at h
    split_ifs at h
    exact h

variable (crates) in
theorem removeIdentityLocked_next (s : RegistryState) (id : SessionIdentity) :
    (s.removeIdentityLocked crates id).1.nextCwdRevision = s.nextCwdRevision := by
  cases hrow : s.sessions.lookup id with
  | none => simp only [RegistryState.removeIdentityLocked, hrow]
  | some row => rw [removeIdentityLocked_eq hrow]

theorem Revised.write (h : Revised s) (hd : ¬allowed.detaches) (hw : Write crates allowed s t) :
    Revised t ∧ Fresh s t := by
  obtain ⟨hle, hlt, _⟩ := newRevision_spec h.next
  cases hw with
  | aside next known connections failed hnext =>
    have hnext' : s.nextCwdRevision ≤ next ∧ next < 2 ^ 64 := by
      have := h.next
      rcases hnext with rfl | rfl <;> omega
    exact h.same hnext'.1 hnext'.2 fun _ _ hrow => hrow
  | @edit id row row' hrow hkeeps =>
    refine ⟨h.of_subset le_rfl h.next fun id₁ row₁ hrow₁ => ?_,
      Fresh.edit hrow ⟨hkeeps.cwd, hkeeps.pane, by rw [hkeeps.evidence]⟩⟩
    change (s.sessions.insert id row').lookup id₁ = some row₁ at hrow₁
    rw [Table.lookup_insert_eq] at hrow₁
    split_ifs at hrow₁ with hid
    · rw [← Option.some.inj hrow₁, hid, hkeeps.evidence]
      exact ⟨row, hrow, rfl⟩
    · exact ⟨row₁, hrow₁, rfl⟩
  | stamp hrow hid hpane hrev => exact h.put rfl rfl hrev
  | release hrow hid hpane hrev =>
    rw [releasePane_eq]
    exact h.put rfl rfl hrev
  | vacate hrow hp hid hpane hrev => exact h.put rfl rfl hrev
  | detach hdetaches => exact absurd hdetaches hd
  | evict => exact h.same le_rfl h.next fun _ _ hrow => hrow
  | bind hb hrow hid hpane hrev =>
    rw [dropOldPane_eq]
    exact h.put rfl rfl hrev
  | remove id =>
    have hnext := removeIdentityLocked_next crates s id
    exact h.same hnext.ge (hnext ▸ h.next) fun _ _ => lookup_of_removed
  | upsert info =>
    rw [upsertLocked_eq]
    exact h.put rfl rfl (revision_putRow s info)
  | native => exact h.same le_rfl h.next fun _ _ hrow => hrow
  | observe => exact h.same le_rfl h.next fun _ _ hrow => hrow

theorem Revised.writes (h : Revised s) (hd : ¬allowed.detaches)
    (hw : Writes crates allowed s t) : Revised t ∧ Fresh s t := by
  induction hw with
  | refl => exact ⟨h, Fresh.refl s⟩
  | tail _ hlast ih =>
    obtain ⟨hlast, hfresh⟩ := ih.1.write hd hlast
    exact ⟨hlast, ih.2.trans hfresh hlast.next⟩

/-! ### Runs -/

theorem Revised.step (h : Revised s) (op : RegistryOp) (hop : ¬op.Replaces crates s) :
    Revised (op.step crates s) ∧ Fresh s (op.step crates s) := by
  have hwrites : Writes crates ⟨fun _ => True, False, True⟩ s (op.step crates s) := by
    refine op.writes s ?_ ?_ ?_ ?_
    · exact fun _ _ => trivial
    · exact fun _ _ => trivial
    · exact hop
    · exact fun _ => trivial
  exact h.writes not_false hwrites

theorem reached_append (crates : Crates) (ops ops' : List RegistryOp) :
    reached crates (ops ++ ops') = ops'.foldl (RegistryOp.step crates) (reached crates ops) :=
  List.foldl_append

/-- The operations of a run that replace no owner. -/
abbrev ReplacesNone (crates : Crates) (s : RegistryState) (ops : List RegistryOp) : Prop :=
  Along (RegistryOp.step crates) (fun s op => ¬op.Replaces crates s) s ops

theorem Revised.run (h : Revised s) {ops : List RegistryOp} (hops : ReplacesNone crates s ops) :
    Revised (ops.foldl (RegistryOp.step crates) s) ∧
      Fresh s (ops.foldl (RegistryOp.step crates) s) := by
  induction ops generalizing s with
  | nil => exact ⟨h, Fresh.refl s⟩
  | cons op ops ih =>
    obtain ⟨hstep, hfresh⟩ := h.step op hops.1
    obtain ⟨hlast, hfresh'⟩ := ih hstep hops.2
    exact ⟨hlast, hfresh.trans hfresh' hlast.next⟩

/-- No row has the revision under the identity. -/
def Stale (s : RegistryState) (id : SessionIdentity) (revision : ℕ) : Prop :=
  ∀ row, s.sessions.lookup id = some row → row.cwdEvidence.revision ≠ revision

theorem Stale.adopt {n : ℕ} (h : Stale s id n) (agent : Uuid) (cwd : PathBuf) :
    s.adoptAcpCwdIdentity crates id n agent cwd = (s, false) := by
  unfold RegistryState.adoptAcpCwdIdentity
  split
  · rfl
  · split
    · rfl
    · next row hrow => rw [if_pos (.inl (h row hrow))]

theorem Stale.clear {n : ℕ} (h : Stale s id n) : s.clearAcpCwdIdentity id n = (s, false) := by
  unfold RegistryState.clearAcpCwdIdentity
  split
  · rfl
  · next row hrow => rw [if_pos (.inl (h row hrow))]

/-- What an answer about the directory of a session may be wrong about. -/
def RegistryState.directory (s : RegistryState) (id : SessionIdentity) :
    Option (PathBuf × Option String) :=
  (s.sessions.lookup id).map fun row => (row.cwd, row.paneSessionId)

theorem Stale.of_change (h : Fresh s t) {n : ℕ} (hn : n ≤ s.nextCwdRevision)
    (hsat : ¬t.Saturated) (hchange : t.directory id ≠ s.directory id) : Stale t id n := by
  intro row' hrow' hrev
  rcases h.rows id row' hrow' with ⟨row, hrow, hsame⟩ | hlt | hsat'
  · refine hchange ?_
    simp only [RegistryState.directory, hrow, hrow', Option.map_some, hsame.cwd, hsame.pane]
  · omega
  · exact hsat hsat'

theorem Stale.fresh {n : ℕ} (hstale : Stale s id n) (h : Fresh s t) (hn : n ≤ s.nextCwdRevision)
    (hsat : ¬t.Saturated) : Stale t id n := by
  intro row' hrow' hrev
  rcases h.rows id row' hrow' with ⟨row, hrow, hsame⟩ | hlt | hsat'
  · exact hstale row hrow (hsame.revision.symm.trans hrev)
  · omega
  · exact hsat hsat'

/-- In a run that replaces no owner, a row whose directory or pane changes gets a larger revision;
no revision is used twice, by another row or at another time; and an answer about a directory that
was asked for before such a change is refused. -/
theorem revision_detects_change (crates : Crates) (ops : List RegistryOp)
    (h : ReplacesNone crates {} ops) :
    (∀ pre op, pre ++ [op] <+: ops → ∀ id row row',
      (reached crates pre).sessions.lookup id = some row →
      (reached crates (pre ++ [op])).sessions.lookup id = some row' →
      row'.cwd ≠ row.cwd ∨ row'.paneSessionId ≠ row.paneSessionId →
      row.cwdEvidence.revision < row'.cwdEvidence.revision ∨
        (reached crates (pre ++ [op])).Saturated) ∧
    (∀ pre post, pre ++ post <+: ops → ∀ id id' row row',
      (reached crates pre).sessions.lookup id = some row →
      (reached crates (pre ++ post)).sessions.lookup id' = some row' →
      row'.cwdEvidence.revision = row.cwdEvidence.revision →
      (id' = id ∧ row.SameDirectory row') ∨ (reached crates (pre ++ post)).Saturated) ∧
    ∀ pre mid op post, pre ++ mid ++ op :: post <+: ops → ∀ id row,
      (reached crates pre).sessions.lookup id = some row →
      (reached crates (pre ++ mid ++ [op])).directory id ≠
        (reached crates (pre ++ mid)).directory id →
      ¬(reached crates (pre ++ mid ++ op :: post)).Saturated → ∀ agent cwd,
      (reached crates (pre ++ mid ++ op :: post)).adoptAcpCwdIdentity crates id
          row.cwdEvidence.revision agent cwd =
        (reached crates (pre ++ mid ++ op :: post), false) ∧
      (reached crates (pre ++ mid ++ op :: post)).clearAcpCwdIdentity id
          row.cwdEvidence.revision =
        (reached crates (pre ++ mid ++ op :: post), false) := by
  -- what a part of the run keeps, from its first state to its last
  have hpart : ∀ pre post, pre ++ post <+: ops → Revised (reached crates pre) ∧
      Revised (reached crates (pre ++ post)) ∧
      Fresh (reached crates pre) (reached crates (pre ++ post)) := by
    intro pre post hpre
    have halong := h.of_isPrefix hpre
    rw [Along.append] at halong
    have hs := (revised_empty.run halong.1).1
    rw [reached_append]
    exact ⟨hs, hs.run halong.2⟩
  refine ⟨?_, ?_, ?_⟩
  · intro pre op hpre id row row' hrow hrow' hchange
    obtain ⟨hs, _, hfresh⟩ := hpart pre [op] hpre
    rcases hfresh.rows id row' hrow' with ⟨row₁, hrow₁, hsame⟩ | hlt | hsat
    · rw [hrow] at hrow₁
      obtain rfl := Option.some.inj hrow₁
      exact absurd hchange (by simp [hsame.cwd, hsame.pane])
    · exact .inl (lt_of_le_of_lt (hs.le id row hrow) hlt)
    · exact .inr hsat
  · intro pre post hpre id id' row row' hrow hrow' hrev
    obtain ⟨hs, ht, hfresh⟩ := hpart pre post hpre
    have hle := hs.le id row hrow
    rcases hfresh.rows id' row' hrow' with ⟨row₁, hrow₁, hsame⟩ | hlt | hsat
    · rcases hs.inj id' id row₁ row hrow₁ hrow (hsame.revision.symm.trans hrev) with rfl | hsat
      · rw [hrow] at hrow₁
        obtain rfl := Option.some.inj hrow₁
        exact .inl ⟨rfl, hsame⟩
      · exact .inr (hsat.mono hfresh.next ht.next)
    · omega
    · exact .inr hsat
  · intro pre mid op post hpre id row hrow hchange hsat agent cwd
    rw [List.append_cons] at hpre hsat ⊢
    have hop := (List.prefix_append (pre ++ mid ++ [op]) post).trans hpre
    obtain ⟨hs, _, hread⟩ := hpart pre mid ((List.prefix_append _ [op]).trans hop)
    obtain ⟨_, hmid, hfresh⟩ := hpart (pre ++ mid) [op] hop
    obtain ⟨_, hlast, hfresh'⟩ := hpart (pre ++ mid ++ [op]) post hpre
    have hle := (hs.le id row hrow).trans hread.next
    have hsat' : ¬(reached crates (pre ++ mid ++ [op])).Saturated :=
      fun hsat' => hsat (hsat'.mono hfresh'.next hlast.next)
    have hstale := (Stale.of_change hfresh hle hsat' hchange).fresh hfresh'
      (hle.trans hfresh.next) hsat
    exact ⟨hstale.adopt agent cwd, hstale.clear⟩

/-- The identity of a session of Copilot on the host. -/
def copilotIdentity (sid : String) : SessionIdentity :=
  ⟨sid, some ⟨"copilot", .host, sid, none⟩⟩

theorem revision_detects_change_assigned :
    let ops := [RegistryOp.upsert (providerRow "a" "copilot"),
      .assignResumePaneIdentity (copilotIdentity "a") "p" 0]
    ReplacesNone Crates.ofUuid {} ops ∧
      (reached Crates.ofUuid ops).adoptAcpCwdIdentity Crates.ofUuid (copilotIdentity "a") 1 7
        [.drive "C", .rootDir] = (reached Crates.ofUuid ops, false) := by
  intro ops
  have h : ReplacesNone Crates.ofUuid {} ops := ⟨id, id, trivial⟩
  have hrow : (reached Crates.ofUuid [RegistryOp.upsert (providerRow "a" "copilot")]).sessions.lookup
      (copilotIdentity "a") =
        some { providerRow "a" "copilot" with cwdEvidence := { revision := 1 } } := by
    decide +kernel
  refine ⟨h, ((revision_detects_change Crates.ofUuid ops h).2.2 [_] [] _ [] (List.prefix_refl _)
    _ _ hrow ?_ ?_ 7 _).1⟩
  · decide +kernel
  · unfold RegistryState.Saturated
    decide +kernel

/-- A pane is admitted as a native one, a session is born in it, and another one replaces it. -/
def replaceOps : List RegistryOp :=
  let pane := "67e55044-10b1-426f-9247-bb680e5fe0c8"
  [.applyNativeObservation
      { paneId := pane, providerId := "copilot", windowId := 1, tabId := "t", modeEpoch := 1
        location := some .host, event := .reset false } 0,
    .registerNativeBornBinding (copilotIdentity "a") pane [] none none 0,
    .registerNativeBornBinding (copilotIdentity "b") pane [] (some 2) (some ⟨"a", 1⟩) 0]

/-- The owner that is replaced loses its pane and keeps its revision, and an answer that was asked
for before is taken. -/
theorem replaced_owner_keeps_revision :
    let pre := replaceOps.take 2
    let post := reached Crates.ofUuid replaceOps
    ((reached Crates.ofUuid pre).sessions.lookup (copilotIdentity "a")).map
        (fun row => (row.paneSessionId.isSome, row.cwdEvidence.revision)) = some (true, 3) ∧
      (post.sessions.lookup (copilotIdentity "a")).map
        (fun row => (row.paneSessionId.isSome, row.cwdEvidence.revision)) = some (false, 3) ∧
      ¬post.Saturated ∧
      (post.adoptAcpCwdIdentity Crates.ofUuid (copilotIdentity "a") 3 7
        [.drive "C", .rootDir]).2 = true := by
  refine ⟨by decide +kernel, by decide +kernel, ?_, by decide +kernel⟩
  unfold RegistryState.Saturated
  decide +kernel

end IntelligentTerminal.Sessions
