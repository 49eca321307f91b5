import IntelligentTerminal.Sessions.Activity
import IntelligentTerminal.Sessions.RegistryRevision

/-!
# The helper and the master show the same sessions

The master's reducer of events refines the same model of activities as the helper's, with two
differences. It refuses to resurrect a session that has ended, and it looks a pane up by the
canonical form of the text that it stored, which is itself a canonical form. So the two registries
agree after a run in which no tool and no question comes late, and no pane has a canonical form
that is not stable.

Source: `tools/wta/src/agent_sessions.rs`, lines 631-1017, and
`tools/wta/src/session_registry.rs`, lines 4154-4685.
-/

namespace IntelligentTerminal.Sessions

/-! ### What the master shows -/

/-- What is shown of a row. -/
def SessionInfo.activity (row : SessionInfo) : Activity where
  cliSource := row.cliSource
  status := row.status
  pane := row.paneSessionId
  currentTool := row.currentTool
  attentionReason := row.attentionReason
  attentionTimestampMs := row.attentionTimestampMs
  attentionCooldownUntilMs := row.attentionCooldownUntilMs

/-- A row that only hooks have changed. -/
structure SessionInfo.Plain (crates : Crates) (row : SessionInfo) : Prop where
  born : row.bornBoundPane = false
  origin : row.origin = none
  pane : ∀ p, row.paneSessionId = some p → crates.paneKey p = p
  status : row.status ≠ some .historical
  settled : row.activity.Settled

namespace RegistryState

/-- The registry shows the activities, each by one row, and the owners of panes are those of the
rows. There are no native panes. -/
structure Tracks (crates : Crates) (s : RegistryState) (A : Activities) : Prop where
  keyed : Keyed s
  activity : ∀ id row, s.sessions.lookup id = some row → A id.sessionId = some row.activity
  plain : ∀ id row, s.sessions.lookup id = some row → row.Plain crates
  single : ∀ id id', id ∈ s.sessions → id' ∈ s.sessions → id.sessionId = id'.sessionId → id = id'
  exists_row : ∀ key, (A key).isSome → ∃ id ∈ s.sessions, id.sessionId = key
  owns : Table.Owns SessionInfo.paneSessionId s.sessions s.activeByPane
  native : s.nativePanes = ∅

namespace Tracks

variable {crates : Crates} {s t : RegistryState} {A : Activities} {key : AgentKey}
  {id : SessionIdentity} {row row' : SessionInfo} {pane : String} {now : ℕ}
  {f : Activity → Activity} {info : SessionInfo}

theorem empty : Tracks crates {} fun _ => none := by
  refine ⟨keyed_empty, fun id row h => ?_, fun id row h => ?_, fun id id' h => ?_,
    fun key h => absurd h (by simp), Table.owns_empty, rfl⟩
  · rw [AList.lookup_empty] at h
    exact absurd h (by simp)
  · rw [AList.lookup_empty] at h
    exact absurd h (by simp)
  · exact absurd h (AList.notMem_empty id)

theorem mem_of_lookup (hrow : s.sessions.lookup id = some row) : id ∈ s.sessions :=
  AList.lookup_isSome.mp (by rw [hrow]; rfl)

theorem exists_lookup (hid : id ∈ s.sessions) : ∃ row, s.sessions.lookup id = some row :=
  Option.isSome_iff_exists.mp (AList.lookup_isSome.mpr hid)

theorem unique_of_mem (h : Tracks crates s A) (hid : id ∈ s.sessions) :
    s.uniqueIdentityForRaw id.sessionId = some id := by
  have hmem := (h.keyed.mem_raw id.sessionId id).mpr ⟨hid, rfl⟩
  cases hids : s.identitiesByRaw.lookup id.sessionId with
  | none =>
    rw [hids] at hmem
    exact absurd hmem (by simp)
  | some ids =>
    rw [hids, Option.getD_some] at hmem
    have hall : ∀ id' ∈ ids, id' = id := by
      intro id' hid'
      have hmem' := (h.keyed.mem_raw id.sessionId id').mp (by rw [hids]; exact hid')
      exact h.single id' id hmem'.1 hid hmem'.2
    have hnodup := (h.keyed.raw _ ids hids).2
    have hids' : ids = [id] :=
      List.perm_singleton.mp ((List.perm_ext_iff_of_nodup hnodup (List.nodup_singleton id)).mpr
        fun id' => ⟨fun hid' => by rw [hall id' hid']; exact List.mem_singleton_self id,
          fun hid' => by rw [List.mem_singleton.mp hid']; exact hmem⟩)
    rw [RegistryState.uniqueIdentityForRaw, hids, hids']
    rfl

theorem unique_of_none (h : Tracks crates s A) (hA : A key = none) :
    s.uniqueIdentityForRaw key = none := by
  cases hunique : s.uniqueIdentityForRaw key with
  | none => rfl
  | some id =>
    obtain ⟨ids, hids, honly⟩ := Option.bind_eq_some_iff.mp hunique
    have hmem := (h.keyed.mem_raw key id).mp (by
      rw [hids, eq_singleton_of_only honly]
      exact List.mem_singleton_self id)
    obtain ⟨row, hrow⟩ := exists_lookup hmem.1
    have := h.activity id row hrow
    rw [hmem.2, hA] at this
    exact absurd this (by simp)

theorem exists_of_some (h : Tracks crates s A) {a : Activity} (hA : A key = some a) :
    ∃ id row, s.uniqueIdentityForRaw key = some id ∧ s.sessions.lookup id = some row ∧
      id.sessionId = key ∧ row.activity = a := by
  obtain ⟨id, hid, hkey⟩ := h.exists_row key (by rw [hA]; rfl)
  obtain ⟨row, hrow⟩ := exists_lookup hid
  refine ⟨id, row, ?_, hrow, hkey, ?_⟩
  · rw [← hkey]
    exact h.unique_of_mem hid
  · have := h.activity id row hrow
    rw [hkey, hA] at this
    exact (Option.some.inj this).symm

theorem activityRow_cases (h : Tracks crates s A) (key : AgentKey) :
    (A key = none ∧ s.activityRow none key = none) ∨
      ∃ id row, A key = some row.activity ∧ s.activityRow none key = some (id, row) ∧
        s.sessions.lookup id = some row ∧ id.sessionId = key := by
  cases hA : A key with
  | none =>
    refine .inl ⟨rfl, ?_⟩
    rw [RegistryState.activityRow, Option.none_or, h.unique_of_none hA]
    rfl
  | some a =>
    obtain ⟨id, row, hunique, hrow, hkey, rfl⟩ := h.exists_of_some hA
    refine .inr ⟨id, row, rfl, ?_, hrow, hkey⟩
    rw [RegistryState.activityRow, Option.none_or, hunique, Option.bind_some, hrow]
    rfl

/-! ### One row changes -/

theorem adjust_of_fixed (h : Tracks crates s A)
    (hf : ∀ a, A key = some a → f a = a) : Tracks crates s (A.adjust key f) := by
  have hA : A.adjust key f = A := by
    funext k
    rw [Activities.adjust]
    split_ifs with hk
    · rw [hk]
      cases ha : A key with
      | none => rfl
      | some a => rw [Option.map_some, hf a ha]
    · rfl
  rw [hA]
  exact h

theorem set (h : Tracks crates s A) (hrow : s.sessions.lookup id = some row) (hkeyed : Keyed t)
    (hsessions : t.sessions = s.sessions.insert id row')
    (howns : Table.Owns SessionInfo.paneSessionId t.sessions t.activeByPane)
    (hnative : t.nativePanes = s.nativePanes) (hplain : row'.Plain crates)
    (hactivity : row'.activity = f row.activity) :
    Tracks crates t (A.adjust id.sessionId f) := by
  have hmem : ∀ id', id' ∈ t.sessions ↔ id' ∈ s.sessions := by
    intro id'
    rw [hsessions, AList.mem_insert]
    exact or_iff_right_of_imp fun heq => by rw [heq]; exact mem_of_lookup hrow
  refine ⟨hkeyed, fun id' row'' hrow'' => ?_, fun id' row'' hrow'' => ?_, fun id₁ id₂ h₁ h₂ => ?_,
    fun key hkey => ?_, howns, hnative.trans h.native⟩
  · rw [hsessions, Table.lookup_insert_eq] at hrow''
    rw [Activities.adjust]
    split_ifs at hrow'' with heq
    · rw [heq, if_pos rfl, h.activity id row hrow, Option.map_some, ← hactivity,
        ← Option.some.inj hrow'']
    · rw [if_neg, h.activity id' row'' hrow'']
      exact fun hsid => heq (h.single id' id (mem_of_lookup hrow'') (mem_of_lookup hrow) hsid)
  · rw [hsessions, Table.lookup_insert_eq] at hrow''
    split_ifs at hrow''
    · rw [← Option.some.inj hrow'']
      exact hplain
    · exact h.plain id' row'' hrow''
  · exact h.single id₁ id₂ ((hmem id₁).mp h₁) ((hmem id₂).mp h₂)
  · have hkey' : (A key).isSome := by
      rw [Activities.adjust] at hkey
      split_ifs at hkey
      · simpa using hkey
      · exact hkey
    obtain ⟨id', hid', hsid⟩ := h.exists_row key hkey'
    exact ⟨id', (hmem id').mpr hid', hsid⟩

theorem setRow (h : Tracks crates s A) (hrow : s.sessions.lookup id = some row)
    (hid : SessionIdentity.fromInfo row' = SessionIdentity.fromInfo row)
    (hpane : row'.paneSessionId = row.paneSessionId) (hplain : row'.Plain crates)
    (hactivity : row'.activity = f row.activity) :
    Tracks crates (s.setRow id row') (A.adjust id.sessionId f) := by
  refine h.set hrow (h.keyed.setRow hrow hid) rfl ?_ rfl hplain hactivity
  exact h.owns.keep (by rw [hrow, Option.bind_some, hpane])

theorem owns_release (h : Tracks crates s A) (hrow : s.sessions.lookup id = some row)
    (hpane : row'.paneSessionId = none) :
    Table.Owns SessionInfo.paneSessionId (s.sessions.insert id row')
      (s.releasePane crates id row.paneSessionId).activeByPane := by
  cases hp : row.paneSessionId with
  | none => exact h.owns.keep (by rw [hrow, Option.bind_some, hp, hpane])
  | some p =>
    have hclaim : (s.sessions.lookup id).bind SessionInfo.paneSessionId = some p := by
      rw [hrow, Option.bind_some, hp]
    have hstable := (h.plain id row hrow).pane p hp
    rw [RegistryState.releasePane, hstable, if_pos ((h.owns p id).mpr hclaim)]
    exact h.owns.release hclaim hpane

theorem advance (h : Tracks crates s A) : Tracks crates s.advanceCwdRevision A :=
  ⟨h.keyed.of_eq rfl rfl, h.activity, h.plain, h.single, h.exists_row, h.owns, h.native⟩

theorem release (h : Tracks crates s A) (hrow : s.sessions.lookup id = some row)
    (hid : SessionIdentity.fromInfo row' = SessionIdentity.fromInfo row)
    (hpane : row'.paneSessionId = none) (hplain : row'.Plain crates)
    (hactivity : row'.activity = f row.activity) :
    Tracks crates ((s.releasePane crates id row.paneSessionId).setRow id row')
      (A.adjust id.sessionId f) := by
  have howns := h.owns_release hrow hpane
  rw [releasePane_eq]
  refine h.set hrow ?_ ?_ ?_ ?_ hplain hactivity
  · exact (h.keyed.setRow hrow hid).of_eq rfl rfl
  · rfl
  · exact howns
  · rfl

theorem vacate (h : Tracks crates s A) (hrow : s.sessions.lookup id = some row)
    (hclaim : row.paneSessionId = some pane)
    (hid : SessionIdentity.fromInfo row' = SessionIdentity.fromInfo row)
    (hpane : row'.paneSessionId = none) (hplain : row'.Plain crates)
    (hactivity : row'.activity = f row.activity) :
    Tracks crates
      (({ s with activeByPane := s.activeByPane.erase pane } : RegistryState).advanceCwdRevision.setRow
        id row') (A.adjust id.sessionId f) := by
  refine h.set hrow ?_ ?_ ?_ ?_ hplain hactivity
  · exact (h.keyed.setRow hrow hid).of_eq rfl rfl
  · rfl
  · exact h.owns.release (by rw [hrow]; exact hclaim) hpane
  · rfl

/-! ### A session starts -/

theorem remove (h : Tracks crates s A) (hid : id ∈ s.sessions) :
    Tracks crates (s.removeIdentityLocked crates id).1
      fun k => if k = id.sessionId then none else A k := by
  obtain ⟨row, hrow⟩ := exists_lookup hid
  have hkeyed : Keyed (s.removeIdentityLocked crates id).1 := h.keyed.remove id
  rw [removeIdentityLocked_eq hrow] at hkeyed ⊢
  have hlookup : ∀ id' row', (s.sessions.erase id).lookup id' = some row' →
      id'.sessionId ≠ id.sessionId ∧ s.sessions.lookup id' = some row' := by
    intro id' row' hrow'
    rw [Table.lookup_erase_eq] at hrow'
    split_ifs at hrow' with hne
    exact ⟨fun hsid => hne (h.single id' id (mem_of_lookup hrow') hid hsid), hrow'⟩
  refine ⟨hkeyed, fun id' row' hrow' => ?_, fun id' row' hrow' => ?_, fun id₁ id₂ h₁ h₂ => ?_,
    fun key hkey => ?_, ?_, h.native⟩
  · obtain ⟨hne, hrow'⟩ := hlookup id' row' hrow'
    rw [if_neg hne]
    exact h.activity id' row' hrow'
  · exact h.plain id' row' (hlookup id' row' hrow').2
  · exact h.single id₁ id₂ (AList.mem_erase.mp h₁).2 (AList.mem_erase.mp h₂).2
  · split_ifs at hkey with hne
    · exact absurd hkey (by simp)
    · obtain ⟨id', hid', hsid⟩ := h.exists_row key hkey
      refine ⟨id', AList.mem_erase.mpr ⟨?_, hid'⟩, hsid⟩
      rintro rfl
      exact hne hsid.symm
  · cases hp : row.paneSessionId with
    | none => exact h.owns.erase_of_none (by rw [hrow, Option.bind_some, hp])
    | some p =>
      have hclaim : (s.sessions.lookup id).bind SessionInfo.paneSessionId = some p := by
        rw [hrow, Option.bind_some, hp]
      have hstable := (h.plain id row hrow).pane p hp
      change Table.Owns _ (s.sessions.erase id) (s.releasePane crates id (some p)).activeByPane
      rw [RegistryState.releasePane, hstable, if_pos ((h.owns p id).mpr hclaim)]
      exact h.owns.erase hclaim

theorem put (h : Tracks crates s A) (hA : A info.sessionId = none)
    (hpane : info.paneSessionId = some pane) (hne : pane ≠ "") (hfree : ∀ k a, A k = some a →
      a.pane ≠ some pane) (hplain : info.Plain crates) :
    Tracks crates (s.upsertLocked crates info)
      fun k => if k = info.sessionId then some info.activity else A k := by
  have hnew : s.sessions.lookup (SessionIdentity.fromInfo info) = none := by
    cases hrow : s.sessions.lookup (SessionIdentity.fromInfo info) with
    | none => rfl
    | some row =>
      have := h.activity _ row hrow
      rw [show (SessionIdentity.fromInfo info).sessionId = info.sessionId from rfl, hA] at this
      exact absurd this (by simp)
  have hput : s.putRow crates info =
      { info with cwdEvidence := { info.cwdEvidence with revision := s.newRevision } } := by
    rw [RegistryState.putRow, RegistryState.keepNativeBinding, hnew]
  have hindex : s.putPane crates info =
      s.activeByPane.insert pane (SessionIdentity.fromInfo info) := by
    have hpane' : (s.putRow crates info).paneSessionId = some pane := by
      rw [hput]
      exact hpane
    simp only [RegistryState.putPane, hpane', if_pos hne, hnew, Option.bind_none,
      RegistryState.releasePane, hplain.pane pane hpane]
  have hkeyed : Keyed (s.upsertLocked crates info) := h.keyed.upsert info
  have howner : ∀ id, s.activeByPane.lookup pane ≠ some id := by
    intro id howner
    obtain ⟨row, hrow, hclaim⟩ := Option.bind_eq_some_iff.mp ((h.owns pane id).mp howner)
    exact hfree _ _ (h.activity id row hrow) hclaim
  have hnone : ∀ p, s.activeByPane.lookup p ≠ some (SessionIdentity.fromInfo info) := by
    intro p hp
    have := (h.owns p _).mp hp
    rw [hnew] at this
    exact absurd this (by simp)
  rw [upsertLocked_eq, hput, hindex] at hkeyed ⊢
  refine ⟨hkeyed, fun id' row' hrow' => ?_, fun id' row' hrow' => ?_, fun id₁ id₂ h₁ h₂ hsid => ?_,
    fun key hkey => ?_, ?_, h.native⟩
  · simp only [Table.lookup_insert_eq] at hrow'
    split_ifs at hrow' with heq
    · rw [heq, ← Option.some.inj hrow']
      exact if_pos rfl
    · have hactivity := h.activity id' row' hrow'
      rw [if_neg, hactivity]
      intro hsid
      rw [hsid, hA] at hactivity
      exact absurd hactivity (by simp)
  · simp only [Table.lookup_insert_eq] at hrow'
    split_ifs at hrow'
    · rw [← Option.some.inj hrow']
      exact ⟨hplain.born, hplain.origin, hplain.pane, hplain.status, hplain.settled⟩
    · exact h.plain id' row' hrow'
  · have hother : ∀ id ∈ s.sessions, id.sessionId ≠ info.sessionId := by
      intro id hid hsid
      obtain ⟨row, hrow⟩ := exists_lookup hid
      have := h.activity id row hrow
      rw [hsid, hA] at this
      exact absurd this (by simp)
    rcases (AList.mem_insert _).mp h₁ with rfl | h₁
    · rcases (AList.mem_insert _).mp h₂ with rfl | h₂
      · rfl
      · exact absurd hsid.symm (hother id₂ h₂)
    · rcases (AList.mem_insert _).mp h₂ with rfl | h₂
      · exact absurd hsid (hother id₁ h₁)
      · exact h.single id₁ id₂ h₁ h₂ hsid
  · split_ifs at hkey with heq
    · exact ⟨SessionIdentity.fromInfo info, (AList.mem_insert _).mpr (.inl rfl), heq.symm⟩
    · obtain ⟨id', hid', hsid⟩ := h.exists_row key hkey
      exact ⟨id', (AList.mem_insert _).mpr (.inr hid'), hsid⟩
  · refine h.owns.takeover (k := SessionIdentity.fromInfo info) (p := pane) ?_ (fun k' hk' => ?_)
      fun p' => ?_
    · simp only [Table.lookup_insert_eq, if_true]
      exact hpane
    · rw [if_neg (howner k'), Table.lookup_insert_eq, if_neg hk']
    · rw [Table.lookup_insert_eq, if_neg (hnone p')]

/-! ### The events of a session -/

theorem isOver_iff (hplain : row.Plain crates) : row.isOver ↔ row.status = some .ended := by
  simp [SessionInfo.isOver, hplain.status]

theorem plain_of_live (hplain : row.Plain crates) (hborn : row'.bornBoundPane = row.bornBoundPane)
    (horigin : row'.origin = row.origin) (hpane : row'.paneSessionId = row.paneSessionId)
    (hstatus : row'.status ∈ [some AgentStatus.idle, some .working, some .attention]) :
    row'.Plain crates := by
  refine ⟨hborn.trans hplain.born, horigin.trans hplain.origin, ?_, ?_, ?_⟩
  · rw [hpane]
    exact hplain.pane
  · rintro heq
    rw [heq] at hstatus
    exact absurd hstatus (by simp)
  · intro heq
    change row'.status = _ at heq
    rw [heq] at hstatus
    exact absurd hstatus (by simp)

theorem toolStarting (h : Tracks crates s A)
    (hlate : ∀ a, A key = some a → a.status ≠ some .ended) (toolName : String) :
    Tracks crates (s.toolStarting none key toolName now).1
      (A.adjust key (·.toolStarting toolName)) := by
  rcases h.activityRow_cases key with ⟨hA, hnone⟩ | ⟨id, row, hA, hsome, hrow, rfl⟩
  · simp only [RegistryState.toolStarting, hnone]
    exact h.adjust_of_fixed fun a ha => absurd (hA.symm.trans ha) (by simp)
  · have hplain := h.plain id row hrow
    have hover : ¬row.isOver := fun hover => hlate _ hA ((isOver_iff hplain).mp hover)
    simp only [RegistryState.toolStarting, hsome, if_neg hover]
    refine h.setRow hrow ?_ ?_ (plain_of_live hplain ?_ ?_ ?_ ?_) ?_
    all_goals first | rfl | simp

theorem toolReturned (h : Tracks crates s A) (timestampMs : Option ℕ) :
    Tracks crates (s.toolReturned none key timestampMs now).1
      (A.adjust key (·.toolReturned timestampMs now)) := by
  rcases h.activityRow_cases key with ⟨hA, hnone⟩ | ⟨id, row, hA, hsome, hrow, rfl⟩
  · simp only [RegistryState.toolReturned, hnone]
    exact h.adjust_of_fixed fun a ha => absurd (hA.symm.trans ha) (by simp)
  · have hplain := h.plain id row hrow
    have hfixed : row.activity.toolReturned timestampMs now = row.activity →
        Tracks crates s (A.adjust id.sessionId (·.toolReturned timestampMs now)) :=
      fun hf => h.adjust_of_fixed fun a ha => by
        rw [← Option.some.inj (hA.symm.trans ha)]
        exact hf
    simp only [RegistryState.toolReturned, hsome]
    split_ifs with h₁ h₂ h₃
    · exact hfixed (if_pos h₁)
    · exact hfixed ((if_neg h₁).trans (if_pos h₂))
    · exact hfixed ((if_neg h₁).trans ((if_neg h₂).trans (if_pos h₃)))
    · refine h.setRow hrow ?_ ?_ (plain_of_live hplain ?_ ?_ ?_ ?_)
        ((if_neg h₁).trans ((if_neg h₂).trans (if_neg h₃))).symm
      all_goals first | rfl | simp

theorem toolCompleted (h : Tracks crates s A) :
    Tracks crates (s.toolCompleted none key now).1 (A.adjust key (·.toolCompleted)) := by
  rcases h.activityRow_cases key with ⟨hA, hnone⟩ | ⟨id, row, hA, hsome, hrow, rfl⟩
  · simp only [RegistryState.toolCompleted, hnone]
    exact h.adjust_of_fixed fun a ha => absurd (hA.symm.trans ha) (by simp)
  · have hplain := h.plain id row hrow
    by_cases hover : row.isOver
    · -- nothing runs in a session that has ended
      simp only [RegistryState.toolCompleted, hsome, if_pos hover]
      refine h.adjust_of_fixed fun a ha => ?_
      obtain rfl := Option.some.inj (hA.symm.trans ha)
      have hended : row.activity.status = some .ended := (isOver_iff hplain).mp hover
      exact Activity.toolCompleted_of_ended hended (hplain.settled hended)
    · simp only [RegistryState.toolCompleted, hsome, if_neg hover]
      refine h.setRow hrow ?_ ?_ ?_ ?_
      · split_ifs <;> rfl
      · split_ifs <;> rfl
      · by_cases hstatus : row.status = some .working ∨ row.status = some .attention
        · simp only [if_pos hstatus]
          exact plain_of_live hplain rfl rfl rfl (by simp)
        · simp only [if_neg hstatus]
          exact ⟨hplain.born, hplain.origin, hplain.pane, hplain.status, fun _ => rfl⟩
      · by_cases hstatus : row.status = some .working ∨ row.status = some .attention
        · simp [Activity.toolCompleted, SessionInfo.activity, Activity.quiet, hstatus]
        · simp [Activity.toolCompleted, SessionInfo.activity, hstatus]

theorem notification (h : Tracks crates s A)
    (hlate : ∀ a, A key = some a → a.status ≠ some .ended) (message : String)
    (timestampMs : Option ℕ) :
    Tracks crates (s.notification none key message timestampMs now).1
      (A.adjust key (·.notification message timestampMs now)) := by
  rcases h.activityRow_cases key with ⟨hA, hnone⟩ | ⟨id, row, hA, hsome, hrow, rfl⟩
  · simp only [RegistryState.notification, hnone]
    exact h.adjust_of_fixed fun a ha => absurd (hA.symm.trans ha) (by simp)
  · have hplain := h.plain id row hrow
    have hover : ¬row.isOver := fun hover => hlate _ hA ((isOver_iff hplain).mp hover)
    have hlater : ∀ a b, SessionInfo.laterAttention a b = maxOption a b := by
      intro a b
      cases a <;> cases b <;> rfl
    simp only [RegistryState.notification, hsome, if_neg hover, hlater]
    refine h.setRow hrow ?_ ?_ (plain_of_live hplain ?_ ?_ ?_ ?_) ?_
    all_goals first | rfl | simp

theorem plain_of_ended (hplain : row.Plain crates) (horigin : row'.origin = row.origin)
    (hborn : row'.bornBoundPane = false) (hpane : row'.paneSessionId = none)
    (hstatus : row'.status = some .ended) (htool : row'.currentTool = none) :
    row'.Plain crates := by
  refine ⟨hborn, horigin.trans hplain.origin, fun p hp => ?_, by simp [hstatus], fun _ => htool⟩
  rw [hpane] at hp
  exact absurd hp (by simp)

theorem sessionStopped (h : Tracks crates s A) (reason : String) :
    Tracks crates (s.sessionStopped crates key reason now).1 (A.adjust key (·.toEnded)) := by
  cases hA : A key with
  | none =>
    simp only [RegistryState.sessionStopped, h.unique_of_none hA]
    exact h.adjust_of_fixed fun a ha => absurd (hA.symm.trans ha) (by simp)
  | some a =>
    obtain ⟨id, row, hunique, hrow, rfl, rfl⟩ := h.exists_of_some hA
    have hplain := h.plain id row hrow
    have hrow' : s.advanceCwdRevision.sessions.lookup id = some row := hrow
    simp only [RegistryState.sessionStopped, hunique, hrow']
    rw [if_neg (by rw [hplain.origin]; simp)]
    refine h.advance.release hrow' ?_ ?_ (plain_of_ended hplain ?_ ?_ ?_ ?_ ?_) ?_ <;> rfl

theorem endEntry (h : Tracks crates s A) (hid : id ∈ s.sessions) :
    Tracks crates (s.endEntry crates id now).1 (A.adjust id.sessionId (·.toEnded)) := by
  obtain ⟨row, hrow⟩ := exists_lookup hid
  have hplain := h.plain id row hrow
  have hrow' : s.advanceCwdRevision.sessions.lookup id = some row := hrow
  simp only [RegistryState.endEntry, hrow']
  refine h.advance.release hrow' ?_ ?_ (plain_of_ended hplain ?_ ?_ ?_ ?_ ?_) ?_ <;> rfl

theorem endPane_of_owner (h : Tracks crates s A) (howner : s.activeByPane.lookup pane = some id) :
    A.endPane pane = A.adjust id.sessionId (·.toEnded) := by
  obtain ⟨row, hrow, hclaim⟩ := Option.bind_eq_some_iff.mp ((h.owns pane id).mp howner)
  funext k
  rw [Activities.adjust, Activities.endPane]
  split_ifs with hk
  · rw [hk, h.activity id row hrow, Option.map_some, Option.map_some]
    exact congrArg some (if_pos hclaim)
  · cases hA : A k with
    | none => rfl
    | some a =>
      obtain ⟨id', row', _, hrow', rfl, rfl⟩ := h.exists_of_some hA
      rw [Option.map_some, if_neg]
      intro hpane
      have hother := (h.owns pane id').mpr (by rw [hrow']; exact hpane)
      rw [howner] at hother
      exact hk (by rw [Option.some.inj hother])

theorem endPane_of_free (h : Tracks crates s A) (hfree : s.activeByPane.lookup pane = none) :
    A.endPane pane = A := by
  funext k
  rw [Activities.endPane]
  cases hA : A k with
  | none => rfl
  | some a =>
    obtain ⟨id, row, _, hrow, rfl, rfl⟩ := h.exists_of_some hA
    rw [Option.map_some, if_neg]
    intro hpane
    have howner := (h.owns pane id).mpr (by rw [hrow]; exact hpane)
    rw [hfree] at howner
    exact absurd howner (by simp)

theorem paneClosed (h : Tracks crates s A) :
    Tracks crates (s.paneClosed pane now).1 (A.endPane pane) := by
  have hconn : ∀ table, Tracks crates { s with paneConnections := table } A := fun _ =>
    ⟨h.keyed.of_eq rfl rfl, h.activity, h.plain, h.single, h.exists_row, h.owns, h.native⟩
  unfold RegistryState.paneClosed
  generalize ht : (if s.paneConnections.lookup pane = some .connected then
    { s with paneConnections := s.paneConnections.erase pane } else s) = t
  have h' : Tracks crates t A := by
    rw [← ht]
    split_ifs
    · exact hconn _
    · exact h
  cases howner : t.activeByPane.lookup pane with
  | none =>
    simp only [howner]
    rw [h'.endPane_of_free howner]
    exact h'
  | some id =>
    rw [h'.endPane_of_owner howner]
    obtain ⟨row, hrow, hclaim⟩ := Option.bind_eq_some_iff.mp ((h'.owns pane id).mp howner)
    have hplain := h'.plain id row hrow
    have hrow' : ({ t with activeByPane := t.activeByPane.erase pane } :
        RegistryState).advanceCwdRevision.sessions.lookup id = some row := hrow
    simp only [howner, hrow']
    refine h'.vacate hrow hclaim ?_ ?_ (plain_of_ended hplain ?_ ?_ ?_ ?_ ?_) ?_ <;> rfl

/-! ### The start of a session -/

theorem ownedByOther_eq_false (h : Tracks crates s A) (existing : Option SessionIdentity)
    (pane : String) : s.ownedByOtherBornBound existing pane = false := by
  rw [RegistryState.ownedByOtherBornBound, Option.any_eq_false]
  intro row hrow
  obtain ⟨id, _, hid⟩ := Option.bind_eq_some_iff.mp hrow
  simp [(h.plain id row hid).born]

variable (key pane now) in
theorem endPreviousOwner (h : Tracks crates s A) :
    Tracks crates (s.endPreviousOwner crates (s.uniqueIdentityForRaw key) pane now)
      fun k => if k = key then A k else A.endPane pane k := by
  unfold RegistryState.endPreviousOwner
  cases howner : s.activeByPane.lookup pane with
  | none =>
    simp only [h.endPane_of_free howner, ite_self]
    exact h
  | some id =>
    obtain ⟨row, hrow, _⟩ := Option.bind_eq_some_iff.mp ((h.owns pane id).mp howner)
    have hid := mem_of_lookup hrow
    simp only
    rw [h.endPane_of_owner howner]
    by_cases hkey : id.sessionId = key
    · rw [if_neg (by rw [← hkey, h.unique_of_mem hid]; simp)]
      convert h using 2 with k
      split_ifs with hk
      · rfl
      · rw [Activities.adjust, if_neg (by rw [hkey]; exact hk)]
    · have hne : some id ≠ s.uniqueIdentityForRaw key := fun heq =>
        hkey (h.keyed.sessionId_of_unique heq.symm)
      rw [if_pos hne]
      have hended : Tracks crates (s.endEntry crates id now).1 _ := h.endEntry hid
      convert hended using 2 with k
      split_ifs with hk
      · rw [Activities.adjust, if_neg (by rw [hk]; exact Ne.symm hkey)]
      · rfl

theorem start_activity (row : SessionInfo) (cli : CliSource) (cwd : PathBuf) (title : String) :
    (row.start false cli (some pane) cwd title now).activity =
      Activity.start (some row.activity) cli pane := by
  by_cases h : row.status ∈ [some AgentStatus.ended, some .error, some .historical]
  · simp only [SessionInfo.start, Bool.false_eq_true, false_or, if_pos h, Activity.start,
      SessionInfo.activity]
    exact (if_pos h).symm
  · simp only [SessionInfo.start, Bool.false_eq_true, false_or, if_neg h, Activity.start,
      SessionInfo.activity]
    exact (if_neg h).symm

variable (pane now) in
theorem start_status (row : SessionInfo) (isNew : Bool) (cli : CliSource) (cwd : PathBuf)
    (title : String) :
    (row.start isNew cli (some pane) cwd title now).status ∉
      [some AgentStatus.ended, some .historical] := by
  by_cases h : isNew = true ∨ row.status ∈ [some AgentStatus.ended, some .error, some .historical]
  · simp only [SessionInfo.start, if_pos h]
    simp
  · simp only [SessionInfo.start, if_neg h]
    simp only [not_or, List.mem_cons, List.not_mem_nil, or_false] at h
    simp [h.2.1, h.2.2.2]

theorem start_plain (hborn : row.origin = none) (hstable : crates.paneKey pane = pane)
    (isNew : Bool) (cli : CliSource) (cwd : PathBuf) (title : String) :
    (row.start isNew cli (some pane) cwd title now).Plain crates := by
  have hstatus := start_status pane now row isNew cli cwd title
  simp only [List.mem_cons, List.not_mem_nil, or_false, not_or] at hstatus
  refine ⟨?_, ?_, fun p hp => ?_, hstatus.2, fun hended => absurd hended hstatus.1⟩
  · simp only [SessionInfo.start]
  · simp only [SessionInfo.start]
    split_ifs <;> exact hborn
  · simp only [SessionInfo.start, Option.some.injEq] at hp
    rw [← hp]
    exact hstable

theorem unique_endPreviousOwner (s : RegistryState) (existing : Option SessionIdentity) :
    (s.endPreviousOwner crates existing pane now).uniqueIdentityForRaw key =
      s.uniqueIdentityForRaw key := by
  unfold RegistryState.endPreviousOwner
  split
  · rfl
  · split_ifs
    · unfold RegistryState.endEntry
      simp only
      split
      · rfl
      · rw [releasePane_eq]
        rfl
    · rfl

variable (now) in
theorem startRow (h : Tracks crates s A) (hA : A key = none)
    (hkey : info.sessionId = key) (horigin : info.origin = none) (hne : pane ≠ "")
    (hstable : crates.paneKey pane = pane)
    (hfree : ∀ k a, A k = some a → a.pane ≠ some pane) (isNew : Bool) (cli : CliSource)
    (cwd : PathBuf) (title : String) :
    Tracks crates (s.upsertLocked crates (info.start isNew cli (some pane) cwd title now))
      fun k => if k = key then
        some (info.start isNew cli (some pane) cwd title now).activity else A k := by
  have hid : (info.start isNew cli (some pane) cwd title now).sessionId = key := by
    rw [start_sessionId, hkey]
  have hpane : (info.start isNew cli (some pane) cwd title now).paneSessionId = some pane := by
    simp only [SessionInfo.start]
  have hput := h.put (by rw [hid]; exact hA) hpane hne hfree
    (start_plain horigin hstable isNew cli cwd title)
  rwa [hid] at hput

theorem startSession (h : Tracks crates s A) (hne : pane ≠ "") (hstable : crates.paneKey pane = pane)
    (cli : CliSource) (cwd : PathBuf) (title : String) :
    Tracks crates
      (s.startSession crates (s.uniqueIdentityForRaw key) key cli pane cwd title now)
      (A.start key cli pane) := by
  have hended := h.endPreviousOwner key pane now
  rw [startSession_eq]
  simp only [h.ownedByOther_eq_false, hne, ne_eq, not_false_eq_true, decide_true, Bool.not_false,
    Bool.and_self, if_true]
  have hunique : s.uniqueIdentityForRaw key = (s.endPreviousOwner crates
      (s.uniqueIdentityForRaw key) pane now).uniqueIdentityForRaw key :=
    (unique_endPreviousOwner s _).symm
  generalize s.endPreviousOwner crates (s.uniqueIdentityForRaw key) pane now = t at hended hunique
  rw [hunique]
  have hfree : ∀ k a, A.endPane pane k = some a → a.pane ≠ some pane := by
    intro k a ha
    obtain ⟨b, -, rfl⟩ := Option.map_eq_some_iff.mp ha
    split_ifs with hpane
    · simp [Activity.toEnded]
    · exact hpane
  cases hA : A key with
  | none =>
    have hnone : t.uniqueIdentityForRaw key = none :=
      hended.unique_of_none ((if_pos rfl).trans hA)
    have hnew : (SessionInfo.new key cwd).sessionId = key := rfl
    have hstart := hended.startRow now ((if_pos rfl).trans hA) hnew rfl hne hstable (fun k a ha => by
        split_ifs at ha with hk
        · rw [hk, hA] at ha
          exact absurd ha (by simp)
        · exact hfree k a ha) true cli cwd title
    rw [hnone]
    have hbefore : t.beforeStart crates none = (t, none) := rfl
    simp only [hbefore, Option.getD_none, Option.isNone_none]
    convert hstart using 2 with k
    unfold Activities.start
    split_ifs with hk
    · rw [hk, hA]
      rfl
    · rfl
  | some a =>
    have hactivity : (if key = key then A key else A.endPane pane key) = some a :=
      (if_pos rfl).trans hA
    obtain ⟨id, row, hsome, hrow, hid, hactivity⟩ := hended.exists_of_some hactivity
    have hremoved := hended.remove (mem_of_lookup hrow)
    rw [hid] at hremoved
    have hbefore : (t.removeIdentityLocked crates id).2 = some row := by
      rw [removeIdentityLocked_eq hrow]
    have hsession : row.sessionId = key := by
      rw [hended.keyed.removed_sessionId hbefore, hid]
    have hstart := hremoved.startRow now (if_pos rfl) hsession (hended.plain id row hrow).origin
      hne hstable (fun k a ha => by
        split_ifs at ha with hk
        exact hfree k a ha) false cli cwd title
    rw [hsome]
    simp only [RegistryState.beforeStart, hbefore, Option.getD_some, Option.isNone_some]
    convert hstart using 2 with k
    unfold Activities.start
    split_ifs with hk
    · rw [hk, hA, start_activity, hactivity]
    · rfl

theorem sessionStarted (h : Tracks crates s A) (hne : pane ≠ "")
    (hstable : crates.paneKey pane = pane) (cli : CliSource) (cwd : PathBuf) (title : String) :
    Tracks crates (s.sessionStarted crates key cli pane cwd title now).1 (A.start key cli pane) := by
  unfold RegistryState.sessionStarted
  simp only
  split
  · next id entry hentry =>
    obtain ⟨id', _, hmap⟩ := Option.bind_eq_some_iff.mp hentry
    obtain ⟨row, hrow, heq⟩ := Option.map_eq_some_iff.mp hmap
    cases heq
    rw [if_neg (by rw [(h.plain _ _ hrow).origin]; simp)]
    exact h.startSession hne hstable cli cwd title
  · exact h.startSession hne hstable cli cwd title

/-! ### The reducer -/

theorem applyEvent_eq (h : Tracks crates s A) (ev : SessionEvent) :
    s.applyEventQualifiedAtMs crates ev none now now =
      s.applyArm crates none now now (ev.canonical crates) := by
  have hactivity : ∀ key, s.isNativeActivity crates none key = false := by
    intro key
    rw [RegistryState.isNativeActivity, h.native]
    rfl
  have hprotected : s.isProtected crates ev = false := by
    rw [RegistryState.isProtected, h.native, Option.any_eq_false]
    intro pane _
    rw [AList.lookup_empty]
    simp
  unfold RegistryState.applyEventQualifiedAtMs
  rw [if_neg, if_neg]
  · rw [hprotected]
    simp
  · rw [Option.any_eq_true]
    rintro ⟨key, _, hkey⟩
    rw [hactivity] at hkey
    exact absurd hkey (by simp)

end Tracks

end RegistryState

/-- A tool or a question that comes after its session has ended, and a start in a pane whose
canonical form is not stable. -/
def SessionEvent.Late (crates : Crates) (r : AgentSessionRegistry) : SessionEvent → Prop
  | .sessionStarted _ _ pane _ _ => crates.paneKey (crates.paneKey pane) ≠ crates.paneKey pane
  | .toolStarting key _ | .notification key _ _ =>
    ∃ entry, r.sessions.lookup key = some entry ∧ entry.status = .ended
  | _ => False

variable {crates : Crates} {r : AgentSessionRegistry} {A : Activities} {s : RegistryState}

open RegistryState in
theorem RegistryState.Tracks.step (h : Tracks crates s A) (hr : r.Shows A) {ev : SessionEvent}
    (hev : ev.Shared) (hlate : ¬ev.Late crates r) (now : ℕ) :
    Tracks crates (s.applyEventQualifiedAtMs crates ev none now now).1
      (A.step now (ev.canonical crates)) := by
  have hended : ∀ key, (¬∃ entry, r.sessions.lookup key = some entry ∧ entry.status = .ended) →
      ∀ a, A key = some a → a.status ≠ some .ended := by
    intro key hkey a ha hstatus
    rw [← hr.activity key] at ha
    obtain ⟨entry, hentry, rfl⟩ := Option.map_eq_some_iff.mp ha
    exact hkey ⟨entry, hentry, Option.some.inj hstatus⟩
  rw [h.applyEvent_eq]
  cases ev with
  | sessionStarted key cliSource pane cwd title =>
    exact h.sessionStarted (fun hempty => hev (Crates.paneKey_eq_empty.mp hempty))
      (not_not.mp hlate) cliSource cwd _
  | toolStarting key toolName => exact h.toolStarting (hended key hlate) toolName
  | toolReturned key timestampMs => exact h.toolReturned timestampMs
  | toolCompleted key => exact h.toolCompleted
  | notification key message timestampMs =>
    exact h.notification (hended key hlate) message timestampMs
  | sessionStopped key reason => exact h.sessionStopped reason
  | paneClosed pane => exact h.paneClosed
  | _ => exact hev.elim

/-! ### Runs -/

/-- Both registries follow an event that is received at the given time. -/
def bothStep (crates : Crates) (s : AgentSessionRegistry × RegistryState)
    (e : SessionEvent × SystemTime) : AgentSessionRegistry × RegistryState :=
  (s.1.applyAt crates e.1 e.2,
    (s.2.applyEventQualifiedAtMs crates e.1 none (systemTimeMs e.2) (systemTimeMs e.2)).1)

/-- A row of the helper and one of the master show the same. -/
structure SameRow (crates : Crates) (entry : AgentSession) (row : SessionInfo) : Prop where
  status : row.status = some entry.status
  pane : row.paneSessionId.map crates.paneKey = entry.paneSessionId.map crates.paneKey
  currentTool : row.currentTool = entry.currentTool
  attentionReason : row.attentionReason = entry.attentionReason
  attentionTimestampMs : row.attentionTimestampMs = entry.attentionTimestampMs
  attentionCooldownUntilMs : row.attentionCooldownUntilMs = entry.attentionCooldownUntilMs

/-- The registries have rows for the same sessions, and the rows show the same. -/
structure Agree (crates : Crates) (r : AgentSessionRegistry) (s : RegistryState) : Prop where
  helper : ∀ key entry, r.sessions.lookup key = some entry →
    ∃ id row, s.sessions.lookup id = some row ∧ id.sessionId = key ∧ SameRow crates entry row
  master : ∀ id row, s.sessions.lookup id = some row →
    ∃ entry, r.sessions.lookup id.sessionId = some entry ∧ SameRow crates entry row

theorem SameRow.of_activity {entry : AgentSession} {row : SessionInfo}
    (h : row.activity = entry.activity) : SameRow crates entry row :=
  ⟨congrArg Activity.status h, congrArg (Option.map crates.paneKey) (congrArg Activity.pane h),
    congrArg Activity.currentTool h, congrArg Activity.attentionReason h,
    congrArg Activity.attentionTimestampMs h, congrArg Activity.attentionCooldownUntilMs h⟩

theorem Agree.of_activities (hr : r.Shows A) (hs : s.Tracks crates A) : Agree crates r s := by
  refine ⟨fun key entry hentry => ?_, fun id row hrow => ?_⟩
  · have hA : A key = some entry.activity := by
      rw [← hr.activity key, hentry, Option.map_some]
    obtain ⟨id, row, _, hrow, hkey, hactivity⟩ := hs.exists_of_some hA
    exact ⟨id, row, hrow, hkey, .of_activity hactivity⟩
  · have hA := hs.activity id row hrow
    rw [← hr.activity] at hA
    obtain ⟨entry, hentry, hactivity⟩ := Option.map_eq_some_iff.mp hA
    exact ⟨entry, hentry, .of_activity hactivity.symm⟩

/-- After a run of events that both registries follow, of which none comes late, the helper and the
master show the same sessions. -/
theorem reducers_agree (crates : Crates) (events : List (SessionEvent × SystemTime))
    (hevents : ∀ e ∈ events, e.1.Shared)
    (h : Along (bothStep crates) (fun s e => ¬e.1.Late crates s.1) ({}, {}) events) :
    ∀ pre, pre <+: events →
      Agree crates (pre.foldl (bothStep crates) ({}, {})).1
        (pre.foldl (bothStep crates) ({}, {})).2 := by
  intro pre hpre
  have hshared : ∀ e ∈ pre, e.1.Shared := fun e he => hevents e (hpre.subset he)
  have halong := h.of_isPrefix hpre
  obtain ⟨A, hr, hs⟩ : ∃ A, (pre.foldl (bothStep crates) ({}, {})).1.Shows A ∧
      (pre.foldl (bothStep crates) ({}, {})).2.Tracks crates A := by
    clear hpre
    induction pre using List.reverseRecOn with
    | nil => exact ⟨_, .empty, .empty⟩
    | append_singleton pre e ih =>
      obtain ⟨hpre, hlate, _⟩ := Along.append.mp halong
      obtain ⟨A, hr, hs⟩ := ih (fun e he => hshared e (List.mem_append_left _ he)) hpre
      have hev := hshared e (List.mem_append_right _ (List.mem_singleton_self e))
      rw [List.foldl_concat]
      exact ⟨_, hr.step hev e.2, hs.step hr hev hlate _⟩
  exact .of_activities hr hs

def startCopilot (key pane : String) : SessionEvent := .sessionStarted key .copilot pane [] ""

theorem reducers_agree_started :
    let events := [(startCopilot "a" "p", 0), (SessionEvent.notification "a" "?" none, 1),
      (startCopilot "b" "P", 2)]
    Along (bothStep Crates.ofUuid) (fun s e => ¬e.1.Late Crates.ofUuid s.1) ({}, {}) events ∧
      ∀ pre, pre <+: events →
        Agree Crates.ofUuid (pre.foldl (bothStep Crates.ofUuid) ({}, {})).1
          (pre.foldl (bothStep Crates.ofUuid) ({}, {})).2 := by
  intro events
  have hevents : ∀ e ∈ events, e.1.Shared := by
    simp [events, startCopilot, SessionEvent.Shared]
  have halong : Along (bothStep Crates.ofUuid) (fun s e => ¬e.1.Late Crates.ofUuid s.1) ({}, {})
      events := by
    refine ⟨?_, ?_, ?_, trivial⟩
    · exact fun h => h (by decide +kernel)
    · rintro ⟨entry, hentry, hstatus⟩
      have hlookup : ((bothStep Crates.ofUuid ({}, {}) (startCopilot "a" "p", 0)).1.sessions.lookup
          "a").map (·.status) = some .idle := by decide +kernel
      rw [hentry, Option.map_some, hstatus] at hlookup
      exact absurd hlookup (by simp)
    · exact fun h => h (by decide +kernel)
  exact ⟨halong, reducers_agree Crates.ofUuid events hevents halong⟩

/-- A tool that starts after its session has ended resurrects it for the helper only. -/
theorem late_tool_not_agree :
    let events := [(startCopilot "a" "p", 0), (SessionEvent.sessionStopped "a" "user_exit", 1),
      (SessionEvent.toolStarting "a" "shell", 2)]
    (∀ e ∈ events, e.1.Shared) ∧
      ¬Agree Crates.ofUuid (events.foldl (bothStep Crates.ofUuid) ({}, {})).1
        (events.foldl (bothStep Crates.ofUuid) ({}, {})).2 := by
  intro events
  refine ⟨by simp [events, startCopilot, SessionEvent.Shared], fun h => ?_⟩
  have hmaster : ((events.foldl (bothStep Crates.ofUuid) ({}, {})).2.sessions.lookup
      (copilotIdentity "a")).map (·.status) = some (some .ended) := by decide +kernel
  obtain ⟨row, hrow, hended⟩ := Option.map_eq_some_iff.mp hmaster
  obtain ⟨entry, hentry, hsame⟩ := h.master _ row hrow
  have hhelper : ((events.foldl (bothStep Crates.ofUuid) ({}, {})).1.sessions.lookup "a").map
      (·.status) = some .working := by decide +kernel
  have hentry' : (events.foldl (bothStep Crates.ofUuid) ({}, {})).1.sessions.lookup "a" =
      some entry := hentry
  rw [hentry', Option.map_some] at hhelper
  have hstatus := hsame.status
  rw [hended, Option.some.inj hhelper] at hstatus
  exact absurd hstatus (by simp)

end IntelligentTerminal.Sessions
