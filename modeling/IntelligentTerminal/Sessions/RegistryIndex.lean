import IntelligentTerminal.Data.Run
import IntelligentTerminal.Sessions.RegistryWrites

/-!
# The indexes of the master's registry

Each row is stored under its own identity, the identities of a raw session id are those that have
a row, and the owner of a pane has a row with that pane. One operation can break the last of these:
`assign_resume_pane_identity` stores the canonical form of a pane id as the pane of the row, and
looks the row up by the canonical form of that. The two differ for a text that `uuid` refuses only
because of its upper-case letters.

Source: `tools/wta/src/session_registry.rs`, lines 2087-4736.
-/

namespace IntelligentTerminal.Sessions

/-- The canonical form of the pane of a row. -/
def SessionInfo.pane (crates : Crates) (row : SessionInfo) : Option String :=
  row.paneSessionId.map crates.paneKey

/-- The three maps of the registry agree: rows are stored under their own identity, a raw id has
exactly the identities that have a row, and the owner of a pane has a row with that pane. -/
structure RegistryState.IndexConsistent (crates : Crates) (s : RegistryState) : Prop where
  keyed : ∀ id row, s.sessions.lookup id = some row → id = SessionIdentity.fromInfo row
  raw_mem : ∀ sid, sid ∈ s.identitiesByRaw ↔ ∃ id ∈ s.sessions, id.sessionId = sid
  raw : ∀ sid ids, s.identitiesByRaw.lookup sid = some ids →
    ids.Nodup ∧ ∀ id, id ∈ ids ↔ id ∈ s.sessions ∧ id.sessionId = sid
  owner : ∀ p id, s.activeByPane.lookup p = some id →
    ∃ row pane, s.sessions.lookup id = some row ∧ row.paneSessionId = some pane ∧
      crates.paneKey pane = p

/-- Rows are stored under their own identity, and a raw id has exactly the identities that have a
row. -/
structure Keyed (s : RegistryState) : Prop where
  keyed : ∀ id row, s.sessions.lookup id = some row → SessionIdentity.fromInfo row = id
  mem_raw : ∀ sid id, id ∈ (s.identitiesByRaw.lookup sid).getD [] ↔
    id ∈ s.sessions ∧ id.sessionId = sid
  raw : ∀ sid ids, s.identitiesByRaw.lookup sid = some ids → ids ≠ [] ∧ ids.Nodup

/-- The three maps agree. -/
structure Indexed (crates : Crates) (s : RegistryState) : Prop extends Keyed s where
  covers : Table.Covers (SessionInfo.pane crates) s.sessions s.activeByPane

variable {crates : Crates} {allowed : Allowed} {s t : RegistryState} {id : SessionIdentity}
  {row row' : SessionInfo}

theorem Indexed.indexConsistent (h : Indexed crates s) : s.IndexConsistent crates := by
  refine ⟨fun id row hrow => (h.keyed id row hrow).symm, fun sid => ?_, fun sid ids hids => ?_,
    fun p id hp => ?_⟩
  · constructor
    · intro hmem
      obtain ⟨ids, hids⟩ := Option.isSome_iff_exists.mp (AList.lookup_isSome.mpr hmem)
      obtain ⟨id, hid⟩ := List.exists_mem_of_ne_nil ids (h.raw sid ids hids).1
      exact ⟨id, (h.mem_raw sid id).mp (by rw [hids]; exact hid)⟩
    · rintro ⟨id, hid, hsid⟩
      have hmem := (h.mem_raw sid id).mpr ⟨hid, hsid⟩
      rw [← AList.lookup_isSome]
      cases hlook : s.identitiesByRaw.lookup sid with
      | none =>
        rw [hlook] at hmem
        exact absurd hmem (by simp)
      | some ids => rfl
  · refine ⟨(h.raw sid ids hids).2, fun id => ?_⟩
    rw [← h.mem_raw sid id, hids]
    rfl
  · obtain ⟨row, hrow, hpane⟩ := Option.bind_eq_some_iff.mp (h.covers p id hp)
    obtain ⟨pane, hp', hkey⟩ := Option.map_eq_some_iff.mp hpane
    exact ⟨row, pane, hrow, hp', hkey⟩

theorem keyed_empty : Keyed {} := by
  refine ⟨fun id row hrow => ?_, fun sid id => ?_, fun sid ids hids => ?_⟩
  · rw [AList.lookup_empty] at hrow
    exact absurd hrow (by simp)
  · rw [AList.lookup_empty]
    simp
  · rw [AList.lookup_empty] at hids
    exact absurd hids (by simp)

theorem indexed_empty : Indexed crates {} := ⟨keyed_empty, Table.covers_empty⟩

/-! ### The row that is put -/

/-- The row that `upsert_locked` stores. -/
def RegistryState.putRow (crates : Crates) (s : RegistryState) (info : SessionInfo) : SessionInfo :=
  s.keepNativeBinding crates (SessionIdentity.fromInfo info)
    { info with cwdEvidence := { info.cwdEvidence with revision := s.newRevision } }

/-- The index after a row was put. -/
def RegistryState.putPane (crates : Crates) (s : RegistryState) (info : SessionInfo) :
    Table String SessionIdentity :=
  let released := (s.releasePane crates (SessionIdentity.fromInfo info)
    ((s.sessions.lookup (SessionIdentity.fromInfo info)).bind (·.paneSessionId))).activeByPane
  match (s.putRow crates info).paneSessionId with
  | none => released
  | some pane =>
    if pane ≠ "" then released.insert (crates.paneKey pane) (SessionIdentity.fromInfo info)
    else released

theorem fromInfo_keepNativeBinding (s : RegistryState) (id : SessionIdentity)
    (info : SessionInfo) :
    SessionIdentity.fromInfo (s.keepNativeBinding crates id info) =
      SessionIdentity.fromInfo info := by
  unfold RegistryState.keepNativeBinding
  split
  · rfl
  · split
    · rfl
    · simp only
      split_ifs <;> rfl

theorem evidence_keepNativeBinding (s : RegistryState) (id : SessionIdentity)
    (info : SessionInfo) :
    (s.keepNativeBinding crates id info).cwdEvidence = info.cwdEvidence := by
  unfold RegistryState.keepNativeBinding
  split
  · rfl
  · split
    · rfl
    · simp only
      split_ifs <;> rfl

theorem fromInfo_putRow (s : RegistryState) (info : SessionInfo) :
    SessionIdentity.fromInfo (s.putRow crates info) = SessionIdentity.fromInfo info := by
  rw [RegistryState.putRow, fromInfo_keepNativeBinding]
  rfl

theorem sessionId_putRow (s : RegistryState) (info : SessionInfo) :
    (s.putRow crates info).sessionId = info.sessionId :=
  congrArg SessionIdentity.sessionId (fromInfo_putRow s info)

theorem revision_putRow (s : RegistryState) (info : SessionInfo) :
    (s.putRow crates info).cwdEvidence.revision = s.newRevision := by
  rw [RegistryState.putRow, evidence_keepNativeBinding]

theorem releasePane_eq (s : RegistryState) (id : SessionIdentity) (pane : Option String) :
    s.releasePane crates id pane =
      { s with activeByPane := (s.releasePane crates id pane).activeByPane } := by
  unfold RegistryState.releasePane
  split
  · rfl
  · split_ifs <;> rfl

theorem dropOldPane_eq (s : RegistryState) (id : SessionIdentity) (old : Option String)
    (pane : String) :
    s.dropOldPane crates id old pane =
      { s with activeByPane := (s.dropOldPane crates id old pane).activeByPane } := by
  unfold RegistryState.dropOldPane
  split
  · rfl
  · split_ifs <;> rfl

theorem releasePane_activeByPane (h : t.activeByPane = s.activeByPane) (id : SessionIdentity)
    (pane : Option String) :
    (t.releasePane crates id pane).activeByPane = (s.releasePane crates id pane).activeByPane := by
  unfold RegistryState.releasePane
  split
  · exact h
  · rw [h]
    split_ifs
    · rfl
    · exact h

theorem upsertLocked_eq (s : RegistryState) (info : SessionInfo) :
    s.upsertLocked crates info =
      { s with
        nextCwdRevision := s.newRevision
        knownRawIds := s.knownRawIds.insert info.sessionId
        activeByPane := s.putPane crates info
        identitiesByRaw := s.identitiesByRaw.insert (s.putRow crates info).sessionId
          (((s.identitiesByRaw.lookup (s.putRow crates info).sessionId).getD []).insert
            (SessionIdentity.fromInfo info))
        sessions := s.sessions.insert (SessionIdentity.fromInfo info) (s.putRow crates info) } := by
  have hreleased : ∀ id pane,
      ({ s.advanceCwdRevision with
        knownRawIds := s.advanceCwdRevision.knownRawIds.insert info.sessionId }.releasePane crates id
          pane).activeByPane = (s.releasePane crates id pane).activeByPane :=
    fun id pane => releasePane_activeByPane (by rfl) id pane
  unfold RegistryState.upsertLocked RegistryState.putPane
  simp only
  rw [releasePane_eq, hreleased]
  split
  · next hpane =>
    have hpane' : (s.putRow crates info).paneSessionId = none := hpane
    rw [hpane']
    rfl
  · next pane hpane =>
    have hpane' : (s.putRow crates info).paneSessionId = some pane := hpane
    rw [hpane']
    by_cases hempty : pane ≠ ""
    · simp only [if_pos hempty]
      rfl
    · simp only [if_neg hempty]
      rfl

theorem forgetIdentity_eq (s : RegistryState) (sid : String) (id : SessionIdentity) :
    s.forgetIdentity sid id =
      { s with identitiesByRaw := (s.forgetIdentity sid id).identitiesByRaw } := by
  unfold RegistryState.forgetIdentity
  split <;> rfl

theorem forgetIdentity_raw (h : t.identitiesByRaw = s.identitiesByRaw) (sid : String)
    (id : SessionIdentity) :
    (t.forgetIdentity sid id).identitiesByRaw = (s.forgetIdentity sid id).identitiesByRaw := by
  unfold RegistryState.forgetIdentity
  rw [h]
  split
  · exact h
  · rfl

theorem removeIdentityLocked_eq (hrow : s.sessions.lookup id = some row) :
    s.removeIdentityLocked crates id =
      ({ s with
          sessions := s.sessions.erase id
          activeByPane := (s.releasePane crates id row.paneSessionId).activeByPane
          identitiesByRaw := (s.forgetIdentity row.sessionId id).identitiesByRaw },
        some row) := by
  have hreleased : ({ s with sessions := s.sessions.erase id }.releasePane crates id
      row.paneSessionId).activeByPane = (s.releasePane crates id row.paneSessionId).activeByPane :=
    releasePane_activeByPane (by rfl) id _
  simp only [RegistryState.removeIdentityLocked, hrow]
  rw [releasePane_eq, hreleased, forgetIdentity_eq, forgetIdentity_raw (s := s) (by rfl)]

/-! ### Identities -/

namespace Keyed

theorem of_eq (h : Keyed s) (hs : t.sessions = s.sessions)
    (hr : t.identitiesByRaw = s.identitiesByRaw) : Keyed t := by
  obtain ⟨hkeyed, hmem, hraw⟩ := h
  refine ⟨?_, ?_, ?_⟩
  · rwa [hs]
  · rwa [hs, hr]
  · rwa [hr]

theorem setRow (h : Keyed s) (hrow : s.sessions.lookup id = some row)
    (hid : SessionIdentity.fromInfo row' = SessionIdentity.fromInfo row) :
    Keyed (s.setRow id row') := by
  refine ⟨fun id' row'' hrow'' => ?_, fun sid id' => ?_, h.raw⟩
  · change (s.sessions.insert id row').lookup id' = some row'' at hrow''
    rw [Table.lookup_insert_eq] at hrow''
    split_ifs at hrow'' with heq
    · rw [← Option.some.inj hrow'', hid, heq]
      exact h.keyed id row hrow
    · exact h.keyed id' row'' hrow''
  · change _ ↔ id' ∈ s.sessions.insert id row' ∧ _
    rw [AList.mem_insert]
    refine (h.mem_raw sid id').trans (and_congr_left fun _ => ?_)
    refine ⟨.inr, fun hmem => hmem.elim (fun heq => ?_) fun hmem => hmem⟩
    rw [heq, ← AList.lookup_isSome, hrow]
    rfl

theorem lookup_forgetIdentity (s : RegistryState) (sid sid' : String) (id : SessionIdentity) :
    ((s.forgetIdentity sid id).identitiesByRaw.lookup sid') =
      if sid' = sid then
        ((s.identitiesByRaw.lookup sid).map (·.erase id)).filter fun ids => ids ≠ []
      else s.identitiesByRaw.lookup sid' := by
  unfold RegistryState.forgetIdentity
  cases hids : s.identitiesByRaw.lookup sid with
  | none =>
    simp only [Option.map_none, Option.filter_none]
    split_ifs with h
    · rw [h, hids]
    · rfl
  | some ids =>
    simp only [Option.map_some]
    split_ifs with hempty h h
    · rw [Table.lookup_erase_eq, if_pos h]
      simp [Option.filter_some, hempty]
    · rw [Table.lookup_erase_eq, if_neg h]
    · rw [Table.lookup_insert_eq, if_pos h]
      simp [Option.filter_some, hempty]
    · rw [Table.lookup_insert_eq, if_neg h]

variable (crates) in
theorem removeIdentityLocked_lookup (hrow : s.sessions.lookup id = some row) :
    (∀ id', (s.removeIdentityLocked crates id).1.sessions.lookup id' =
      if id' = id then none else s.sessions.lookup id') ∧
    ∀ sid, (s.removeIdentityLocked crates id).1.identitiesByRaw.lookup sid =
      if sid = row.sessionId then
        ((s.identitiesByRaw.lookup row.sessionId).map (·.erase id)).filter fun ids => ids ≠ []
      else s.identitiesByRaw.lookup sid := by
  rw [removeIdentityLocked_eq hrow]
  exact ⟨fun id' => Table.lookup_erase_eq _ _ _, fun sid => lookup_forgetIdentity _ _ _ _⟩

theorem nodup_raw (h : Keyed s) (sid : String) : ((s.identitiesByRaw.lookup sid).getD []).Nodup := by
  cases hids : s.identitiesByRaw.lookup sid with
  | none => exact List.nodup_nil
  | some ids => exact (h.raw sid ids hids).2

theorem getD_filter_erase (ids : Option (List SessionIdentity)) (id : SessionIdentity) :
    ((ids.map (·.erase id)).filter fun ids => ids ≠ []).getD [] = (ids.getD []).erase id := by
  cases ids with
  | none => rfl
  | some ids =>
    rw [Option.map_some, Option.filter_some, Option.getD_some]
    split_ifs with h
    · rfl
    · have hnil : ids.erase id = [] := by
        by_contra hne
        exact h (decide_eq_true hne)
      rw [Option.getD_none, hnil]

theorem remove (h : Keyed s) (id : SessionIdentity) :
    Keyed (s.removeIdentityLocked crates id).1 := by
  cases hrow : s.sessions.lookup id with
  | none =>
    simp only [RegistryState.removeIdentityLocked, hrow]
    exact h
  | some row =>
    obtain ⟨hsessions, hraw⟩ := removeIdentityLocked_lookup crates hrow
    have hsid : id.sessionId = row.sessionId :=
      congrArg SessionIdentity.sessionId (h.keyed id row hrow).symm
    refine ⟨fun id' row' hrow' => ?_, fun sid id' => ?_, fun sid ids hids => ?_⟩
    · rw [hsessions] at hrow'
      split_ifs at hrow' with hne
      exact h.keyed id' row' hrow'
    · have hmem : id' ∈ (s.removeIdentityLocked crates id).1.sessions ↔ id' ≠ id ∧
          id' ∈ s.sessions := by
        rw [← AList.lookup_isSome, ← AList.lookup_isSome, hsessions]
        split_ifs with heq <;> simp [heq]
      rw [hraw, hmem, and_assoc, ← h.mem_raw sid id']
      split_ifs with heq
      · rw [getD_filter_erase, heq]
        exact (h.nodup_raw _).mem_erase_iff
      · refine ⟨fun hid' => ⟨?_, hid'⟩, And.right⟩
        rintro rfl
        exact heq (((h.mem_raw sid id').mp hid').2.symm.trans hsid)
    · rw [hraw] at hids
      split_ifs at hids with heq
      · obtain ⟨hmap, hne⟩ := Option.filter_eq_some_iff.mp hids
        obtain ⟨ids', hids', rfl⟩ := Option.map_eq_some_iff.mp hmap
        exact ⟨of_decide_eq_true hne, (h.raw _ _ hids').2.erase id⟩
      · exact h.raw sid ids hids

theorem upsert (h : Keyed s) (info : SessionInfo) : Keyed (s.upsertLocked crates info) := by
  rw [upsertLocked_eq, sessionId_putRow]
  refine ⟨fun id' row' hrow' => ?_, fun sid id' => ?_, fun sid ids hids => ?_⟩
  · simp only [Table.lookup_insert_eq] at hrow'
    split_ifs at hrow' with heq
    · rw [← Option.some.inj hrow', fromInfo_putRow, heq]
    · exact h.keyed id' row' hrow'
  · simp only [Table.lookup_insert_eq, AList.mem_insert]
    split_ifs with heq
    · rw [Option.getD_some, List.mem_insert_iff, h.mem_raw, heq, or_and_right]
      refine or_congr_left ⟨fun hid => ⟨hid, ?_⟩, And.left⟩
      rw [hid]
      rfl
    · rw [h.mem_raw, or_and_right]
      refine ⟨.inr, fun hid => hid.elim (fun hid => absurd ?_ heq) id⟩
      rw [← hid.2, hid.1]
      rfl
  · simp only [Table.lookup_insert_eq] at hids
    split_ifs at hids with heq
    · rw [← Option.some.inj hids]
      exact ⟨List.ne_nil_of_mem (List.mem_insert_self), (h.nodup_raw _).insert⟩
    · exact h.raw sid ids hids

theorem write (h : Keyed s) (hw : Write crates allowed s t) : Keyed t := by
  cases hw with
  | aside => exact h.of_eq rfl rfl
  | edit hrow hkeeps => exact h.setRow hrow hkeeps.identity
  | stamp hrow hid => exact (h.setRow hrow hid).of_eq rfl rfl
  | @release id row row' hrow hid =>
    refine (h.setRow hrow hid).of_eq ?_ ?_ <;> rw [releasePane_eq] <;> rfl
  | vacate hrow _ hid => exact (h.setRow hrow hid).of_eq rfl rfl
  | detach _ hrow _ hid => exact (h.setRow hrow hid).of_eq rfl rfl
  | evict => exact h.of_eq rfl rfl
  | bind _ hrow hid => refine (h.setRow hrow hid).of_eq ?_ ?_ <;> rw [dropOldPane_eq] <;> rfl
  | remove id => exact h.remove id
  | upsert info => exact h.upsert info
  | native => exact h.of_eq rfl rfl
  | observe => exact h.of_eq rfl rfl

theorem writes (h : Keyed s) (hw : Writes crates Allowed.all s t) : Keyed t :=
  hw.invariant (fun _ _ hs hwrite => hs.write hwrite) h

end Keyed

/-! ### Owners -/

namespace Indexed

variable {id' : SessionIdentity} {p : String}

theorem pane_of_owner (h : Indexed crates s) (hp : s.activeByPane.lookup p = some id) :
    ((s.sessions.lookup id).bind (·.paneSessionId)).map crates.paneKey = some p := by
  have := h.covers p id hp
  cases hrow : s.sessions.lookup id with
  | none =>
    rw [hrow] at this
    exact absurd this (by simp)
  | some row =>
    rw [hrow] at this
    exact this

theorem lookup_releasePane (h : Indexed crates s)
    (hp : (s.releasePane crates id
      ((s.sessions.lookup id).bind (·.paneSessionId))).activeByPane.lookup p = some id') :
    s.activeByPane.lookup p = some id' ∧ id' ≠ id := by
  have howner : s.activeByPane.lookup p = some id → _ := h.pane_of_owner
  generalize (s.sessions.lookup id).bind (·.paneSessionId) = pane at hp howner
  unfold RegistryState.releasePane at hp
  cases pane with
  | none =>
    refine ⟨hp, ?_⟩
    rintro rfl
    exact absurd (howner hp) (by simp)
  | some pane =>
    simp only at hp
    split_ifs at hp with hactive
    · rw [Table.lookup_erase_eq] at hp
      split_ifs at hp with hne
      refine ⟨hp, ?_⟩
      rintro rfl
      exact hne (Option.some.inj (howner hp)).symm
    · refine ⟨hp, ?_⟩
      rintro rfl
      rw [Option.some.inj (howner hp)] at hactive
      exact hactive hp

theorem lookup_releasePane_of_row (h : Indexed crates s) (hrow : s.sessions.lookup id = some row)
    (hp : (s.releasePane crates id row.paneSessionId).activeByPane.lookup p = some id') :
    s.activeByPane.lookup p = some id' ∧ id' ≠ id := by
  refine h.lookup_releasePane ?_
  rw [hrow]
  exact hp

theorem lookup_dropOldPane (h : Indexed crates s) (hrow : s.sessions.lookup id = some row)
    {pane p : String}
    (hp : (s.dropOldPane crates id row.paneSessionId pane).activeByPane.lookup p = some id') :
    s.activeByPane.lookup p = some id' ∧ (id' = id → p = pane) := by
  have howner : s.activeByPane.lookup p = some id → row.paneSessionId.map crates.paneKey = some p := by
    intro hactive
    have := h.pane_of_owner hactive
    rwa [hrow] at this
  unfold RegistryState.dropOldPane at hp
  cases hold : row.paneSessionId with
  | none =>
    rw [hold] at hp howner
    refine ⟨hp, ?_⟩
    rintro rfl
    exact absurd (howner hp) (by simp)
  | some old =>
    rw [hold] at hp howner
    simp only at hp
    split_ifs at hp with hdrop
    · rw [Table.lookup_erase_eq] at hp
      split_ifs at hp with hne
      refine ⟨hp, ?_⟩
      rintro rfl
      exact absurd (Option.some.inj (howner hp)).symm hne
    · refine ⟨hp, ?_⟩
      rintro rfl
      have heq := Option.some.inj (howner hp)
      rw [heq] at hdrop
      by_contra hne
      exact hdrop ⟨hne, hp⟩

theorem setRow (h : Indexed crates s) (hrow : s.sessions.lookup id = some row)
    (hpane : row'.paneSessionId = row.paneSessionId) :
    Table.Covers (SessionInfo.pane crates) (s.sessions.insert id row') s.activeByPane := by
  refine h.covers.keep ?_
  rw [hrow, Option.bind_some, SessionInfo.pane, SessionInfo.pane, hpane]

theorem insert_of_not_owner (h : Indexed crates s) {index : Table String SessionIdentity}
    (hindex : ∀ p id', index.lookup p = some id' → s.activeByPane.lookup p = some id' ∧ id' ≠ id) :
    Table.Covers (SessionInfo.pane crates) (s.sessions.insert id row') index := by
  refine h.covers.drop (fun id' hne => ?_) hindex
  rw [Table.lookup_insert_eq, if_neg hne]

theorem lookup_erase_owner (h : Indexed crates s)
    (hp : s.activeByPane.lookup p = some id) (p' : String) (id' : SessionIdentity)
    (hp' : (s.activeByPane.erase p).lookup p' = some id') :
    s.activeByPane.lookup p' = some id' ∧ id' ≠ id := by
  rw [Table.lookup_erase_eq] at hp'
  split_ifs at hp' with hne
  refine ⟨hp', ?_⟩
  rintro rfl
  exact hne (Option.some.inj ((h.covers p' id' hp').symm.trans (h.covers p id' hp)))

theorem upsert (h : Indexed crates s) (info : SessionInfo) :
    Indexed crates (s.upsertLocked crates info) := by
  refine ⟨h.toKeyed.upsert info, ?_⟩
  have hreleased : ∀ p id', (s.releasePane crates (SessionIdentity.fromInfo info)
      ((s.sessions.lookup (SessionIdentity.fromInfo info)).bind
        (·.paneSessionId))).activeByPane.lookup p = some id' →
      s.activeByPane.lookup p = some id' ∧ id' ≠ SessionIdentity.fromInfo info :=
    fun p id' hp => h.lookup_releasePane hp
  rw [upsertLocked_eq]
  simp only [RegistryState.putPane]
  split
  · exact h.insert_of_not_owner hreleased
  · next pane hpane =>
    split_ifs
    · refine Table.Covers.assign (fun p id' hp => h.covers p id' (hreleased p id' hp).1) ?_
        fun p hp => absurd rfl (hreleased p _ hp).2
      rw [SessionInfo.pane, hpane, Option.map_some]
    · exact h.insert_of_not_owner hreleased

theorem remove (h : Indexed crates s) (id : SessionIdentity) :
    Indexed crates (s.removeIdentityLocked crates id).1 := by
  refine ⟨h.toKeyed.remove id, ?_⟩
  cases hrow : s.sessions.lookup id with
  | none =>
    simp only [RegistryState.removeIdentityLocked, hrow]
    exact h.covers
  | some row =>
    rw [removeIdentityLocked_eq hrow]
    refine h.covers.drop (fun id' hne => ?_) fun p id' hp => h.lookup_releasePane_of_row hrow hp
    rw [Table.lookup_erase_eq, if_neg hne]

theorem write (h : Indexed crates s) (hstable : ∀ p, allowed.bindable p → crates.paneKey p = p)
    (hw : Write crates allowed s t) : Indexed crates t := by
  refine ⟨h.toKeyed.write hw, ?_⟩
  have hadvance : Indexed crates s.advanceCwdRevision := ⟨h.toKeyed.of_eq rfl rfl, h.covers⟩
  cases hw with
  | aside => exact h.covers
  | edit hrow hkeeps => exact h.setRow hrow hkeeps.pane
  | stamp hrow _ hpane => exact h.setRow hrow hpane
  | release hrow =>
    rw [releasePane_eq]
    exact h.insert_of_not_owner fun p id' hp => hadvance.lookup_releasePane_of_row hrow hp
  | vacate _ hp => exact h.insert_of_not_owner (h.lookup_erase_owner hp)
  | detach _ _ hp => exact h.insert_of_not_owner (h.lookup_erase_owner hp)
  | evict _ hp => exact fun p' id' hp' => h.covers p' id' (h.lookup_erase_owner hp p' id' hp').1
  | @bind id p row row' hb hrow _ hpane =>
    have hdropped : ∀ p' id',
        (s.advanceCwdRevision.dropOldPane crates id row.paneSessionId p).activeByPane.lookup p' =
          some id' → s.activeByPane.lookup p' = some id' ∧ (id' = id → p' = p) :=
      fun _ _ hp' => hadvance.lookup_dropOldPane hrow hp'
    rw [dropOldPane_eq]
    refine Table.Covers.assign (fun p' id' hp' => h.covers p' id' (hdropped p' id' hp').1) ?_
      fun p' hp' => (hdropped p' _ hp').2 rfl
    rw [SessionInfo.pane, hpane, Option.map_some, hstable p hb]
  | remove id => exact (h.remove id).covers
  | upsert info => exact (h.upsert info).covers
  | native => exact h.covers
  | observe => exact h.covers

end Indexed

/-! ### Runs -/

/-- The indexes agree in every state that a run reaches, if no operation of the run binds a pane
in a form that is not its own canonical form. -/
theorem indexConsistent_of_bindsStable (crates : Crates) (ops : List RegistryOp)
    (h : Along (RegistryOp.step crates) (fun s op => ¬op.BindsUnstable crates s) {} ops) :
    ∀ pre, pre <+: ops →
      (pre.foldl (RegistryOp.step crates) {}).IndexConsistent crates := by
  intro pre hpre
  refine Indexed.indexConsistent
    (Along.invariant (fun s op _ hs hop => ?_) indexed_empty h pre hpre)
  have hwrites : Writes crates ⟨fun p => crates.paneKey p = p, True, True⟩ s (op.step crates s) :=
    op.writes s (fun _ hp => hp) (fun hbinds => absurd hbinds hop) (fun _ => trivial)
      fun _ => trivial
  exact Writes.invariant (fun s t hs hw => hs.write (fun _ hp => hp) hw) hwrites hs

/-- A session of the history, without a provider. -/
def historyRow (sid : String) : SessionInfo :=
  { SessionInfo.new sid [] with status := some .historical }

theorem indexConsistent_of_resume :
    let ops := [RegistryOp.upsert (historyRow "a"),
      .assignResumePaneIdentity ⟨"a", none⟩ "67E55044-10B1-426F-9247-BB680E5FE0C8" 0]
    Along (RegistryOp.step Crates.ofUuid) (fun s op => ¬op.BindsUnstable Crates.ofUuid s) {} ops ∧
      ∀ pre, pre <+: ops →
        (pre.foldl (RegistryOp.step Crates.ofUuid) {}).IndexConsistent Crates.ofUuid := by
  intro ops
  have h : Along (RegistryOp.step Crates.ofUuid)
      (fun s op => ¬op.BindsUnstable Crates.ofUuid s) {} ops :=
    ⟨fun h => h, fun h => h.1 (by decide +kernel), trivial⟩
  exact ⟨h, indexConsistent_of_bindsStable Crates.ofUuid ops h⟩

/-- An URN whose scheme is in upper case is stored in lower case, and then read as an UUID. -/
theorem assignResumePaneIdentity_not_indexConsistent :
    ¬([RegistryOp.upsert (historyRow "a"),
        .assignResumePaneIdentity ⟨"a", none⟩ "URN:UUID:67E55044-10B1-426F-9247-BB680E5FE0C8"
          0].foldl (RegistryOp.step Crates.ofUuid) {}).IndexConsistent Crates.ofUuid := by
  intro h
  obtain ⟨row, pane, hrow, hpane, hkey⟩ :=
    h.owner "urn:uuid:67e55044-10b1-426f-9247-bb680e5fe0c8" ⟨"a", none⟩ (by decide +kernel)
  have hstored : (([RegistryOp.upsert (historyRow "a"),
      .assignResumePaneIdentity ⟨"a", none⟩ "URN:UUID:67E55044-10B1-426F-9247-BB680E5FE0C8"
        0].foldl (RegistryOp.step Crates.ofUuid) {}).sessions.lookup ⟨"a", none⟩).bind
      (·.paneSessionId) = some "urn:uuid:67e55044-10b1-426f-9247-bb680e5fe0c8" := by
    decide +kernel
  rw [hrow, Option.bind_some, hpane] at hstored
  rw [Option.some.inj hstored] at hkey
  exact absurd hkey (by decide +kernel)

end IntelligentTerminal.Sessions
