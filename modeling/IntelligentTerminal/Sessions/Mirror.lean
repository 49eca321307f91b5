import IntelligentTerminal.Sessions.RegistryFrame

/-!
# The helper's mirror of the master's sessions

The master tells its helpers which sessions it adds and removes. A session is added as a plain ACP
`SessionInfo`, which has no provider and no location, so the mirror stores it without a history
key. It is removed by the identity that the master has for it, with the history key. So the mirror
removes exactly the rows that have no history key.

`serde_json` and the schema crate of ACP are the parameter `Serde`.

Source: `tools/wta/src/session_registry.rs`, lines 116-346, 348-364, 387-414, 618-645, 777-886 and
4777-4814.
-/

namespace IntelligentTerminal.Sessions

/-! ### Metadata -/

structure WtaMeta where
  paneSessionId : Option String := none
  controlClient : Option String := none
  agentCmd : Option String := none
  agentId : Option String := none
  resolvedAgentId : Option String := none
  resolvedModelSource : Option String := none
  model : Option String := none
  providerBinding : Option String := none
  agentSource : Option String := none
  wslDistro : Option String := none
  ownerTabId : Option String := none
  cloudModels : Option String := none
  cloudModelsSource : Option String := none
  proposalMcp : Option String := none
  sessionResult : Option String := none
  startupIntent : Option String := none
deriving DecidableEq

/-- The fields with their names in JSON. -/
def WtaMeta.fields (wta : WtaMeta) : List (String × Option String) :=
  [("pane_session_id", wta.paneSessionId), ("control_client", wta.controlClient),
    ("agent_cmd", wta.agentCmd), ("agent_id", wta.agentId),
    ("resolved_agent_id", wta.resolvedAgentId),
    ("resolved_model_source", wta.resolvedModelSource), ("model", wta.model),
    ("provider_binding", wta.providerBinding), ("agent_source", wta.agentSource),
    ("wsl_distro", wta.wslDistro), ("owner_tab_id", wta.ownerTabId),
    ("cloud_models", wta.cloudModels), ("cloud_models_source", wta.cloudModelsSource),
    ("proposal_mcp", wta.proposalMcp), ("session_result", wta.sessionResult),
    ("startup_intent", wta.startupIntent)]

/-- A text that is not blank. -/
def nonBlank (field : Option String) : Option String := field.filter fun s => trim s ≠ ""

def WtaMeta.isEmpty (wta : WtaMeta) : Bool := wta.fields.all fun field => (nonBlank field.2).isNone

/-- A JSON value, as far as metadata are read: texts, and objects of texts. -/
inductive MetaValue
  | object (fields : Table String (Option String))
  | other

/-- `acp::schema::v1::Meta`. -/
abbrev Meta := Table String MetaValue

def wtaMetaNamespace : String := "wta"

def extractWtaMeta (metadata : Option Meta) : Option Meta × WtaMeta :=
  match metadata with
  | none => (none, {})
  | some map =>
    let rest := map.erase wtaMetaNamespace
    let metadata := if rest.entries = [] then none else some rest
    match map.lookup wtaMetaNamespace with
    | some (.object obj) =>
      let strField (key : String) := nonBlank (obj.lookup key).join
      (metadata,
        { paneSessionId := strField "pane_session_id"
          controlClient := strField "control_client"
          agentCmd := strField "agent_cmd"
          agentId := strField "agent_id"
          resolvedAgentId := strField "resolved_agent_id"
          resolvedModelSource := strField "resolved_model_source"
          model := strField "model"
          providerBinding := strField "provider_binding"
          agentSource := strField "agent_source"
          wslDistro := strField "wsl_distro"
          ownerTabId := strField "owner_tab_id"
          cloudModels := strField "cloud_models"
          cloudModelsSource := strField "cloud_models_source"
          proposalMcp := strField "proposal_mcp"
          sessionResult := strField "session_result"
          startupIntent := strField "startup_intent" })
    | _ => (metadata, {})

/-- The object that `inject_wta_meta` writes: the fields that are not blank. -/
def WtaMeta.toObject (wta : WtaMeta) : Table String (Option String) :=
  wta.fields.foldl
    (fun obj field =>
      match nonBlank field.2 with
      | none => obj
      | some s => obj.insert field.1 (some s)) ∅

def injectWtaMeta (metadata : Option Meta) (wta : WtaMeta) : Option Meta :=
  if wta.isEmpty then metadata
  else if wta.toObject.entries = [] then metadata
  else some ((metadata.getD ∅).insert wtaMetaNamespace (.object wta.toObject))

/-! ### Notifications -/

/-- `acp::schema::v1::SessionInfo`. -/
structure AcpSessionInfo where
  sessionId : String
  cwd : PathBuf
  title : Option String
  updatedAt : Option String
  metadata : Option Meta

structure SessionRemovedParams where
  sessionId : String
  historyKey : Option HistoryRowKey
deriving DecidableEq

def SessionRemovedParams.identity (params : SessionRemovedParams) : SessionIdentity where
  sessionId := params.sessionId
  historyKey := params.historyKey

/-- How payloads are written as JSON and read back. -/
structure Serde (Raw : Type*) where
  sessionInfoToString : AcpSessionInfo → Raw
  sessionInfoFromStr : Raw → Except String AcpSessionInfo
  removedToString : SessionRemovedParams → Raw
  removedFromStr : Raw → Except String SessionRemovedParams
  changedFromStr : Raw → Except String Unit

/-- `acp::schema::v1::ExtNotification`. -/
structure ExtNotification (Raw : Type*) where
  method : String
  params : Raw

def intelltermMethodSessionAdded : String := "_intellterm.wta/session_added"

def intelltermMethodSessionRemoved : String := "_intellterm.wta/session_removed"

def intelltermMethodSessionsChanged : String := "_intellterm.wta/sessions/changed"

def toAcpSessionInfo (info : SessionInfo) : AcpSessionInfo where
  sessionId := info.sessionId
  cwd := info.cwd
  title := info.title
  updatedAt := info.updatedAt
  metadata := injectWtaMeta none { paneSessionId := info.paneSessionId }

/-- `ext_method_matches`: the leading underscore is stripped on receipt. -/
def extMethodMatches (inbound constWithUnderscore : String) : Bool :=
  inbound = constWithUnderscore ||
    match constWithUnderscore.toList with
    | '_' :: rest => inbound.toList = rest
    | _ => false

inductive WtaExtNotification
  | sessionAdded (info : SessionInfo)
  | sessionRemoved (params : SessionRemovedParams)
  | sessionsChanged
  | unknown
  | malformedParams (method error : String)

section

variable {Raw : Type*} (serde : Serde Raw)

def buildSessionAddedNotification (info : SessionInfo) : ExtNotification Raw where
  method := intelltermMethodSessionAdded
  params := serde.sessionInfoToString (toAcpSessionInfo info)

def buildSessionRemovedNotification (identity : SessionIdentity) : ExtNotification Raw where
  method := intelltermMethodSessionRemoved
  params := serde.removedToString ⟨identity.sessionId, identity.historyKey⟩

def parseExtNotification (n : ExtNotification Raw) : WtaExtNotification :=
  if extMethodMatches n.method intelltermMethodSessionAdded then
    match serde.sessionInfoFromStr n.params with
    | .ok wire =>
      let (_, wta) := extractWtaMeta wire.metadata
      .sessionAdded
        { SessionInfo.new wire.sessionId wire.cwd with
          title := wire.title
          updatedAt := wire.updatedAt
          paneSessionId := wta.paneSessionId }
    | .error err => .malformedParams n.method err
  else if extMethodMatches n.method intelltermMethodSessionRemoved then
    match serde.removedFromStr n.params with
    | .ok p => .sessionRemoved p
    | .error err => .malformedParams n.method err
  else if extMethodMatches n.method intelltermMethodSessionsChanged then
    match serde.changedFromStr n.params with
    | .ok _ => .sessionsChanged
    | .error err => .malformedParams n.method err
  else .unknown

def RegistryState.applyExtNotification (crates : Crates) (s : RegistryState)
    (n : ExtNotification Raw) : RegistryState × WtaExtNotification :=
  let parsed := parseExtNotification serde n
  match parsed with
  | .sessionAdded info => (s.upsertLocked crates info, parsed)
  | .sessionRemoved params =>
    if params.historyKey.isSome then ((s.removeIdentityLocked crates params.identity).1, parsed)
    else ((s.remove crates params.sessionId).1, parsed)
  | .sessionsChanged | .unknown | .malformedParams _ _ => (s, parsed)

/-- The payloads of the two notifications about a row are read back as they were written. -/
structure Serde.Carries (info : SessionInfo) : Prop where
  added : serde.sessionInfoFromStr (serde.sessionInfoToString (toAcpSessionInfo info)) =
    .ok (toAcpSessionInfo info)
  removed : serde.removedFromStr (serde.removedToString ⟨info.sessionId, info.historyRowKey⟩) =
    .ok ⟨info.sessionId, info.historyRowKey⟩

end

/-! ### What reaches the mirror -/

/-- The row that the mirror stores for a row of the master. -/
def SessionInfo.mirrored (info : SessionInfo) : SessionInfo :=
  { SessionInfo.new info.sessionId info.cwd with
    title := info.title
    updatedAt := info.updatedAt
    paneSessionId := nonBlank info.paneSessionId }

@[simp]
theorem fromInfo_mirrored (info : SessionInfo) :
    SessionIdentity.fromInfo info.mirrored = ⟨info.sessionId, none⟩ := rfl

theorem nonBlank_nonBlank (field : Option String) : nonBlank (nonBlank field) = nonBlank field := by
  simp [nonBlank, Option.filter_filter]

theorem extract_inject_paneSessionId (pane : Option String) :
    (extractWtaMeta (injectWtaMeta none { paneSessionId := pane })).2.paneSessionId =
      nonBlank pane := by
  cases hpane : nonBlank pane with
  | none =>
    have hempty : ({ paneSessionId := pane } : WtaMeta).isEmpty = true := by
      simp only [WtaMeta.isEmpty, WtaMeta.fields, List.all_cons, hpane]
      rfl
    rw [injectWtaMeta, if_pos hempty]
    rfl
  | some p =>
    have hobject : ({ paneSessionId := pane } : WtaMeta).toObject =
        (∅ : Table String (Option String)).insert "pane_session_id" (some p) := by
      simp only [WtaMeta.toObject, WtaMeta.fields, List.foldl_cons, hpane]
      rfl
    have hempty : ({ paneSessionId := pane } : WtaMeta).isEmpty = false := by
      simp only [WtaMeta.isEmpty, WtaMeta.fields, List.all_cons, hpane, Option.isNone_some,
        Bool.false_and]
    rw [injectWtaMeta, hempty, hobject, if_neg (by simp), if_neg (by simp)]
    simp only [extractWtaMeta, AList.lookup_insert, Option.join_some]
    rw [← hpane, nonBlank_nonBlank]

variable {crates : Crates} {s : RegistryState} {Raw : Type*} {serde : Serde Raw}
  {info : SessionInfo} {id : SessionIdentity} {t : RegistryState}
  {pane : Option String} {sid : String}

theorem applyExtNotification_added (h : serde.Carries info) :
    (s.applyExtNotification serde crates (buildSessionAddedNotification serde info)).1 =
      s.upsertLocked crates info.mirrored := by
  have hparse : parseExtNotification serde (buildSessionAddedNotification serde info) =
      .sessionAdded info.mirrored := by
    simp only [parseExtNotification, buildSessionAddedNotification, extMethodMatches, decide_true,
      Bool.true_or, if_true, h.added]
    rw [SessionInfo.mirrored, ← extract_inject_paneSessionId]
    rfl
  simp only [RegistryState.applyExtNotification, hparse]

theorem applyExtNotification_removed (h : serde.Carries info) :
    (s.applyExtNotification serde crates
      (buildSessionRemovedNotification serde (SessionIdentity.fromInfo info))).1 =
      if info.historyRowKey.isSome then
        (s.removeIdentityLocked crates (SessionIdentity.fromInfo info)).1
      else (s.remove crates info.sessionId).1 := by
  have hparse : parseExtNotification serde
      (buildSessionRemovedNotification serde (SessionIdentity.fromInfo info)) =
      .sessionRemoved ⟨info.sessionId, info.historyRowKey⟩ := by
    have hadded : extMethodMatches intelltermMethodSessionRemoved intelltermMethodSessionAdded =
        false := by decide +kernel
    have hremoved : extMethodMatches intelltermMethodSessionRemoved
        intelltermMethodSessionRemoved = true := by decide +kernel
    simp only [parseExtNotification, buildSessionRemovedNotification, hadded, hremoved,
      Bool.false_eq_true, if_false, if_true, SessionIdentity.fromInfo, h.removed]
  simp only [RegistryState.applyExtNotification, hparse]
  split_ifs <;> rfl

/-! ### One session -/

/-- The registry has a row for the raw id. -/
def RegistryState.Holds (s : RegistryState) (sid : String) : Prop :=
  ∃ id ∈ s.sessions, id.sessionId = sid

/-- The registry is as it was, but for the count of revisions and the raw ids that it has seen. -/
def SameMirror (s t : RegistryState) : Prop :=
  t = { s with nextCwdRevision := t.nextCwdRevision, knownRawIds := t.knownRawIds }

def takePane (crates : Crates) (owners : Table String SessionIdentity) (id : SessionIdentity) :
    Option String → Table String SessionIdentity
  | none => owners
  | some pane => owners.insert (crates.paneKey pane) id

/-- The owners of panes after a pane was given up. -/
def freePane (crates : Crates) (owners : Table String SessionIdentity) :
    Option String → Table String SessionIdentity
  | none => owners
  | some pane => owners.erase (crates.paneKey pane)

theorem Keyed.lookup_raw_eq_none (h : Keyed s) (hsid : ¬s.Holds sid) :
    s.identitiesByRaw.lookup sid = none := by
  cases hids : s.identitiesByRaw.lookup sid with
  | none => rfl
  | some ids =>
    obtain ⟨id, hid⟩ := List.exists_mem_of_ne_nil ids (h.raw sid ids hids).1
    exact absurd ⟨id, (h.mem_raw sid id).mp (by rwa [hids])⟩ hsid

theorem Keyed.unique_of_forall_eq (h : Keyed s) (hid : id ∈ s.sessions)
    (hall : ∀ id' ∈ s.sessions, id'.sessionId = id.sessionId → id' = id) :
    s.uniqueIdentityForRaw id.sessionId = some id := by
  have hmem := (h.mem_raw id.sessionId id).mpr ⟨hid, rfl⟩
  unfold RegistryState.uniqueIdentityForRaw
  cases hids : s.identitiesByRaw.lookup id.sessionId with
  | none =>
    rw [hids] at hmem
    exact absurd hmem (by simp)
  | some ids =>
    rw [hids, Option.getD_some] at hmem
    have hsub : ids ⊆ [id] := fun id' hid' => by
      have hid'' := (h.mem_raw id.sessionId id').mp (by rwa [hids])
      exact List.mem_singleton.mpr (hall id' hid''.1 hid''.2)
    have hperm : ids.Perm [id] := (List.perm_ext_iff_of_nodup (h.raw _ _ hids).2
      (List.nodup_singleton id)).mpr fun id' => ⟨fun hid' => hsub hid', fun hid' => by
        rwa [List.mem_singleton.mp hid']⟩
    rw [List.perm_singleton.mp hperm]
    rfl

variable (crates) in
theorem putRow_of_lookup_eq_none (hrow : s.sessions.lookup (SessionIdentity.fromInfo info) = none) :
    s.putRow crates info =
      { info with cwdEvidence := { info.cwdEvidence with revision := s.newRevision } } := by
  rw [RegistryState.putRow, RegistryState.keepNativeBinding, hrow]

theorem lookup_eq_none_of_not_holds (h : ¬s.Holds id.sessionId) :
    s.sessions.lookup id = none :=
  AList.lookup_eq_none.mpr fun hid => h ⟨id, hid, rfl⟩

variable (crates) in
theorem upsert_mirrored (h : Keyed s) (hnew : ¬s.Holds info.sessionId) :
    s.upsertLocked crates info.mirrored =
      { s with
        nextCwdRevision := s.newRevision
        knownRawIds := s.knownRawIds.insert info.sessionId
        activeByPane :=
          takePane crates s.activeByPane ⟨info.sessionId, none⟩ (nonBlank info.paneSessionId)
        identitiesByRaw := s.identitiesByRaw.insert info.sessionId [⟨info.sessionId, none⟩]
        sessions := s.sessions.insert ⟨info.sessionId, none⟩
          { info.mirrored with cwdEvidence := { revision := s.newRevision } } } := by
  have hrow : s.sessions.lookup (SessionIdentity.fromInfo info.mirrored) = none :=
    lookup_eq_none_of_not_holds hnew
  have hput := putRow_of_lookup_eq_none crates hrow
  have hpane : s.putPane crates info.mirrored =
      takePane crates s.activeByPane ⟨info.sessionId, none⟩ (nonBlank info.paneSessionId) := by
    have hstored : (s.putRow crates info.mirrored).paneSessionId = nonBlank info.paneSessionId := by
      rw [hput]
      rfl
    rw [RegistryState.putPane, hrow, hstored]
    cases hblank : nonBlank info.paneSessionId with
    | none => rfl
    | some pane =>
      have hne : pane ≠ "" := by
        rintro rfl
        exact absurd (Option.filter_eq_some_iff.mp hblank).2 (by decide +kernel)
      simp only [if_pos hne]
      rfl
  rw [upsertLocked_eq, hpane, hput]
  simp only [fromInfo_mirrored]
  have hids : s.identitiesByRaw.lookup info.mirrored.sessionId = none := h.lookup_raw_eq_none hnew
  rw [hids]
  rfl

theorem forgetIdentity_of_insert {raws : Table String (List SessionIdentity)}
    (h : t.identitiesByRaw = raws.insert sid [id])
    (hsid : raws.lookup sid = none) : (t.forgetIdentity sid id).identitiesByRaw = raws := by
  have hids : t.identitiesByRaw.lookup sid = some [id] := by
    rw [h]
    exact AList.lookup_insert _
  simp only [RegistryState.forgetIdentity, hids, List.erase_cons_head, if_true]
  rw [h, Table.erase_insert_self, Table.erase_of_lookup_eq_none hsid]

theorem releasePane_of_takePane {owners : Table String SessionIdentity}
    (h : t.activeByPane = takePane crates owners id pane) :
    (t.releasePane crates id pane).activeByPane = freePane crates owners pane := by
  cases pane with
  | none => exact h
  | some pane =>
    have howner : t.activeByPane.lookup (crates.paneKey pane) = some id := by
      rw [h]
      exact AList.lookup_insert _
    simp only [RegistryState.releasePane, if_pos howner]
    rw [h, takePane, Table.erase_insert_self]
    rfl

theorem remove_upsert_mirrored (h : Keyed s) (hnew : ¬s.Holds info.sessionId) :
    ((s.upsertLocked crates info.mirrored).remove crates info.sessionId).1 =
      { s with
        nextCwdRevision := s.newRevision
        knownRawIds := s.knownRawIds.insert info.sessionId
        activeByPane := freePane crates s.activeByPane (nonBlank info.paneSessionId) } := by
  have hadded := upsert_mirrored crates h hnew
  generalize s.upsertLocked crates info.mirrored = t at hadded
  have hrow : t.sessions.lookup ⟨info.sessionId, none⟩ =
      some { info.mirrored with cwdEvidence := { revision := s.newRevision } } := by
    rw [hadded]
    exact AList.lookup_insert _
  have hunique : t.uniqueIdentityForRaw info.sessionId = some ⟨info.sessionId, none⟩ := by
    rw [hadded, RegistryState.uniqueIdentityForRaw]
    simp only [AList.lookup_insert]
    rfl
  have hsessions : t.sessions.erase ⟨info.sessionId, none⟩ = s.sessions := by
    rw [hadded]
    simp only [Table.erase_insert_self]
    exact Table.erase_of_lookup_eq_none (lookup_eq_none_of_not_holds hnew)
  have hraws : (t.forgetIdentity info.sessionId ⟨info.sessionId, none⟩).identitiesByRaw =
      s.identitiesByRaw :=
    forgetIdentity_of_insert (by rw [hadded]) (h.lookup_raw_eq_none hnew)
  have howners := releasePane_of_takePane (congrArg RegistryState.activeByPane hadded)
  simp only [RegistryState.remove, hunique, removeIdentityLocked_eq hrow]
  simp only [SessionInfo.mirrored, SessionInfo.new, hsessions, hraws, howners]
  rw [hadded]

theorem removeIdentity_upsert_mirrored (h : Keyed s) (hnew : ¬s.Holds info.sessionId)
    (hkey : info.historyRowKey.isSome) :
    (s.upsertLocked crates info.mirrored).removeIdentityLocked crates
        (SessionIdentity.fromInfo info) = (s.upsertLocked crates info.mirrored, none) := by
  have hne : SessionIdentity.fromInfo info ≠ ⟨info.sessionId, none⟩ := by
    intro heq
    have hnone : info.historyRowKey = none := congrArg SessionIdentity.historyKey heq
    rw [hnone] at hkey
    exact absurd hkey (by simp)
  have hrow : (s.upsertLocked crates info.mirrored).sessions.lookup
      (SessionIdentity.fromInfo info) = none := by
    rw [upsert_mirrored crates h hnew]
    exact (AList.lookup_insert_ne hne).trans (lookup_eq_none_of_not_holds hnew)
  rw [RegistryState.removeIdentityLocked, hrow]

theorem sameMirror_freePane_iff {revision : ℕ} {raws : List String} :
    SameMirror s { s with
        nextCwdRevision := revision, knownRawIds := raws
        activeByPane := freePane crates s.activeByPane pane } ↔
      ∀ p, pane = some p → s.activeByPane.lookup (crates.paneKey p) = none := by
  constructor
  · rintro h p rfl
    have howners := congrArg RegistryState.activeByPane h
    rw [← howners]
    exact AList.lookup_erase _ _
  · intro h
    have howners : freePane crates s.activeByPane pane = s.activeByPane := by
      cases pane with
      | none => rfl
      | some p => exact Table.erase_of_lookup_eq_none (h p rfl)
    rw [howners]
    rfl

theorem added_removed_iff (h : Keyed s) (hcarries : serde.Carries info)
    (hnew : ¬s.Holds info.sessionId)
    (ht : t = ((s.applyExtNotification serde crates (buildSessionAddedNotification serde
      info)).1.applyExtNotification serde crates
        (buildSessionRemovedNotification serde (SessionIdentity.fromInfo info))).1) :
    (¬t.Holds info.sessionId ∧ SameMirror s t) ↔
      info.historyRowKey = none ∧ ∀ p, nonBlank info.paneSessionId = some p →
        s.activeByPane.lookup (crates.paneKey p) = none := by
  rw [applyExtNotification_added hcarries, applyExtNotification_removed hcarries] at ht
  cases hkey : info.historyRowKey with
  | some key =>
    rw [if_pos (by rw [hkey]; rfl),
      removeIdentity_upsert_mirrored h hnew (by rw [hkey]; rfl), upsert_mirrored crates h hnew] at ht
    have hheld : t.Holds info.sessionId := by
      rw [ht]
      exact ⟨⟨info.sessionId, none⟩, (AList.mem_insert _).mpr (.inl rfl), rfl⟩
    exact ⟨fun hp => absurd hheld hp.1, fun hp => absurd hp.1 (by simp)⟩
  | none =>
    rw [if_neg (by rw [hkey]; simp), remove_upsert_mirrored h hnew] at ht
    have hgone : ¬t.Holds info.sessionId := by
      rw [ht]
      exact hnew
    rw [← sameMirror_freePane_iff (s := s), ht]
    exact ⟨fun hp => ⟨rfl, hp.2⟩, fun hp => ⟨ht ▸ hgone, hp.2⟩⟩

/-! ### Runs -/

/-- What the master broadcasts about a row. -/
inductive Broadcast
  | added (info : SessionInfo)
  | removed (info : SessionInfo)

namespace Broadcast

/-- The row that a broadcast is about. -/
def row : Broadcast → SessionInfo
  | added info | removed info => info

/-- The notification that is sent. -/
def notification (serde : Serde Raw) : Broadcast → ExtNotification Raw
  | added info => buildSessionAddedNotification serde info
  | removed info => buildSessionRemovedNotification serde (SessionIdentity.fromInfo info)

/-- The raw ids that were added and not yet removed. -/
def announce (live : List String) : Broadcast → List String
  | added info => live.insert info.sessionId
  | removed info => live.filter (· ≠ info.sessionId)

/-- The broadcast removes a session that was added, by its history key. -/
def Stale (live : List String) : Broadcast → Prop
  | added _ => False
  | removed info => info.sessionId ∈ live ∧ info.historyRowKey.isSome

end Broadcast

/-- The mirror gets a broadcast. The raw ids that the master has announced are kept beside it. -/
def mirrorStep (serde : Serde Raw) (crates : Crates) (t : RegistryState × List String)
    (b : Broadcast) : RegistryState × List String :=
  ((t.1.applyExtNotification serde crates (b.notification serde)).1, b.announce t.2)

/-- The mirror has the sessions that it had at first and those that were announced. -/
def MirrorFollows (s : RegistryState) (t : RegistryState × List String) : Prop :=
  ∀ sid, t.1.Holds sid ↔ s.Holds sid ∨ sid ∈ t.2

/-- The mirror follows, and the sessions that were announced have no history key. -/
structure Mirrors (s : RegistryState) (t : RegistryState × List String) : Prop where
  keyed : Keyed t.1
  follows : MirrorFollows s t
  legacy : ∀ id ∈ t.1.sessions, ¬s.Holds id.sessionId → id = ⟨id.sessionId, none⟩

variable {t : RegistryState × List String} {b : Broadcast}

theorem Mirrors.init (h : Keyed s) : Mirrors s (s, []) :=
  ⟨h, fun sid => by simp, fun id hid hnew => absurd ⟨id, hid, rfl⟩ hnew⟩

theorem Mirrors.added (h : Mirrors s t) (hcarries : serde.Carries info) :
    Mirrors s (mirrorStep serde crates t (.added info)) := by
  have hstep : mirrorStep serde crates t (.added info) =
      (t.1.upsertLocked crates info.mirrored, t.2.insert info.sessionId) :=
    congrArg (·, t.2.insert info.sessionId) (applyExtNotification_added hcarries)
  have hmem : ∀ id, id ∈ (t.1.upsertLocked crates info.mirrored).sessions ↔
      id = ⟨info.sessionId, none⟩ ∨ id ∈ t.1.sessions := by
    intro id
    rw [upsertLocked_eq]
    exact AList.mem_insert _
  rw [hstep]
  refine ⟨h.keyed.upsert info.mirrored, fun sid => ?_, fun id hid hnew => ?_⟩
  · have hholds : (t.1.upsertLocked crates info.mirrored).Holds sid ↔
        sid = info.sessionId ∨ t.1.Holds sid := by
      simp only [RegistryState.Holds, hmem]
      constructor
      · rintro ⟨id, rfl | hid, rfl⟩
        · exact .inl rfl
        · exact .inr ⟨id, hid, rfl⟩
      · rintro (rfl | ⟨id, hid, rfl⟩)
        · exact ⟨_, .inl rfl, rfl⟩
        · exact ⟨id, .inr hid, rfl⟩
    rw [hholds, h.follows sid, List.mem_insert_iff]
    exact or_left_comm
  · rcases (hmem id).mp hid with rfl | hid
    · rfl
    · exact h.legacy id hid hnew

theorem Mirrors.sessions_remove (h : Mirrors s t) (hnew : ¬s.Holds info.sessionId)
    (id : SessionIdentity) :
    id ∈ (t.1.remove crates info.sessionId).1.sessions ↔
      id ∈ t.1.sessions ∧ id.sessionId ≠ info.sessionId := by
  have hlegacy : ∀ id ∈ t.1.sessions, id.sessionId = info.sessionId →
      id = ⟨info.sessionId, none⟩ := fun id hid hsid => by
    rw [h.legacy id hid (by rwa [hsid]), hsid]
  by_cases hheld : t.1.Holds info.sessionId
  · obtain ⟨id', hid', hsid⟩ := hheld
    have heq := hlegacy id' hid' hsid
    subst heq
    have hunique : t.1.uniqueIdentityForRaw info.sessionId = some ⟨info.sessionId, none⟩ :=
      h.keyed.unique_of_forall_eq hid' hlegacy
    obtain ⟨row, hrow⟩ := Option.isSome_iff_exists.mp (AList.lookup_isSome.mpr hid')
    simp only [RegistryState.remove, hunique, removeIdentityLocked_eq hrow, AList.mem_erase]
    constructor
    · rintro ⟨hne, hid⟩
      exact ⟨hid, fun hsid' => hne (hlegacy id hid hsid')⟩
    · rintro ⟨hid, hne⟩
      exact ⟨fun heq => hne (congrArg SessionIdentity.sessionId heq), hid⟩
  · have hunique : t.1.uniqueIdentityForRaw info.sessionId = none := by
      rw [RegistryState.uniqueIdentityForRaw, h.keyed.lookup_raw_eq_none hheld]
      rfl
    simp only [RegistryState.remove, hunique]
    exact ⟨fun hid => ⟨hid, fun hsid' => hheld ⟨id, hid, hsid'⟩⟩, fun hid => hid.1⟩

theorem removeIdentity_of_not_mem (hid : SessionIdentity.fromInfo info ∉ s.sessions) :
    (s.removeIdentityLocked crates (SessionIdentity.fromInfo info)).1 = s := by
  rw [RegistryState.removeIdentityLocked, AList.lookup_eq_none.mpr hid]

theorem Mirrors.fromInfo_notMem (h : Mirrors s t) (hnew : ¬s.Holds info.sessionId)
    (hkey : info.historyRowKey.isSome) : SessionIdentity.fromInfo info ∉ t.1.sessions := by
  intro hid
  have hnone : info.historyRowKey = none :=
    congrArg SessionIdentity.historyKey (h.legacy _ hid hnew)
  rw [hnone] at hkey
  exact absurd hkey (by simp)

theorem Mirrors.removed (h : Mirrors s t) (hcarries : serde.Carries info)
    (hnew : ¬s.Holds info.sessionId) (hstale : ¬(Broadcast.removed info).Stale t.2) :
    Mirrors s (mirrorStep serde crates t (.removed info)) := by
  obtain ⟨u, hu⟩ : ∃ u, (t.1.applyExtNotification serde crates
      (buildSessionRemovedNotification serde (SessionIdentity.fromInfo info))).1 = u := ⟨_, rfl⟩
  have hstep : mirrorStep serde crates t (.removed info) =
      (u, t.2.filter (· ≠ info.sessionId)) := congrArg (·, t.2.filter (· ≠ info.sessionId)) hu
  rw [applyExtNotification_removed hcarries] at hu
  obtain ⟨hkeyed, hmem⟩ : Keyed u ∧
      ∀ id, id ∈ u.sessions ↔ id ∈ t.1.sessions ∧ id.sessionId ≠ info.sessionId := by
    by_cases hkey : info.historyRowKey.isSome
    · rw [if_pos hkey, removeIdentity_of_not_mem (h.fromInfo_notMem hnew hkey)] at hu
      subst hu
      have hgone : ¬t.1.Holds info.sessionId := by
        rw [h.follows info.sessionId]
        exact not_or.mpr ⟨hnew, fun hlive => hstale ⟨hlive, hkey⟩⟩
      exact ⟨h.keyed, fun id => ⟨fun hid => ⟨hid, fun hsid => hgone ⟨id, hid, hsid⟩⟩, (·.1)⟩⟩
    · rw [if_neg hkey] at hu
      subst hu
      exact ⟨keyed_step h.keyed (.remove info.sessionId), h.sessions_remove hnew⟩
  rw [hstep]
  refine ⟨hkeyed, fun sid => ?_, fun id hid hnew' => h.legacy id ((hmem id).mp hid).1 hnew'⟩
  have hholds : u.Holds sid ↔ t.1.Holds sid ∧ sid ≠ info.sessionId := by
    simp only [RegistryState.Holds, hmem]
    constructor
    · rintro ⟨id, ⟨hid, hne⟩, rfl⟩
      exact ⟨⟨id, hid, rfl⟩, hne⟩
    · rintro ⟨⟨id, hid, rfl⟩, hne⟩
      exact ⟨id, ⟨hid, hne⟩, rfl⟩
  rw [hholds, h.follows sid]
  simp only [List.mem_filter, decide_eq_true_eq]
  constructor
  · rintro ⟨hold | hlive, hne⟩
    · exact .inl hold
    · exact .inr ⟨hlive, hne⟩
  · rintro (hold | ⟨hlive, hne⟩)
    · exact ⟨.inl hold, fun heq => hnew (heq ▸ hold)⟩
    · exact ⟨.inr hlive, hne⟩

theorem Mirrors.not_follows_of_stale (h : Mirrors s t) (hcarries : serde.Carries b.row)
    (hnew : ¬s.Holds b.row.sessionId) (hstale : b.Stale t.2) :
    ¬MirrorFollows s (mirrorStep serde crates t b) := by
  cases b with
  | added info => exact hstale.elim
  | removed info =>
    obtain ⟨hlive, hkey⟩ := hstale
    have hcarries : serde.Carries info := hcarries
    have hnew : ¬s.Holds info.sessionId := hnew
    intro hfollows
    have hheld : (t.1.applyExtNotification serde crates
        (buildSessionRemovedNotification serde (SessionIdentity.fromInfo info))).1.Holds
          info.sessionId := by
      rw [applyExtNotification_removed hcarries, if_pos hkey,
        removeIdentity_of_not_mem (h.fromInfo_notMem hnew hkey), h.follows info.sessionId]
      exact .inr hlive
    rcases (hfollows info.sessionId).mp hheld with hold | hlive'
    · exact hnew hold
    · exact of_decide_eq_true (List.mem_filter.mp hlive').2 rfl

/-- A session is added to the mirror and removed without a trace exactly if it has no history key
and no other session of the mirror has its pane. The mirror follows all broadcasts of a run exactly
if none of them removes an added session by its history key. -/
theorem mirror_follows_broadcasts_iff (crates : Crates) (serde : Serde Raw)
    (ops : List RegistryOp) :
    (∀ info t, serde.Carries info → ¬(reached crates ops).Holds info.sessionId →
      t = (((reached crates ops).applyExtNotification serde crates
        (buildSessionAddedNotification serde info)).1.applyExtNotification serde crates
          (buildSessionRemovedNotification serde (SessionIdentity.fromInfo info))).1 →
      ((¬t.Holds info.sessionId ∧ SameMirror (reached crates ops) t) ↔
        info.historyRowKey = none ∧ ∀ p, nonBlank info.paneSessionId = some p →
          (reached crates ops).activeByPane.lookup (crates.paneKey p) = none)) ∧
    ∀ bs, (∀ b ∈ bs, serde.Carries b.row ∧ ¬(reached crates ops).Holds b.row.sessionId) →
      ((∀ pre, pre <+: bs → MirrorFollows (reached crates ops)
          (pre.foldl (mirrorStep serde crates) (reached crates ops, []))) ↔
        Along (mirrorStep serde crates) (fun t b => ¬b.Stale t.2) (reached crates ops, []) bs) := by
  refine ⟨fun info t hcarries hnew ht =>
    added_removed_iff (keyed_reached crates ops) hcarries hnew ht, fun bs hbs => ?_⟩
  refine forall_isPrefix_iff_along (fun t (h : Mirrors (reached crates ops) t) => h.follows) bs
    (fun t b hb h hstale => ?_) (fun t b hb h hstale => ?_) (Mirrors.init (keyed_reached crates ops))
  · cases b with
    | added info => exact h.added (hbs _ hb).1
    | removed info => exact h.removed (hbs _ hb).1 (hbs _ hb).2 hstale
  · exact h.not_follows_of_stale (hbs b hb).1 (hbs b hb).2 (not_not.mp hstale)

/-- How the rows of a session `a` without a directory are written: one of no provider, and one of
Copilot on the host. -/
def Serde.ofTexts : Serde String where
  sessionInfoToString wire :=
    "\x7b\"sessionId\":\"" ++ wire.sessionId ++ "\",\"cwd\":\"\"\x7d"
  sessionInfoFromStr text :=
    if text = "\x7b\"sessionId\":\"a\",\"cwd\":\"\"\x7d" then
      .ok ⟨"a", [], none, none, none⟩
    else .error "expected value"
  removedToString params :=
    match params.historyKey with
    | none => "\x7b\"session_id\":\"" ++ params.sessionId ++ "\"\x7d"
    | some key =>
      "\x7b\"session_id\":\"" ++ params.sessionId ++ "\",\"history_key\":\x7b" ++
        "\"provider_id\":\"" ++ key.providerId ++ "\",\"location\":\"Host\"," ++
        "\"session_id\":\"" ++ key.sessionId ++ "\"\x7d\x7d"
  removedFromStr text :=
    if text = "\x7b\"session_id\":\"a\"\x7d" then .ok ⟨"a", none⟩
    else if text = "\x7b\"session_id\":\"a\",\"history_key\":\x7b" ++
        "\"provider_id\":\"copilot\",\"location\":\"Host\"," ++
        "\"session_id\":\"a\"\x7d\x7d" then
      .ok ⟨"a", some ⟨"copilot", .host, "a", none⟩⟩
    else .error "expected value"
  changedFromStr text := if text = "\x7b\x7d" then .ok () else .error "expected value"

theorem Serde.ofTexts_carries {info : SessionInfo}
    (hadded : toAcpSessionInfo info = ⟨"a", [], none, none, none⟩)
    (hremoved : Serde.ofTexts.removedFromStr (Serde.ofTexts.removedToString
      ⟨info.sessionId, info.historyRowKey⟩) = .ok ⟨info.sessionId, info.historyRowKey⟩) :
    Serde.ofTexts.Carries info := by
  refine ⟨?_, hremoved⟩
  have htext : Serde.ofTexts.sessionInfoToString ⟨"a", [], none, none, none⟩ =
      "\x7b\"sessionId\":\"a\",\"cwd\":\"\"\x7d" := by decide +kernel
  rw [hadded, htext]
  simp only [Serde.ofTexts, if_true]

theorem mirror_follows_broadcasts_history :
    let bs := [Broadcast.added (historyRow "a"), .removed (historyRow "a")]
    ((¬(bs.foldl (mirrorStep Serde.ofTexts Crates.ofUuid)
          (reached Crates.ofUuid [], [])).1.Holds "a" ∧
        SameMirror (reached Crates.ofUuid []) (bs.foldl (mirrorStep Serde.ofTexts Crates.ofUuid)
          (reached Crates.ofUuid [], [])).1) ↔
      (historyRow "a").historyRowKey = none ∧
        ∀ p, nonBlank (historyRow "a").paneSessionId = some p →
          (reached Crates.ofUuid []).activeByPane.lookup (Crates.ofUuid.paneKey p) = none) ∧
    ((∀ pre, pre <+: bs → MirrorFollows (reached Crates.ofUuid [])
        (pre.foldl (mirrorStep Serde.ofTexts Crates.ofUuid) (reached Crates.ofUuid [], []))) ↔
      Along (mirrorStep Serde.ofTexts Crates.ofUuid) (fun t b => ¬b.Stale t.2)
        (reached Crates.ofUuid [], []) bs) := by
  intro bs
  have hcarries : Serde.ofTexts.Carries (historyRow "a") :=
    Serde.ofTexts_carries (by rfl) (by decide +kernel)
  have hnew : ¬(reached Crates.ofUuid []).Holds "a" := by
    rintro ⟨id, hid, -⟩
    exact absurd hid (AList.notMem_empty id)
  have hbs : ∀ b ∈ bs, Serde.ofTexts.Carries b.row ∧
      ¬(reached Crates.ofUuid []).Holds b.row.sessionId := by
    intro b hb
    have hrow : b.row = historyRow "a" := by
      rcases List.mem_pair.mp hb with rfl | rfl <;> rfl
    rw [hrow]
    exact ⟨hcarries, hnew⟩
  exact ⟨(mirror_follows_broadcasts_iff Crates.ofUuid Serde.ofTexts []).1 (historyRow "a") _
      hcarries hnew rfl,
    (mirror_follows_broadcasts_iff Crates.ofUuid Serde.ofTexts []).2 bs hbs⟩

/-- A session of Copilot stays in the mirror after it was removed. -/
theorem removed_copilot_stays :
    let info := providerRow "a" "copilot"
    Serde.ofTexts.Carries info ∧ ¬(reached Crates.ofUuid []).Holds info.sessionId ∧
      (((reached Crates.ofUuid []).applyExtNotification Serde.ofTexts Crates.ofUuid
        (buildSessionAddedNotification Serde.ofTexts info)).1.applyExtNotification Serde.ofTexts
          Crates.ofUuid (buildSessionRemovedNotification Serde.ofTexts
            (SessionIdentity.fromInfo info))).1.Holds info.sessionId := by
  intro info
  refine ⟨Serde.ofTexts_carries (by rfl) (by decide +kernel), ?_, ⟨"a", none⟩, ?_, rfl⟩
  · rintro ⟨id, hid, -⟩
    exact absurd hid (AList.notMem_empty id)
  · exact AList.lookup_isSome.mp (by decide +kernel)

end IntelligentTerminal.Sessions
