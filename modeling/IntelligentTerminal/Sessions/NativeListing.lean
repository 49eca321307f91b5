import Mathlib.Data.String.Basic
import IntelligentTerminal.Sessions.RegistryRevision

/-!
# Sessions that listings infer for native panes

A complete listing of an agent's sessions may say which session runs in a native pane that has
none: the sessions that were first seen after the panes were created are matched with them in the
order of their activity. A session is inferred for one pane at most, and a session that was seen
before a pane was created is never inferred for it.

A listing compares the session ids of its rows as they are, while the id that is inferred is
trimmed. So all of this holds of listings whose rows have trimmed ids.

Source: `tools/wta/src/session_registry.rs`, lines 2194-2373, 3481-3541 and 3853-3900.
-/

namespace IntelligentTerminal.Sessions

variable {crates : Crates} {allowed : Allowed} {s t u : RegistryState}
  {scope : String × SessionLocation} {rows : List SessionInfo}

/-! ### The loop over the rows -/

section Rows

open RegistryState

variable {scope : String × SessionLocation} {rows : List SessionInfo} {listed : List String}
  {completed : ℕ} {firstBirth : Option ℕ} {l l' : ListingState} {row : SessionInfo}
  {key : HistoryRowKey}
  {evidence : Table HistoryRowKey NativeListingEvidence} {ev : NativeListingEvidence}
  {c : ℕ × HistoryRowKey}

/-- A candidate has evidence, is of the scope of the listing, and nothing else is meant by its
row. -/
structure Candidate (s : RegistryState) (scope : String × SessionLocation)
    (rows : List SessionInfo) (l : ListingState) (c : ℕ × HistoryRowKey) : Prop where
  evidence : ∃ ev, l.evidence.lookup c.2 = some ev ∧ ev.providerActivityAtMs = some c.1 ∧
    c.1 ≤ ev.firstObservedAtMs
  provider : c.2.providerId = scope.1
  location : c.2.location = scope.2
  noUniverse : c.2.sessionUniverse = none
  row : ∃ row ∈ rows, row.historyRowKey = some c.2 ∧ s.isTaken rows row c.2 = false

theorem Candidate.mono (h : Candidate s scope rows l c)
    (hl : ∀ key ev, l.evidence.lookup key = some ev → l'.evidence.lookup key = some ev) :
    Candidate s scope rows l' c := by
  obtain ⟨ev, hlookup, hact, hle⟩ := h.evidence
  exact ⟨⟨ev, hl _ _ hlookup, hact, hle⟩, h.provider, h.location, h.noUniverse, h.row⟩

theorem listEvidence_evidence (ev : NativeListingEvidence) :
    (s.listEvidence rows firstBirth row key ev l).evidence = l.evidence := by
  unfold listEvidence
  repeat' split
  all_goals rfl

theorem mem_listEvidence
    (h : c ∈ (s.listEvidence rows firstBirth row key ev l).candidates) :
    c ∈ l.candidates ∨ (c.2 = key ∧ ev.providerActivityAtMs = some c.1 ∧
      c.1 ≤ ev.firstObservedAtMs ∧ s.isTaken rows row key = false) := by
  unfold listEvidence at h
  split at h
  · exact .inl h
  · split at h
    · exact .inl h
    · next activity hactivity =>
      split_ifs at h with h₁ h₂ h₃ h₄
      · exact .inl h
      · exact .inl h
      · exact .inl h
      · exact .inl h
      · rcases List.mem_append.mp h with h | h
        · exact .inl h
        · rw [List.mem_singleton.mp h]
          exact .inr ⟨rfl, hactivity, not_lt.mp h₃, by simpa using h₄⟩

/-- The evidence that a row adds. -/
def addEvidence (s : RegistryState) (scope : String × SessionLocation) (listed : List String)
    (completed : ℕ) (evidence : Table HistoryRowKey NativeListingEvidence) (row : SessionInfo) :
    Table HistoryRowKey NativeListingEvidence :=
  match row.historyRowKey with
  | none => evidence
  | some key =>
    if key.providerId ≠ scope.1 ∨ key.location ≠ scope.2 ∨ key.sessionUniverse.isSome then evidence
    else if (evidence.lookup key).isSome then evidence
    else if listed.contains row.sessionId || s.knownRawIds.contains row.sessionId then evidence
    else evidence.insert key
      { firstObservedAtMs := completed, providerActivityAtMs := row.lastActivityAtMs }

theorem listRow_evidence :
    (s.listRow scope rows listed completed firstBirth l row).evidence =
      addEvidence s scope listed completed l.evidence row := by
  cases hkey : row.historyRowKey with
  | none => simp only [listRow, addEvidence, hkey]
  | some key =>
    by_cases hscope : key.providerId ≠ scope.1 ∨ key.location ≠ scope.2 ∨ key.sessionUniverse.isSome
    · simp only [listRow, addEvidence, hkey, if_pos hscope]
    · cases hev : l.evidence.lookup key with
      | some ev =>
        simp only [listRow, addEvidence, hkey, if_neg hscope, hev, Option.isSome_some, if_true]
        exact listEvidence_evidence ev
      | none =>
        simp only [listRow, addEvidence, hkey, if_neg hscope, hev, Option.isSome_none,
          Bool.false_eq_true, if_false]
        split_ifs
        · rfl
        · exact listEvidence_evidence _

theorem lookup_addEvidence (h : evidence.lookup key = some ev) :
    (addEvidence s scope listed completed evidence row).lookup key = some ev := by
  unfold addEvidence
  split
  · exact h
  · next key' _ =>
    split_ifs with _ hsome _
    · exact h
    · exact h
    · exact h
    · rw [Table.lookup_insert_eq, if_neg]
      · exact h
      · rintro rfl
        rw [h] at hsome
        exact hsome rfl

theorem addEvidence_new
    (h : (addEvidence s scope listed completed evidence row).lookup key = some ev) :
    evidence.lookup key = some ev ∨ (ev.firstObservedAtMs = completed ∧
      row.historyRowKey = some key ∧ row.sessionId ∉ s.knownRawIds) := by
  unfold addEvidence at h
  split at h
  · exact .inl h
  · next key' hkey =>
    split_ifs at h with _ hsome hlisted
    · exact .inl h
    · exact .inl h
    · exact .inl h
    · rw [Table.lookup_insert_eq] at h
      split_ifs at h with heq
      · rw [← Option.some.inj h, heq]
        refine .inr ⟨rfl, hkey, fun hknown => hlisted ?_⟩
        simp [hknown]
      · exact .inl h

theorem foldl_listRow_evidence (rs : List SessionInfo) (l : ListingState) :
    (rs.foldl (s.listRow scope rows listed completed firstBirth) l).evidence =
      rs.foldl (addEvidence s scope listed completed) l.evidence := by
  induction rs generalizing l with
  | nil => rfl
  | cons row rs ih => rw [List.foldl_cons, List.foldl_cons, ih, listRow_evidence]

theorem foldl_addEvidence_new (rs : List SessionInfo)
    (h : (rs.foldl (addEvidence s scope listed completed) evidence).lookup key = some ev) :
    evidence.lookup key = some ev ∨ (ev.firstObservedAtMs = completed ∧
      ∃ row ∈ rs, row.historyRowKey = some key ∧ row.sessionId ∉ s.knownRawIds) := by
  induction rs generalizing evidence with
  | nil => exact .inl h
  | cons row rs ih =>
    rcases ih h with h | ⟨hobserved, row', hrow', hkey, hknown⟩
    · rcases addEvidence_new h with h | ⟨hobserved, hkey, hknown⟩
      · exact .inl h
      · exact .inr ⟨hobserved, row, List.mem_cons_self, hkey, hknown⟩
    · exact .inr ⟨hobserved, row', List.mem_cons_of_mem row hrow', hkey, hknown⟩

theorem mem_listRow (hrow : row ∈ rows)
    (h : c ∈ (s.listRow scope rows listed completed firstBirth l row).candidates) :
    c ∈ l.candidates ∨
      Candidate s scope rows (s.listRow scope rows listed completed firstBirth l row) c := by
  have hevidence : (s.listRow scope rows listed completed firstBirth l row).evidence = _ :=
    listRow_evidence
  cases hkey : row.historyRowKey with
  | none =>
    simp only [listRow, hkey] at h
    exact .inl h
  | some key =>
    by_cases hscope : key.providerId ≠ scope.1 ∨ key.location ≠ scope.2 ∨ key.sessionUniverse.isSome
    · simp only [listRow, hkey, if_pos hscope] at h
      exact .inl h
    · have hscope' := hscope
      simp only [not_or, not_not, Bool.not_eq_true, Option.isSome_eq_false_iff,
        Option.isNone_iff_eq_none] at hscope'
      -- the evidence that the row is judged by is that of the listing afterwards
      have hcandidate : ∀ ev, (s.listRow scope rows listed completed firstBirth l
          row).evidence.lookup key = some ev → c.2 = key → ev.providerActivityAtMs = some c.1 →
          c.1 ≤ ev.firstObservedAtMs → s.isTaken rows row key = false →
          Candidate s scope rows (s.listRow scope rows listed completed firstBirth l row) c := by
        rintro ev hlookup hc hact hle htaken
        exact ⟨⟨ev, by rw [hc]; exact hlookup, hact, hle⟩, by rw [hc]; exact hscope'.1,
          by rw [hc]; exact hscope'.2.1, by rw [hc]; exact hscope'.2.2,
          row, hrow, by rw [hkey, hc], by rw [hc]; exact htaken⟩
      cases hev : l.evidence.lookup key with
      | some ev =>
        have hlookup : (s.listRow scope rows listed completed firstBirth l
            row).evidence.lookup key = some ev := by
          rw [hevidence]
          exact lookup_addEvidence hev
        simp only [listRow, hkey, if_neg hscope, hev] at h
        rcases mem_listEvidence h with h | ⟨hc, hact, hle, htaken⟩
        · exact .inl h
        · exact .inr (hcandidate ev hlookup hc hact hle htaken)
      | none =>
        by_cases hlisted : (listed.contains row.sessionId || s.knownRawIds.contains row.sessionId)
        · simp only [listRow, hkey, if_neg hscope, hev, if_pos hlisted] at h
          exact .inl h
        · have hlookup : (s.listRow scope rows listed completed firstBirth l
              row).evidence.lookup key = some
                { firstObservedAtMs := completed, providerActivityAtMs := row.lastActivityAtMs } := by
            rw [hevidence]
            simp only [addEvidence, hkey, if_neg hscope, hev, Option.isSome_none,
              Bool.false_eq_true, if_false, if_neg hlisted, Table.lookup_insert_eq, if_true]
          simp only [listRow, hkey, if_neg hscope, hev, if_neg hlisted] at h
          rcases mem_listEvidence h with h | ⟨hc, hact, hle, htaken⟩
          · exact .inl h
          · exact .inr (hcandidate _ hlookup hc hact hle htaken)

theorem listing_candidates (rs : List SessionInfo) (hrs : ∀ row ∈ rs, row ∈ rows)
    (hl : ∀ c ∈ l.candidates, Candidate s scope rows l c) :
    ∀ c ∈ (rs.foldl (s.listRow scope rows listed completed firstBirth) l).candidates,
      Candidate s scope rows (rs.foldl (s.listRow scope rows listed completed firstBirth) l) c := by
  induction rs generalizing l with
  | nil => exact hl
  | cons row rs ih =>
    refine ih (fun r hr => hrs r (List.mem_cons_of_mem row hr)) fun c hc => ?_
    rcases mem_listRow (hrs row List.mem_cons_self) hc with hc | hc
    · refine (hl c hc).mono fun key ev hev => ?_
      rw [listRow_evidence]
      exact lookup_addEvidence hev
    · exact hc

end Rows

/-! ### The panes that wait -/

section Panes

open RegistryState

variable {scope : String × SessionLocation} {started : ℕ} {q : PendingPane}

/-- A pane that waits for its session: nothing is known of it. -/
structure Waits (s : RegistryState) (q : PendingPane) (native : NativePaneState) : Prop where
  lookup : s.nativePanes.lookup q.2.2 = some native
  created : native.observation.paneCreatedAtMs = some q.1
  sequence : native.observation.paneCreationSequence = some q.2.1
  agent : native.observation.agentSessionId = none
  bound : native.boundIdentity = none
  inferred : native.observation.inferredAgentSessionId = none

theorem exists_waits (h : q ∈ s.pendingPanes scope started) : ∃ native, Waits s q native := by
  unfold pendingPanes at h
  rw [List.mem_insertionSort, List.mem_filterMap] at h
  obtain ⟨e, he, h⟩ := h
  obtain ⟨birth, hbirth, h⟩ := Option.bind_eq_some_iff.mp h
  obtain ⟨sequence, hsequence, h⟩ := Option.bind_eq_some_iff.mp h
  split_ifs at h with hguard
  obtain ⟨_, _, hagent, hbound, hinferred, _⟩ := hguard
  obtain rfl := Option.some.inj h
  exact ⟨e.2, AList.mem_lookup_iff.mpr he, hbirth, hsequence, hagent, hbound, hinferred⟩

theorem map_filterMap_sublist {A B C : Type*} {f : A → Option B} {g : B → C} {h : A → C}
    (hf : ∀ a b, f a = some b → g b = h a) (l : List A) :
    ((l.filterMap f).map g).Sublist (l.map h) := by
  induction l with
  | nil => exact List.Sublist.refl []
  | cons a l ih =>
    cases ha : f a with
    | none =>
      rw [List.filterMap_cons_none ha, List.map_cons]
      exact ih.cons _
    | some b =>
      rw [List.filterMap_cons_some ha, List.map_cons, List.map_cons, hf a b ha]
      exact ih.cons_cons _

theorem nodup_pendingPanes (s : RegistryState) (scope : String × SessionLocation) (started : ℕ) :
    ((s.pendingPanes scope started).map (·.2.2)).Nodup := by
  unfold pendingPanes
  refine (((List.perm_insertionSort _ _).map _).nodup_iff).mpr ?_
  have hkeys : (s.nativePanes.entries.map Sigma.fst).Nodup := s.nativePanes.nodupKeys
  refine hkeys.sublist (map_filterMap_sublist ?_ _)
  intro e q h
  obtain ⟨birth, _, h⟩ := Option.bind_eq_some_iff.mp h
  obtain ⟨sequence, _, h⟩ := Option.bind_eq_some_iff.mp h
  split_ifs at h
  rw [← Option.some.inj h]

theorem PendingPane.le_iff (a b : PendingPane) :
    a.le b ↔ a.1 < b.1 ∨ (a.1 = b.1 ∧ (a.2.1 < b.2.1 ∨ (a.2.1 = b.2.1 ∧ a.2.2 ≤ b.2.2))) := by
  simp [PendingPane.le]

theorem pairwise_pendingPanes (s : RegistryState) (scope : String × SessionLocation)
    (started : ℕ) : (s.pendingPanes scope started).Pairwise fun a b => a.le b := by
  have : Std.Total fun a b : PendingPane => a.le b = true := ⟨fun a b => by
    rw [PendingPane.le_iff, PendingPane.le_iff]
    have := le_total a.2.2 b.2.2
    grind⟩
  have : IsTrans PendingPane fun a b => a.le b = true := ⟨fun a b c hab hbc => by
    rw [PendingPane.le_iff] at hab hbc ⊢
    have := @le_trans _ _ a.2.2 b.2.2 c.2.2
    grind⟩
  exact List.pairwise_insertionSort _ _

end Panes

/-! ### Pairing panes with candidates -/

section Pairs

open RegistryState

variable {A B : Type*} {R S : A → A → Prop} {l : List A}
  {candidates : List (ℕ × HistoryRowKey)} {ambiguous : Bool}

theorem pairwise_of_anyNeighbours [IsTrans A S] {p : A → A → Bool}
    (hl : l.Pairwise R) (hp : anyNeighbours p l = false)
    (h : ∀ a b, R a b → p a b = false → S a b) : l.Pairwise S := by
  refine List.isChain_iff_pairwise.mp ?_
  induction l with
  | nil => exact .nil
  | cons a l ih =>
    cases l with
    | nil => exact .singleton a
    | cons b l =>
      rw [anyNeighbours, Bool.or_eq_false_iff] at hp
      obtain ⟨ha, hl⟩ := List.pairwise_cons.mp hl
      exact .cons_cons (h a b (ha b List.mem_cons_self) hp.1) (ih hl hp.2)

theorem pairwise_zip {T : B → B → Prop} {l' : List B} (hl : l.Pairwise R)
    (hl' : l'.Pairwise T) : (l.zip l').Pairwise fun a b => R a.1 b.1 ∧ T a.2 b.2 := by
  induction l generalizing l' with
  | nil => exact .nil
  | cons a l ih =>
    cases l' with
    | nil => exact .nil
    | cons b l' =>
      obtain ⟨ha, hl⟩ := List.pairwise_cons.mp hl
      obtain ⟨hb, hl'⟩ := List.pairwise_cons.mp hl'
      refine .cons (fun c hc => ?_) (ih hl hl')
      obtain ⟨hc₁, hc₂⟩ := List.of_mem_zip hc
      exact ⟨ha _ hc₁, hb _ hc₂⟩

theorem or_of_pairwise (hl : l.Pairwise R) {a b : A} (ha : a ∈ l) (hb : b ∈ l)
    (hne : a ≠ b) : R a b ∨ R b a := by
  have : Std.Symm fun a b => R a b ∨ R b a := ⟨fun _ _ => Or.symm⟩
  exact (hl.imp Or.inl : l.Pairwise fun a b => R a b ∨ R b a).forall ha hb hne

/-- A pane is created before another one, by the time and the place in the order of creation. -/
def CreatedBefore (c c' : ℕ × ℕ) : Prop := c.1 < c'.1 ∨ (c.1 = c'.1 ∧ c.2 < c'.2)

theorem pairs_ordered {scope : String × SessionLocation} {started : ℕ}
    (h : rejectsListing (s.pendingPanes scope started)
      (candidates.insertionSort fun a b => a.1 ≤ b.1) ambiguous = false) :
    ((s.pendingPanes scope started).zip
      (candidates.insertionSort fun a b => a.1 ≤ b.1)).Pairwise
      fun x y => CreatedBefore (x.1.1, x.1.2.1) (y.1.1, y.1.2.1) ∧ x.2.1 < y.2.1 := by
  simp only [rejectsListing, Bool.or_eq_false_iff] at h
  obtain ⟨⟨⟨_, hcandidates⟩, hpanes⟩, _⟩ := h
  let before : PendingPane → PendingPane → Prop :=
    fun q q' => CreatedBefore (q.1, q.2.1) (q'.1, q'.2.1)
  have : IsTrans PendingPane before := ⟨fun a b c hab hbc => by
    simp only [before, CreatedBefore] at *
    omega⟩
  have : IsTrans (ℕ × HistoryRowKey) fun a b => a.1 < b.1 := ⟨fun _ _ _ => lt_trans⟩
  have : Std.Total fun a b : ℕ × HistoryRowKey => a.1 ≤ b.1 := ⟨fun a b => le_total a.1 b.1⟩
  have : IsTrans (ℕ × HistoryRowKey) fun a b => a.1 ≤ b.1 := ⟨fun _ _ _ => le_trans⟩
  have hcreated : (s.pendingPanes scope started).Pairwise before := by
    refine pairwise_of_anyNeighbours (pairwise_pendingPanes s scope started) hpanes ?_
    intro a b hab hne
    rw [PendingPane.le_iff] at hab
    simp only [Bool.and_eq_false_iff, decide_eq_false_iff_not] at hne
    simp only [before, CreatedBefore]
    omega
  have hactive : (candidates.insertionSort fun a b => a.1 ≤ b.1).Pairwise
      fun a b => a.1 < b.1 := by
    refine pairwise_of_anyNeighbours (List.pairwise_insertionSort _ candidates) hcandidates ?_
    intro a b hab hne
    exact lt_of_le_of_ne hab (by simpa using hne)
  exact pairwise_zip hcreated hactive

theorem created_le_activity {panes : List PendingPane}
    (h : rejectsListing panes candidates ambiguous = false)
    {x : PendingPane × ℕ × HistoryRowKey} (hx : x ∈ panes.zip candidates) : x.1.1 ≤ x.2.1 := by
  simp only [rejectsListing, Bool.or_eq_false_iff] at h
  have hx' := List.any_eq_false.mp h.2 x hx
  simp only [Bool.or_eq_true, decide_eq_true_eq, not_or, not_lt] at hx'
  exact hx'.1

end Pairs

/-! ### Inferred sessions -/

namespace RegistryState

/-- The id of the session that is inferred for a pane. -/
def inferredId (s : RegistryState) (p : String) : Option String :=
  (s.nativePanes.lookup p).bind (·.observation.inferredAgentSessionId)

/-- The key of the session that is inferred for a pane. -/
def inferredKey (s : RegistryState) (p : String) : Option HistoryRowKey :=
  (s.nativePanes.lookup p).bind (·.observation.inferredHistoryKey)

end RegistryState

/-- Each pane has its own session, and its id and key agree. -/
structure Inferred (s : RegistryState) : Prop where
  agree : ∀ p, s.inferredId p = (s.inferredKey p).map (·.sessionId)
  unique : ∀ p q id, s.inferredId p = some id → s.inferredId q = some id → p = q

theorem Inferred.empty : Inferred {} := by
  refine ⟨fun p => ?_, fun p q id h => ?_⟩
  · simp [RegistryState.inferredId, RegistryState.inferredKey]
  · simp [RegistryState.inferredId] at h

theorem Inferred.unique_key (h : Inferred s) {p q : String} {key : HistoryRowKey}
    (hp : s.inferredKey p = some key) (hq : s.inferredKey q = some key) : p = q := by
  refine h.unique p q key.sessionId ?_ ?_
  · rw [h.agree, hp, Option.map_some]
  · rw [h.agree, hq, Option.map_some]

/-- Nothing new is inferred, and nothing is noted of listings. -/
structure InfersLess (s t : RegistryState) : Prop where
  inferred : ∀ p, (t.inferredId p = none ∧ t.inferredKey p = none) ∨
    (t.inferredId p = s.inferredId p ∧ t.inferredKey p = s.inferredKey p)
  evidence : t.nativeListingEvidence = s.nativeListingEvidence
  known : s.knownRawIds ⊆ t.knownRawIds

namespace InfersLess

theorem of_eq (hn : t.nativePanes = s.nativePanes)
    (he : t.nativeListingEvidence = s.nativeListingEvidence) (hk : s.knownRawIds ⊆ t.knownRawIds) :
    InfersLess s t := by
  refine ⟨fun p => .inr ?_, he, hk⟩
  simp only [RegistryState.inferredId, RegistryState.inferredKey, hn, and_self]

theorem refl (s : RegistryState) : InfersLess s s := of_eq rfl rfl (List.Subset.refl _)

theorem trans (h : InfersLess s t) (h' : InfersLess t u) : InfersLess s u := by
  refine ⟨fun p => ?_, h'.evidence.trans h.evidence, List.Subset.trans h.known h'.known⟩
  rcases h'.inferred p with hnone | ⟨hid, hkey⟩
  · exact .inl hnone
  · rw [hid, hkey]
    exact h.inferred p

theorem of_write (ho : ¬allowed.observes) (hw : Write crates allowed s t) : InfersLess s t := by
  cases hw with
  | aside _ _ _ _ _ hknown _ => exact of_eq rfl rfl hknown
  | edit => exact of_eq rfl rfl (List.Subset.refl _)
  | stamp => exact of_eq rfl rfl (List.Subset.refl _)
  | release => rw [releasePane_eq]; exact of_eq rfl rfl (List.Subset.refl _)
  | vacate => exact of_eq rfl rfl (List.Subset.refl _)
  | detach => exact of_eq rfl rfl (List.Subset.refl _)
  | evict => exact of_eq rfl rfl (List.Subset.refl _)
  | bind => rw [dropOldPane_eq]; exact of_eq rfl rfl (List.Subset.refl _)
  | remove id =>
    cases hrow : s.sessions.lookup id with
    | none =>
      simp only [RegistryState.removeIdentityLocked, hrow]
      exact refl s
    | some row =>
      rw [removeIdentityLocked_eq hrow]
      exact of_eq rfl rfl (List.Subset.refl _)
  | upsert info =>
    rw [upsertLocked_eq]
    exact of_eq rfl rfl fun _ => List.mem_insert_of_mem
  | native panes hpanes =>
    refine ⟨fun p => ?_, rfl, List.Subset.refl _⟩
    have hp := hpanes p
    revert hp
    simp only [RegistryState.inferredId, RegistryState.inferredKey]
    generalize panes.lookup p = after
    generalize s.nativePanes.lookup p = before
    intro hp
    cases hp with
    | none => exact .inl ⟨rfl, rfl⟩
    | some hkeeps =>
      simp only [Option.bind_some]
      exact hkeeps.inferred.symm
  | observe hobserves => exact absurd hobserves ho

theorem of_writes (ho : ¬allowed.observes) (hw : Writes crates allowed s t) : InfersLess s t := by
  induction hw with
  | refl => exact refl s
  | tail _ hlast ih => exact ih.trans (of_write ho hlast)

theorem commitNative {paneId : Uuid} {pane : String} {event : NativeAgentObservation}
    {active : Bool} {native : NativePaneState} (h : InfersLess s t)
    (hnative : InferredFrom (s.nativePanes.lookup pane) native) :
    InfersLess s (t.commitNative paneId pane event active native) := by
  unfold RegistryState.commitNative
  split
  · refine ⟨fun p => ?_, h.evidence, h.known⟩
    by_cases hp : p = pane
    · simp only [RegistryState.inferredId, RegistryState.inferredKey, Table.lookup_insert_eq,
        if_pos hp, Option.bind_some]
      rcases hnative with hnone | ⟨old, hold, hid, hkey⟩
      · exact .inl hnone
      · rw [hp, hold]
        exact .inr ⟨hid, hkey⟩
    · simp only [RegistryState.inferredId, RegistryState.inferredKey, Table.lookup_insert_eq,
        if_neg hp]
      exact h.inferred p
  · refine ⟨fun p => ?_, h.evidence, h.known⟩
    by_cases hp : p = pane
    · simp only [RegistryState.inferredId, RegistryState.inferredKey, Table.lookup_erase_eq,
        if_pos hp]
      exact .inl ⟨rfl, rfl⟩
    · simp only [RegistryState.inferredId, RegistryState.inferredKey, Table.lookup_erase_eq,
        if_neg hp]
      exact h.inferred p

theorem applyHookProgress (s : RegistryState) (pane provider : String)
    (admission event : NativeAgentObservation) :
    InfersLess s (s.applyHookProgress pane provider admission event).1 := by
  unfold RegistryState.applyHookProgress
  repeat' split
  all_goals exact of_eq rfl rfl (List.Subset.refl _)

theorem applyNativeObservationLocked (s : RegistryState) (event : NativeAgentObservation)
    (now : ℕ) : InfersLess s (s.applyNativeObservationLocked crates event now).1 := by
  unfold RegistryState.applyNativeObservationLocked
  split
  · exact refl s
  · next paneId hparse =>
    simp only
    split
    · exact refl s
    · split
      · exact applyHookProgress s _ _ _ event
      · split
        · let allowed : Allowed := ⟨fun _ => True, False, False⟩
          have hstable : ∀ p, crates.paneKey p = p → allowed.bindable p := fun _ _ => trivial
          rcases observeNative_cases crates _ hstable s paneId (crates.hyphenated paneId)
            (toAsciiLowercase (trim event.providerId)) event now
            (Crates.paneKey_hyphenated hparse) with
              heq | ⟨t, native, _, active, _, _, hw, _, hnative, heq⟩
          · rw [heq]
            exact refl s
          · rw [heq]
            exact (of_writes not_false hw).commitNative hnative
        · exact refl s

theorem step (op : RegistryOp) (s : RegistryState)
    (hop : ∀ provider location rows listed started completed complete,
      op ≠ .enrichNativeFromListing provider location rows listed started completed complete) :
    InfersLess s (op.step crates s) := by
  by_cases hobserves : op.Observes
  · cases op with
    | applyNativeObservation event now => exact applyNativeObservationLocked s event now
    | enrichNativeFromListing => exact absurd rfl (hop _ _ _ _ _ _ _)
    | _ => exact hobserves.elim
  · have hw : Writes crates ⟨fun _ => True, True, False⟩ s (op.step crates s) :=
      op.writes s (fun _ _ => trivial) (fun _ _ => trivial) (fun _ => trivial) hobserves
    exact of_writes not_false hw

end InfersLess

theorem Inferred.of_infersLess (h : Inferred s) (hs : InfersLess s t) : Inferred t := by
  refine ⟨fun p => ?_, fun p q id hp hq => ?_⟩
  · rcases hs.inferred p with ⟨hid, hkey⟩ | ⟨hid, hkey⟩
    · rw [hid, hkey, Option.map_none]
    · rw [hid, hkey]
      exact h.agree p
  · have hold : ∀ p, t.inferredId p = some id → s.inferredId p = some id := by
      intro p hp
      rcases hs.inferred p with ⟨hid, _⟩ | ⟨hid, _⟩
      · rw [hid] at hp
        exact absurd hp (by simp)
      · rw [← hid]
        exact hp
    exact h.unique p q id (hold p hp) (hold q hq)

/-! ### One listing -/

/-- Each row with a key is listed under the id of its key. -/
def RegistryOp.ListsTrimmed : RegistryOp → Prop
  | .enrichNativeFromListing _ _ rows _ _ _ _ =>
    ∀ row ∈ rows, ∀ key, row.historyRowKey = some key → key.sessionId = row.sessionId
  | _ => True

namespace RegistryState

/-- A listing is taken note of: it started after the last one of its scope had completed. -/
def acceptsListing (s : RegistryState) (provider : String) (location : SessionLocation)
    (started completed : ℕ) : Bool :=
  location.isActionable && started ≤ completed &&
    !((s.nativeListingCompletedAt.lookup (toAsciiLowercase provider, location)).any
      fun last => started ≤ last)

/-- When a pane was created, and its place in the order of creation. -/
def createdAt (s : RegistryState) (p : String) : Option (ℕ × ℕ) :=
  (s.nativePanes.lookup p).bind fun native =>
    native.observation.paneCreatedAtMs.bind fun birth =>
      native.observation.paneCreationSequence.map fun sequence => (birth, sequence)

/-- When a session was active, by the listing in which it was first seen. -/
def activityOf (s : RegistryState) (key : HistoryRowKey) : Option ℕ :=
  (s.nativeListingEvidence.lookup key).bind (·.providerActivityAtMs)

end RegistryState

/-- The session of `key` is inferred for the pane. -/
def Assigns (s t : RegistryState) (p : String) (key : HistoryRowKey) : Prop :=
  t.inferredKey p = some key ∧ s.inferredKey p ≠ some key

/-- The pairs of panes and sessions that a listing infers. -/
structure Pairing (s t : RegistryState) (scope : String × SessionLocation)
    (rows : List SessionInfo) (pairs : List (RegistryState.PendingPane × ℕ × HistoryRowKey)) :
    Prop where
  panes : t.nativePanes = pairs.foldl (fun native p =>
    native.adjust p.1.2.2 fun native =>
      { native with
        observation :=
          { native.observation with
            inferredAgentSessionId := some p.2.2.sessionId
            inferredHistoryKey := some p.2.2 } }) s.nativePanes
  nodup : (pairs.map (·.1.2.2)).Nodup
  ordered : pairs.Pairwise fun x y =>
    CreatedBefore (x.1.1, x.1.2.1) (y.1.1, y.1.2.1) ∧ x.2.1 < y.2.1
  waits : ∀ x ∈ pairs, ∃ native, Waits s x.1 native
  candidate : ∀ x ∈ pairs, Candidate s scope rows { evidence := t.nativeListingEvidence } x.2
  created_le : ∀ x ∈ pairs, x.1.1 ≤ x.2.1

theorem blockPanes_inferred (s : RegistryState) (panes : List RegistryState.PendingPane)
    (p : String) : (s.blockPanes panes).inferredId p = s.inferredId p ∧
      (s.blockPanes panes).inferredKey p = s.inferredKey p := by
  change (Option.bind (AList.lookup p (panes.foldl _ s.nativePanes)) _ = _) ∧
    (Option.bind (AList.lookup p (panes.foldl _ s.nativePanes)) _ = _)
  unfold RegistryState.inferredId RegistryState.inferredKey
  generalize s.nativePanes = native
  induction panes generalizing native with
  | nil => exact ⟨rfl, rfl⟩
  | cons q panes ih =>
    rw [List.foldl_cons, (ih _).1, (ih _).2, Table.lookup_adjust]
    split_ifs with hp
    · rw [hp, Option.bind_map, Option.bind_map]
      exact ⟨rfl, rfl⟩
    · exact ⟨rfl, rfl⟩

theorem pairing_inferPanes
    {started : ℕ} {l : RegistryState.ListingState} (hn : t.nativePanes = s.nativePanes)
    (hl : ∀ c ∈ l.candidates, Candidate s scope rows l c)
    (hevidence : t.nativeListingEvidence = l.evidence)
    (hrejects : RegistryState.rejectsListing (s.pendingPanes scope started)
      (l.candidates.insertionSort fun a b => a.1 ≤ b.1) l.ambiguous = false)
    (hlength : (s.pendingPanes scope started).length ≤
      (l.candidates.insertionSort fun a b => a.1 ≤ b.1).length) :
    Pairing s (t.inferPanes (s.pendingPanes scope started)
        (l.candidates.insertionSort fun a b => a.1 ≤ b.1)) scope rows
      ((s.pendingPanes scope started).zip (l.candidates.insertionSort fun a b => a.1 ≤ b.1)) := by
  refine ⟨?_, ?_, pairs_ordered hrejects, fun x hx => ?_, fun x hx => ?_, fun x hx => ?_⟩
  · unfold RegistryState.inferPanes
    rw [hn]
  · have hnodup := nodup_pendingPanes s scope started
    rw [← List.map_fst_zip hlength, List.map_map] at hnodup
    exact hnodup
  · exact exists_waits (List.of_mem_zip hx).1
  · have hmem := (List.mem_insertionSort _).mp (List.of_mem_zip hx).2
    refine (hl x.2 hmem).mono fun key ev hev => ?_
    change AList.lookup key t.nativeListingEvidence = some ev
    rw [hevidence]
    exact hev
  · exact created_le_activity hrejects hx

theorem enrich_cases (s : RegistryState) (provider : String) (location : SessionLocation)
    (rows : List SessionInfo) (listed : List String) (started completed : ℕ) (complete : Bool) :
    let scope := (toAsciiLowercase provider, location)
    let t := (s.enrichNativeFromListing provider location rows listed started completed complete).1
    (s.acceptsListing provider location started completed = false ∧ t = s) ∨
    (s.acceptsListing provider location started completed = true ∧
      t.nativeListingEvidence = rows.foldl (addEvidence s scope listed completed)
        (RegistryState.retainEvidence s.nativeListingEvidence completed) ∧
      t.knownRawIds = rows.foldl (fun known row => known.insert row.sessionId) s.knownRawIds ∧
      ((∀ p, t.inferredId p = s.inferredId p ∧ t.inferredKey p = s.inferredKey p) ∨
        (complete = true ∧ ∃ pairs, Pairing s t scope rows pairs))) := by
  intro scope t
  let l := rows.foldl (s.listRow scope rows listed completed
    ((s.pendingPanes scope started).head?.map (·.1)))
    { evidence := RegistryState.retainEvidence s.nativeListingEvidence completed }
  have hevidence : l.evidence = rows.foldl (addEvidence s scope listed completed)
      (RegistryState.retainEvidence s.nativeListingEvidence completed) :=
    foldl_listRow_evidence rows _
  have hcandidates : ∀ c ∈ l.candidates, Candidate s scope rows l c :=
    listing_candidates rows (fun row hrow => hrow) (fun c hc => absurd hc (by simp))
  simp only [t, RegistryState.enrichNativeFromListing]
  split
  · next hguard =>
    refine .inl ⟨?_, rfl⟩
    simp only [RegistryState.acceptsListing]
    rcases hguard with h | h | h
    · simp_all
    · simp [Nat.not_le.mpr h]
    · simp [h]
  · next hguard =>
    simp only [not_or, not_lt, Bool.not_eq_true] at hguard
    have haccepts : s.acceptsListing provider location started completed = true := by
      simp only [RegistryState.acceptsListing]
      simp [show location.isActionable = true by simpa using hguard.1, hguard.2.1, hguard.2.2]
    refine .inr ⟨haccepts, ?_⟩
    split
    · exact ⟨hevidence, rfl, .inl fun p => ⟨rfl, rfl⟩⟩
    · next hcomplete =>
      split
      · exact ⟨hevidence, rfl, .inl fun p => blockPanes_inferred _ _ p⟩
      · next hrejects =>
        split
        · exact ⟨hevidence, rfl, .inl fun p => ⟨rfl, rfl⟩⟩
        · next hlength =>
          refine ⟨hevidence, rfl, .inr ⟨?_, _, pairing_inferPanes ?_ hcandidates ?_ ?_ ?_⟩⟩
          · simpa using fun h => hcomplete (.inl h)
          · rfl
          · rfl
          · exact Bool.eq_false_iff.mpr hrejects
          · exact not_lt.mp hlength

namespace Pairing

variable {scope : String × SessionLocation} {rows : List SessionInfo}
  {pairs : List (RegistryState.PendingPane × ℕ × HistoryRowKey)}

theorem inferred (h : Pairing s t scope rows pairs) (p : String) :
    (∃ x ∈ pairs, x.1.2.2 = p ∧ t.inferredId p = some x.2.2.sessionId ∧
      t.inferredKey p = some x.2.2) ∨
    (t.inferredId p = s.inferredId p ∧ t.inferredKey p = s.inferredKey p) := by
  have hpanes := h.panes
  unfold RegistryState.inferredId RegistryState.inferredKey
  rcases Table.lookup_foldl_adjust pairs (·.1.2.2)
    (fun q native =>
      { native with
        observation :=
          { native.observation with
            inferredAgentSessionId := some q.2.2.sessionId, inferredHistoryKey := some q.2.2 } })
    h.nodup s.nativePanes p with ⟨x, hx, hp, hlookup⟩ | ⟨_, hlookup⟩
  · obtain ⟨native, hwaits⟩ := h.waits x hx
    have hnative : s.nativePanes.lookup p = some native := by
      rw [← hp]
      exact hwaits.lookup
    refine .inl ⟨x, hx, hp, ?_, ?_⟩
    · rw [hpanes, hlookup, hnative, Option.map_some, Option.bind_some]
    · rw [hpanes, hlookup, hnative, Option.map_some, Option.bind_some]
  · right
    rw [hpanes, hlookup]
    exact ⟨rfl, rfl⟩

theorem exists_of_assigns (h : Pairing s t scope rows pairs) {p : String} {key : HistoryRowKey}
    (ha : Assigns s t p key) : ∃ x ∈ pairs, x.1.2.2 = p ∧ x.2.2 = key := by
  rcases h.inferred p with ⟨x, hx, hp, _, hkey⟩ | ⟨_, hkey⟩
  · rw [ha.1] at hkey
    exact ⟨x, hx, hp, (Option.some.inj hkey).symm⟩
  · exact absurd (hkey.symm.trans ha.1) ha.2

theorem fresh (h : Pairing s t scope rows pairs)
    (hrows : ∀ row ∈ rows, ∀ key, row.historyRowKey = some key → key.sessionId = row.sessionId)
    {x : RegistryState.PendingPane × ℕ × HistoryRowKey} (hx : x ∈ pairs) {q : String}
    {native : NativePaneState} (hq : s.nativePanes.lookup q = some native) :
    native.observation.inferredAgentSessionId ≠ some x.2.2.sessionId ∧
      native.observation.agentSessionId ≠ some x.2.2.sessionId := by
  obtain ⟨row, hrow, hkey, htaken⟩ := (h.candidate x hx).row
  simp only [RegistryState.isTaken, Bool.or_eq_false_iff] at htaken
  have hpanes := List.any_eq_false.mp htaken.1.1.2 native (Table.mem_values.mpr ⟨q, hq⟩)
  simp only [Bool.or_eq_true, decide_eq_true_eq, not_or] at hpanes
  rw [hrows row hrow x.2.2 hkey]
  exact hpanes

theorem eq_of_sessionId (h : Pairing s t scope rows pairs)
    {x y : RegistryState.PendingPane × ℕ × HistoryRowKey} (hx : x ∈ pairs) (hy : y ∈ pairs)
    (hid : x.2.2.sessionId = y.2.2.sessionId) : x = y := by
  have hcx := h.candidate x hx
  have hcy := h.candidate y hy
  have hkey : x.2.2 = y.2.2 := by
    have hprovider := hcx.provider.trans hcy.provider.symm
    have hlocation := hcx.location.trans hcy.location.symm
    have huniverse := hcx.noUniverse.trans hcy.noUniverse.symm
    revert hid hprovider hlocation huniverse
    cases x.2.2
    cases y.2.2
    simp only [HistoryRowKey.mk.injEq]
    exact fun hid hprovider hlocation huniverse => ⟨hprovider, hlocation, hid, huniverse⟩
  -- the activity of a session is that of its evidence
  have hactivity : x.2.1 = y.2.1 := by
    obtain ⟨ev, hev, hact, _⟩ := hcx.evidence
    obtain ⟨ev', hev', hact', _⟩ := hcy.evidence
    rw [hkey, hev'] at hev
    rw [← Option.some.inj hev, hact'] at hact
    exact (Option.some.inj hact).symm
  by_contra hne
  rcases or_of_pairwise h.ordered hx hy hne with h | h
  · exact absurd hactivity h.2.ne
  · exact absurd hactivity h.2.ne'

end Pairing

theorem Inferred.of_pairing
    {pairs : List (RegistryState.PendingPane × ℕ × HistoryRowKey)} (hs : Inferred s)
    (h : Pairing s t scope rows pairs)
    (hrows : ∀ row ∈ rows, ∀ key, row.historyRowKey = some key → key.sessionId = row.sessionId) :
    Inferred t := by
  have hfresh : ∀ x ∈ pairs, ∀ q, s.inferredId q ≠ some x.2.2.sessionId := by
    intro x hx q hq
    obtain ⟨native, hnative, hid⟩ := Option.bind_eq_some_iff.mp hq
    exact (h.fresh hrows hx hnative).1 hid
  refine ⟨fun p => ?_, fun p q id hp hq => ?_⟩
  · rcases h.inferred p with ⟨x, _, _, hid, hkey⟩ | ⟨hid, hkey⟩
    · rw [hid, hkey, Option.map_some]
    · rw [hid, hkey]
      exact hs.agree p
  · rcases h.inferred p with ⟨x, hx, hxp, hxid, _⟩ | ⟨hid, _⟩
    · have hxid' := Option.some.inj (hxid.symm.trans hp)
      rcases h.inferred q with ⟨y, hy, hyq, hyid, _⟩ | ⟨hid, _⟩
      · have hyid' := Option.some.inj (hyid.symm.trans hq)
        rw [← hxp, ← hyq, h.eq_of_sessionId hx hy (hxid'.trans hyid'.symm)]
      · rw [hid, ← hxid'] at hq
        exact absurd hq (hfresh x hx q)
    · rcases h.inferred q with ⟨y, hy, _, hyid, _⟩ | ⟨hid', _⟩
      · have hyid' := Option.some.inj (hyid.symm.trans hq)
        rw [hid, ← hyid'] at hp
        exact absurd hp (hfresh y hy p)
      · rw [hid] at hp
        rw [hid'] at hq
        exact hs.unique p q id hp hq

/-! ### Runs -/

/-- When a session id was first seen in a listing, after one more operation. -/
def firstSeenStep (s : RegistryState) (seen : String → Option ℕ) :
    RegistryOp → String → Option ℕ
  | .enrichNativeFromListing provider location rows _ started completed _ =>
    if s.acceptsListing provider location started completed then
      fun id => (seen id).or (if id ∈ rows.map (·.sessionId) then some completed else none)
    else seen
  | _ => seen

/-- When a session id was first seen in a listing of a run. -/
def firstSeen (crates : Crates) :
    RegistryState → (String → Option ℕ) → List RegistryOp → String → Option ℕ
  | _, seen, [] => seen
  | s, seen, op :: ops => firstSeen crates (op.step crates s) (firstSeenStep s seen op) ops

/-- The evidence of a session is from when it was first seen. -/
structure Seen (s : RegistryState) (seen : String → Option ℕ) : Prop where
  evidence : ∀ key ev, s.nativeListingEvidence.lookup key = some ev →
    seen key.sessionId = some ev.firstObservedAtMs
  known : ∀ id time, seen id = some time → id ∈ s.knownRawIds

namespace Seen

variable {seen : String → Option ℕ}

theorem empty : Seen {} fun _ => none := by
  refine ⟨fun key ev h => ?_, fun id time h => absurd h (by simp)⟩
  rw [AList.lookup_empty] at h
  exact absurd h (by simp)

theorem of_infersLess (h : Seen s seen) (hs : InfersLess s t) : Seen t seen := by
  refine ⟨?_, fun id time hid => hs.known (h.known id time hid)⟩
  rw [hs.evidence]
  exact h.evidence

theorem lookup_retainEvidence {evidence : Table HistoryRowKey NativeListingEvidence}
    {completed : ℕ} {key : HistoryRowKey} {ev : NativeListingEvidence}
    (h : (RegistryState.retainEvidence evidence completed).lookup key = some ev) :
    evidence.lookup key = some ev := by
  unfold RegistryState.retainEvidence at h
  generalize evidence.entries.filter _ = old at h
  induction old generalizing evidence with
  | nil => exact h
  | cons e old ih =>
    have hlookup := ih h
    rw [Table.lookup_erase_eq] at hlookup
    split_ifs at hlookup
    exact hlookup

theorem mem_foldl_insert {rows : List SessionInfo} {row : SessionInfo} (hrow : row ∈ rows)
    (known : List String) :
    row.sessionId ∈ rows.foldl (fun known row => known.insert row.sessionId) known := by
  induction rows generalizing known with
  | nil => exact absurd hrow (by simp)
  | cons row' rows ih =>
    rcases List.mem_cons.mp hrow with rfl | hrow
    · exact Writes.subset_foldl_insert rows _ List.mem_insert_self
    · exact ih hrow _

theorem listing (h : Seen s seen) (provider : String) (location : SessionLocation)
    (rows : List SessionInfo) (listed : List String) (started completed : ℕ) (complete : Bool)
    (hrows : ∀ row ∈ rows, ∀ key, row.historyRowKey = some key → key.sessionId = row.sessionId) :
    Seen (s.enrichNativeFromListing provider location rows listed started completed complete).1
      (firstSeenStep s seen
        (.enrichNativeFromListing provider location rows listed started completed complete)) := by
  rcases enrich_cases s provider location rows listed started completed complete with
    ⟨haccepts, heq⟩ | ⟨haccepts, hevidence, hknown, _⟩
  · simp only [firstSeenStep, haccepts, Bool.false_eq_true, if_false]
    rw [heq]
    exact h
  · simp only [firstSeenStep, haccepts, if_true]
    refine ⟨fun key ev hev => ?_, fun id time hid => ?_⟩
    · rw [hevidence] at hev
      rcases foldl_addEvidence_new rows hev with hold | ⟨hobserved, row, hrow, hkey, hnew⟩
      · rw [h.evidence key ev (lookup_retainEvidence hold), Option.some_or]
      · have hid := hrows row hrow key hkey
        -- the id was not known, so it was not seen before
        have hunseen : seen key.sessionId = none := by
          cases hseen : seen key.sessionId with
          | none => rfl
          | some time =>
            rw [hid] at hseen
            exact absurd (h.known _ time hseen) hnew
        rw [hunseen, Option.none_or, hobserved, hid, if_pos (List.mem_map_of_mem hrow)]
    · rw [hknown]
      cases hseen : seen id with
      | some time => exact Writes.subset_foldl_insert rows _ (h.known id time hseen)
      | none =>
        rw [hseen, Option.none_or] at hid
        split_ifs at hid with hmem
        obtain ⟨row, hrow, rfl⟩ := List.mem_map.mp hmem
        exact mem_foldl_insert hrow _

theorem step (h : Seen s seen) (op : RegistryOp) (hop : op.ListsTrimmed) :
    Seen (op.step crates s) (firstSeenStep s seen op) := by
  cases op with
  | enrichNativeFromListing provider location rows listed started completed complete =>
    exact h.listing provider location rows listed started completed complete hop
  | _ => exact h.of_infersLess (InfersLess.step _ s (by simp))

theorem run (h : Seen s seen) (ops : List RegistryOp) (hops : ∀ op ∈ ops, op.ListsTrimmed) :
    Seen (ops.foldl (RegistryOp.step crates) s) (firstSeen crates s seen ops) := by
  induction ops generalizing s seen with
  | nil => exact h
  | cons op ops ih =>
    exact ih (h.step op (hops op List.mem_cons_self))
      fun op' hop' => hops op' (List.mem_cons_of_mem op hop')

end Seen

theorem Inferred.step (h : Inferred s) (op : RegistryOp) (hop : op.ListsTrimmed) :
    Inferred (op.step crates s) := by
  cases op with
  | enrichNativeFromListing provider location rows listed started completed complete =>
    change Inferred (s.enrichNativeFromListing provider location rows listed started completed
      complete).1
    rcases enrich_cases s provider location rows listed started completed complete with
      ⟨_, heq⟩ | ⟨_, _, _, hsame | ⟨_, pairs, hpairs⟩⟩
    · rw [heq]
      exact h
    · refine ⟨fun p => ?_, fun p q id hp hq => ?_⟩
      · rw [(hsame p).1, (hsame p).2]
        exact h.agree p
      · rw [(hsame p).1] at hp
        rw [(hsame q).1] at hq
        exact h.unique p q id hp hq
    · exact h.of_pairing hpairs hop
  | _ => exact h.of_infersLess (InfersLess.step _ s (by simp))

theorem Inferred.run (h : Inferred s) (ops : List RegistryOp)
    (hops : ∀ op ∈ ops, op.ListsTrimmed) : Inferred (ops.foldl (RegistryOp.step crates) s) := by
  induction ops generalizing s with
  | nil => exact h
  | cons op ops ih =>
    exact ih (h.step op (hops op List.mem_cons_self))
      fun op' hop' => hops op' (List.mem_cons_of_mem op hop')

/-- What a listing may infer, when the ids of earlier listings were first seen as `seen` says. -/
structure ListingSound (s t : RegistryState) (scope : String × SessionLocation) (complete : Bool)
    (seen : String → Option ℕ) : Prop where
  /-- Only a complete listing infers sessions. -/
  whole : ∀ p key, Assigns s t p key → complete = true
  /-- Only for panes of which no session is known. -/
  waits : ∀ p key, Assigns s t p key → ∃ native, s.nativePanes.lookup p = some native ∧
    native.observation.agentSessionId = none ∧ native.boundIdentity = none ∧
    native.observation.inferredAgentSessionId = none
  /-- Only sessions of the scope of the listing. -/
  inScope : ∀ p key, Assigns s t p key → key.providerId = scope.1 ∧ key.location = scope.2
  /-- Only sessions that no pane has. -/
  fresh : ∀ p key, Assigns s t p key → ∀ q native, s.nativePanes.lookup q = some native →
    native.observation.inferredAgentSessionId ≠ some key.sessionId ∧
      native.observation.agentSessionId ≠ some key.sessionId
  /-- The pane that was created first has the session that was active first. -/
  ordered : ∀ p key p' key', Assigns s t p key → Assigns s t p' key' → p ≠ p' →
    ∃ c c' a a', s.createdAt p = some c ∧ s.createdAt p' = some c' ∧
      t.activityOf key = some a ∧ t.activityOf key' = some a' ∧
      ((CreatedBefore c c' ∧ a < a') ∨ (CreatedBefore c' c ∧ a' < a))
  /-- A session that was seen before is not inferred for a pane that was created since. -/
  created_le : ∀ p key time, Assigns s t p key → seen key.sessionId = some time →
    ∃ c, s.createdAt p = some c ∧ c.1 ≤ time

namespace ListingSound

variable {scope : String × SessionLocation} {complete : Bool} {seen seen' : String → Option ℕ}

theorem of_same (hsame : ∀ p, t.inferredKey p = s.inferredKey p) :
    ListingSound s t scope complete seen := by
  have hnone : ∀ p key, ¬Assigns s t p key := fun p key h => h.2 ((hsame p).symm.trans h.1)
  exact ⟨fun p key h => absurd h (hnone p key), fun p key h => absurd h (hnone p key),
    fun p key h => absurd h (hnone p key), fun p key h => absurd h (hnone p key),
    fun p key _ _ h => absurd h (hnone p key), fun p key _ h => absurd h (hnone p key)⟩

theorem createdAt_of_waits {q : RegistryState.PendingPane} {native : NativePaneState}
    (h : Waits s q native) : s.createdAt q.2.2 = some (q.1, q.2.1) := by
  rw [RegistryState.createdAt, h.lookup, Option.bind_some, h.created, Option.bind_some, h.sequence,
    Option.map_some]

theorem of_pairing {rows : List SessionInfo}
    {pairs : List (RegistryState.PendingPane × ℕ × HistoryRowKey)} (hcomplete : complete = true)
    (h : Pairing s t scope rows pairs)
    (hrows : ∀ row ∈ rows, ∀ key, row.historyRowKey = some key → key.sessionId = row.sessionId)
    (hseen : Seen t seen') (hle : ∀ id time, seen id = some time → seen' id = some time) :
    ListingSound s t scope complete seen := by
  have hactivity : ∀ x ∈ pairs, t.activityOf x.2.2 = some x.2.1 := by
    intro x hx
    obtain ⟨ev, hev, hact, _⟩ := (h.candidate x hx).evidence
    exact Option.bind_eq_some_iff.mpr ⟨ev, hev, hact⟩
  refine ⟨fun _ _ _ => hcomplete, fun p key ha => ?_, fun p key ha => ?_, fun p key ha => ?_,
    fun p key p' key' ha ha' hne => ?_, fun p key time ha htime => ?_⟩
  · obtain ⟨x, hx, rfl, _⟩ := h.exists_of_assigns ha
    obtain ⟨native, hwaits⟩ := h.waits x hx
    exact ⟨native, hwaits.lookup, hwaits.agent, hwaits.bound, hwaits.inferred⟩
  · obtain ⟨x, hx, _, rfl⟩ := h.exists_of_assigns ha
    exact ⟨(h.candidate x hx).provider, (h.candidate x hx).location⟩
  · obtain ⟨x, hx, _, rfl⟩ := h.exists_of_assigns ha
    exact fun q native hq => h.fresh hrows hx hq
  · obtain ⟨x, hx, rfl, rfl⟩ := h.exists_of_assigns ha
    obtain ⟨y, hy, rfl, rfl⟩ := h.exists_of_assigns ha'
    obtain ⟨_, hwx⟩ := h.waits x hx
    obtain ⟨_, hwy⟩ := h.waits y hy
    have hxy : x ≠ y := fun heq => hne (by rw [heq])
    exact ⟨_, _, _, _, createdAt_of_waits hwx, createdAt_of_waits hwy, hactivity x hx,
      hactivity y hy, or_of_pairwise h.ordered hx hy hxy⟩
  · obtain ⟨x, hx, rfl, rfl⟩ := h.exists_of_assigns ha
    obtain ⟨_, hwaits⟩ := h.waits x hx
    obtain ⟨ev, hev, _, hactive⟩ := (h.candidate x hx).evidence
    have htime' : time = ev.firstObservedAtMs :=
      Option.some.inj ((hle _ time htime).symm.trans (hseen.evidence _ ev hev))
    refine ⟨_, createdAt_of_waits hwaits, ?_⟩
    have := h.created_le x hx
    change x.1.1 ≤ time
    omega

end ListingSound

/-- If listings give the ids of their rows as they are in the keys, each pane has a session of its
own in every state that is reached, and each listing infers only what it may. -/
theorem native_inference_sound (crates : Crates) (ops : List RegistryOp)
    (hops : ∀ op ∈ ops, op.ListsTrimmed) :
    ((∀ p, (reached crates ops).inferredId p =
        ((reached crates ops).inferredKey p).map (·.sessionId)) ∧
      (∀ p q id, (reached crates ops).inferredId p = some id →
        (reached crates ops).inferredId q = some id → p = q) ∧
      (∀ p q key, (reached crates ops).inferredKey p = some key →
        (reached crates ops).inferredKey q = some key → p = q)) ∧
    ∀ pre provider location rows listed started completed complete post,
      ops = pre ++
        .enrichNativeFromListing provider location rows listed started completed complete :: post →
      ListingSound (reached crates pre)
        ((reached crates pre).enrichNativeFromListing provider location rows listed started
          completed complete).1 (toAsciiLowercase provider, location) complete
        (firstSeen crates {} (fun _ => none) pre) := by
  have hinferred : Inferred (reached crates ops) := Inferred.empty.run ops hops
  refine ⟨⟨hinferred.agree, hinferred.unique, fun p q key => hinferred.unique_key⟩, ?_⟩
  intro pre provider location rows listed started completed complete post heq
  have hpre : ∀ op ∈ pre, op.ListsTrimmed := by
    intro op hop
    exact hops op (by rw [heq]; exact List.mem_append_left _ hop)
  have hrows : RegistryOp.ListsTrimmed
      (.enrichNativeFromListing provider location rows listed started completed complete) :=
    hops _ (by rw [heq]; exact List.mem_append_right _ List.mem_cons_self)
  have hseen : Seen (reached crates pre) (firstSeen crates {} (fun _ => none) pre) :=
    Seen.empty.run pre hpre
  have hseen' := hseen.listing provider location rows listed started completed complete hrows
  rcases enrich_cases (reached crates pre) provider location rows listed started completed
    complete with ⟨_, hsame⟩ | ⟨haccepts, _, _, hsame | ⟨hcomplete, pairs, hpairs⟩⟩
  · rw [hsame]
    exact ListingSound.of_same fun _ => rfl
  · exact ListingSound.of_same fun p => (hsame p).2
  · refine ListingSound.of_pairing hcomplete hpairs hrows hseen' fun id time hid => ?_
    simp only [firstSeenStep, haccepts, if_true, hid, Option.some_or]

/-- The crates for texts that spell one of two UUIDs, with hyphens, and no timestamps. -/
def Crates.ofUuids : Crates where
  parseStr s :=
    let t := toAsciiLowercase s
    if t = "67e55044-10b1-426f-9247-bb680e5fe0c8" then some 0x67e5504410b1426f9247bb680e5fe0c8
    else if t = "f9168c5e-ceb2-4faa-b6bf-329bf39fa1e4" then
      some 0xf9168c5eceb24faab6bf329bf39fa1e4
    else none
  hyphenated guid :=
    if guid = 0x67e5504410b1426f9247bb680e5fe0c8 then "67e55044-10b1-426f-9247-bb680e5fe0c8"
    else "f9168c5e-ceb2-4faa-b6bf-329bf39fa1e4"
  parseRfc3339 _ := none
  parseStr_hyphenated := by
    intro s guid h
    simp only at h
    split_ifs at h
    · obtain rfl := Option.some.inj h
      decide
    · obtain rfl := Option.some.inj h
      decide
  parseStr_empty := by decide

/-- A native pane of Copilot is created. -/
def createPane (pane : String) (created sequence : ℕ) : RegistryOp :=
  .applyNativeObservation
    { paneId := pane, providerId := "copilot", windowId := 1, tabId := "t", modeEpoch := 1
      location := some .host, paneCreatedAtMs := some created
      paneCreationSequence := some sequence, event := .reset false } created

/-- A complete listing with one session of Copilot. -/
def listCopilot (id : String) (activity started completed : ℕ) : RegistryOp :=
  .enrichNativeFromListing "copilot" .host
    [{ SessionInfo.new id [] with
      providerId := some "copilot", location := .host, lastActivityAtMs := some activity }]
    [] started completed true

theorem native_inference_sound_listed :
    let ops := [createPane "67e55044-10b1-426f-9247-bb680e5fe0c8" 100 1, listCopilot "a" 150 200 210]
    (∀ op ∈ ops, op.ListsTrimmed) ∧
      (reached Crates.ofUuids ops).inferredId "67e55044-10b1-426f-9247-bb680e5fe0c8" = some "a" ∧
      ∀ q, (reached Crates.ofUuids ops).inferredId q = some "a" →
        "67e55044-10b1-426f-9247-bb680e5fe0c8" = q := by
  intro ops
  have hops : ∀ op ∈ ops, op.ListsTrimmed := by
    intro op hop
    rcases List.mem_cons.mp hop with rfl | hop
    · trivial
    · obtain rfl := List.mem_singleton.mp hop
      intro row hrow key hkey
      obtain rfl := List.mem_singleton.mp hrow
      have hkey' : some key = some
          { providerId := "copilot", location := .host, sessionId := "a", sessionUniverse := none } :=
        hkey.symm.trans (by decide +kernel)
      rw [Option.some.inj hkey']
      rfl
  have hinferred : (reached Crates.ofUuids ops).inferredId "67e55044-10b1-426f-9247-bb680e5fe0c8" =
      some "a" := by decide +kernel
  exact ⟨hops, hinferred, fun q hq =>
    (native_inference_sound Crates.ofUuids ops hops).1.2.1 _ q "a" hinferred hq⟩

/-- A session that is listed again with a blank after its id is inferred for a second pane. -/
theorem untrimmed_listing_not_injective :
    ¬∀ p q key,
      let s := reached Crates.ofUuids
        [createPane "67e55044-10b1-426f-9247-bb680e5fe0c8" 100 1, listCopilot "a" 150 200 210,
          createPane "f9168c5e-ceb2-4faa-b6bf-329bf39fa1e4" 120 2, listCopilot "a " 150 300 310]
      s.inferredKey p = some key → s.inferredKey q = some key → p = q := by
  intro h
  refine absurd (h "67e55044-10b1-426f-9247-bb680e5fe0c8" "f9168c5e-ceb2-4faa-b6bf-329bf39fa1e4"
    { providerId := "copilot", location := .host, sessionId := "a", sessionUniverse := none }
    ?_ ?_) (by decide)
  · decide +kernel
  · decide +kernel

end IntelligentTerminal.Sessions
