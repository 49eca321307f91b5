import Mathlib.Logic.Relation
import IntelligentTerminal.Sessions.RegistryOps

/-!
# The writes of the master's registry

The operations of the registry call one another, and what they have in common is how they write:
a row is edited, released from its pane, bound to a pane, removed or put. `Write` lists these
writes with what each keeps, and every operation is a sequence of them. An invariant is then
checked for each kind of write, and not for each operation.

`Allowed` says which panes may be bound and whether the two writes that only some operations make
are among them: an owner that loses its pane without a new revision of its directory, and changes
of the native panes that observations and listings make.

Source: `tools/wta/src/session_registry.rs`, lines 2087-4736.
-/

namespace IntelligentTerminal.Sessions

/-- The row keeps its identity, pane and directory. -/
structure SessionInfo.Keeps (row row' : SessionInfo) : Prop where
  identity : SessionIdentity.fromInfo row' = SessionIdentity.fromInfo row
  pane : row'.paneSessionId = row.paneSessionId
  cwd : row'.cwd = row.cwd
  evidence : row'.cwdEvidence = row.cwdEvidence

/-- The native pane keeps its epoch, and what is inferred of it is kept or forgotten. -/
structure NativePaneState.Keeps (native native' : NativePaneState) : Prop where
  epoch : native'.observation.modeEpoch = native.observation.modeEpoch
  inferred :
    (native'.observation.inferredAgentSessionId = native.observation.inferredAgentSessionId ∧
      native'.observation.inferredHistoryKey = native.observation.inferredHistoryKey) ∨
    (native'.observation.inferredAgentSessionId = none ∧
      native'.observation.inferredHistoryKey = none)

/-- The writes that are allowed. -/
structure Allowed where
  /-- The panes that may be bound. -/
  bindable : String → Prop
  /-- An owner may lose its pane without a new revision of its directory. -/
  detaches : Prop
  /-- The native panes may change freely. -/
  observes : Prop

/-- All writes are allowed. -/
def Allowed.all : Allowed := ⟨fun _ => True, True, True⟩

def RegistryState.newRevision (s : RegistryState) : ℕ := s.advanceCwdRevision.nextCwdRevision

/-- The kinds of writes. -/
inductive Write (crates : Crates) (allowed : Allowed) (s : RegistryState) : RegistryState → Prop
  /-- What no row depends on. -/
  | aside (next : ℕ) (known : List String) (connections : Table String PaneConnectionState)
      (failed : List (SessionIdentity × String))
      (hnext : next = s.nextCwdRevision ∨ next = s.newRevision) (hknown : s.knownRawIds ⊆ known)
      (hfailed : s.failedResumeAssignments ⊆ failed) :
      Write crates allowed s
        { s with
          nextCwdRevision := next, knownRawIds := known, paneConnections := connections
          failedResumeAssignments := failed }
  /-- A row keeps its identity, pane and directory. -/
  | edit {id : SessionIdentity} {row row' : SessionInfo} (hrow : s.sessions.lookup id = some row)
      (hkeeps : row.Keeps row') : Write crates allowed s (s.setRow id row')
  /-- A row changes its directory, with a new revision. -/
  | stamp {id : SessionIdentity} {row row' : SessionInfo} (hrow : s.sessions.lookup id = some row)
      (hid : SessionIdentity.fromInfo row' = SessionIdentity.fromInfo row)
      (hpane : row'.paneSessionId = row.paneSessionId)
      (hrev : row'.cwdEvidence.revision = s.newRevision) :
      Write crates allowed s (s.advanceCwdRevision.setRow id row')
  /-- A row gives up its pane, with a new revision. -/
  | release {id : SessionIdentity} {row row' : SessionInfo} (hrow : s.sessions.lookup id = some row)
      (hid : SessionIdentity.fromInfo row' = SessionIdentity.fromInfo row)
      (hpane : row'.paneSessionId = none) (hrev : row'.cwdEvidence.revision = s.newRevision) :
      Write crates allowed s
        ((s.advanceCwdRevision.releasePane crates id row.paneSessionId).setRow id row')
  /-- The owner of a pane gives it up, with a new revision. -/
  | vacate {id : SessionIdentity} {p : String} {row row' : SessionInfo}
      (hrow : s.sessions.lookup id = some row) (hp : s.activeByPane.lookup p = some id)
      (hid : SessionIdentity.fromInfo row' = SessionIdentity.fromInfo row)
      (hpane : row'.paneSessionId = none) (hrev : row'.cwdEvidence.revision = s.newRevision) :
      Write crates allowed s
        ({ s.advanceCwdRevision with activeByPane := s.activeByPane.erase p }.setRow id row')
  /-- The owner of a pane gives it up, with the old revision. -/
  | detach {id : SessionIdentity} {p : String} {row row' : SessionInfo} (hd : allowed.detaches)
      (hrow : s.sessions.lookup id = some row) (hp : s.activeByPane.lookup p = some id)
      (hid : SessionIdentity.fromInfo row' = SessionIdentity.fromInfo row)
      (hpane : row'.paneSessionId = none) (hevidence : row'.cwdEvidence = row.cwdEvidence) :
      Write crates allowed s ({ s with activeByPane := s.activeByPane.erase p }.setRow id row')
  /-- A pane is taken away from an identity without a row. -/
  | evict {id : SessionIdentity} {p : String} (hrow : s.sessions.lookup id = none)
      (hp : s.activeByPane.lookup p = some id) :
      Write crates allowed s { s with activeByPane := s.activeByPane.erase p }
  /-- A row leaves its old pane for another one, with a new revision. -/
  | bind {id : SessionIdentity} {p : String} {row row' : SessionInfo} (hb : allowed.bindable p)
      (hrow : s.sessions.lookup id = some row)
      (hid : SessionIdentity.fromInfo row' = SessionIdentity.fromInfo row)
      (hpane : row'.paneSessionId = some p) (hrev : row'.cwdEvidence.revision = s.newRevision) :
      Write crates allowed s
        { (s.advanceCwdRevision.dropOldPane crates id row.paneSessionId p).setRow id row' with
          activeByPane :=
            (s.advanceCwdRevision.dropOldPane crates id row.paneSessionId p).activeByPane.insert p
              id }
  /-- A row is removed. -/
  | remove (id : SessionIdentity) : Write crates allowed s (s.removeIdentityLocked crates id).1
  /-- A row is put, with a new revision. -/
  | upsert (info : SessionInfo) : Write crates allowed s (s.upsertLocked crates info)
  /-- The native panes keep their epochs and infer nothing new. -/
  | native (panes : Table String NativePaneState)
      (hpanes : ∀ pane, Option.Rel NativePaneState.Keeps (s.nativePanes.lookup pane)
        (panes.lookup pane)) :
      Write crates allowed s { s with nativePanes := panes }
  /-- The native panes change. -/
  | observe (ho : allowed.observes) (known : List String) (panes : Table String NativePaneState)
      (epochs : Table Uuid ℕ) (progress : Table String NativeAgentObservation)
      (completed : Table (String × SessionLocation) ℕ)
      (evidence : Table HistoryRowKey NativeListingEvidence) (hknown : s.knownRawIds ⊆ known) :
      Write crates allowed s
        { s with
          knownRawIds := known, nativePanes := panes, nativeRetiredEpochs := epochs
          hookPaneProgress := progress, nativeListingCompletedAt := completed
          nativeListingEvidence := evidence }

/-- A sequence of writes. -/
abbrev Writes (crates : Crates) (allowed : Allowed) : RegistryState → RegistryState → Prop :=
  Relation.ReflTransGen (Write crates allowed)

namespace RegistryState

variable (crates : Crates)

/-- `assign_resume_pane_identity_locked` binds the pane, which is in canonical form. -/
def bindsPane (s : RegistryState) (identity : SessionIdentity) (pane : String) : Bool :=
  ((s.sessions.lookup identity).any fun row => row.isOver || row.paneSessionId ≠ some pane) &&
    (identity, pane) ∉ s.failedResumeAssignments &&
    !((s.paneConnections.lookup pane).any fun
      | .failed (some false) _ => true
      | _ => false)

variable {crates} in
theorem bindsPane_of {s : RegistryState} {id : SessionIdentity} {row : SessionInfo} {pane : String}
    (hrow : s.sessions.lookup id = some row) (hover : row.isOver ∨ row.paneSessionId ≠ some pane)
    (hfailed : (id, pane) ∉ s.failedResumeAssignments)
    (hconn : ∀ reason, s.paneConnections.lookup pane ≠ some (.failed (some false) reason)) :
    s.bindsPane id pane := by
  have hconn' : ((s.paneConnections.lookup pane).any fun
      | .failed (some false) _ => true
      | _ => false) = false := by
    cases h : s.paneConnections.lookup pane with
    | none => rfl
    | some state =>
      rw [Option.any_some]
      split
      · next reason => exact absurd h (hconn reason)
      · rfl
  simp [bindsPane, hrow, hfailed, hover, hconn']

/-- `register_native_born_binding_locked` replaces the owner of a native pane. -/
def replacesOwner (s : RegistryState) (identity : SessionIdentity) (pane : String)
    (modeEpoch : Option ℕ) (predecessor : Option NativePaneBindingPredecessor) : Bool :=
  (identity.historyKey.any fun key =>
      key.sessionId = identity.sessionId && key.location.isActionable) &&
    pane ≠ "" && (identity, crates.paneKey pane) ∉ s.failedResumeAssignments &&
    !s.refusesBirth crates identity (crates.paneKey pane) &&
    ((s.activeByPane.lookup (crates.paneKey pane)).filter fun owner => owner ≠ identity).any
      fun previous => s.authorizesReplacement crates previous (crates.paneKey pane) modeEpoch
        predecessor

/-- The pane is taken away from the session that has it, unless it is `identity`. -/
def endCompetitor (s : RegistryState) (identity : SessionIdentity) (pane : String) (now : ℕ) :
    RegistryState :=
  match s.activeByPane.lookup pane with
  | none => s
  | some previous => if previous ≠ identity then (s.endEntry crates previous now).1 else s

/-- The row leaves its old pane for another one, and what is known of the pane is its own. -/
def movePane (s : RegistryState) (identity : SessionIdentity) (entry : SessionInfo) (pane : String)
    (now : ℕ) : RegistryState :=
  let s := s.dropOldPane crates identity entry.paneSessionId pane
  let s := s.setRow identity
    { entry with
      paneSessionId := some pane
      cwdEvidence :=
        { entry.cwdEvidence with
          acp := none, acpAgent := none, hookAfterAcp := false, revision := s.nextCwdRevision }
      lastActivityAtMs := some now, bornBoundPane := true }
  let s := { s with activeByPane := s.activeByPane.insert pane identity }
  let s := s.forgetInferred identity.sessionId
  s.linkNativePane crates identity pane entry.lastActivityAtMs

/-- The last part of `bindResumePane`: the row gets the pane. -/
def placeSession (s : RegistryState) (identity : SessionIdentity) (pane : String) (now : ℕ)
    (revived : Bool) : RegistryState × Bool :=
  let s := s.advanceCwdRevision
  match s.sessions.lookup identity with
  | none => (s, false)
  | some entry =>
    if entry.paneSessionId = some pane then (s, revived)
    else
      let s := s.movePane crates identity entry pane now
      match s.paneConnections.lookup pane with
      | some (.failed _ reason) => ((s.applyConnectionFailureLocked crates pane reason now).1, true)
      | _ => (s, true)

theorem placeSession_of_moves {s u : RegistryState} {identity : SessionIdentity}
    {entry : SessionInfo} {pane : String} (hu : s.advanceCwdRevision = u)
    (hentry : u.sessions.lookup identity = some entry) (hpane : entry.paneSessionId ≠ some pane)
    (now : ℕ) (revived : Bool) :
    s.placeSession crates identity pane now revived =
      match (u.movePane crates identity entry pane now).paneConnections.lookup pane with
      | some (.failed _ reason) =>
        (((u.movePane crates identity entry pane now).applyConnectionFailureLocked crates pane reason
          now).1, true)
      | _ => (u.movePane crates identity entry pane now, true) := by
  simp only [placeSession, hu, hentry, if_neg hpane]

theorem bindResumePane_eq (s : RegistryState) (identity : SessionIdentity) (pane : String)
    (now clock : ℕ) :
    s.bindResumePane crates identity pane now clock =
      ((s.markResumeDispatchedIdentityLocked crates identity clock).1.endCompetitor crates identity
        pane now).placeSession crates identity pane now
        ((s.markResumeDispatchedIdentityLocked crates identity clock).2.any (·.1)) := rfl

end RegistryState

variable {crates : Crates} {allowed : Allowed} {s t : RegistryState} {id : SessionIdentity}
  {row row' : SessionInfo}

namespace Writes

theorem single (h : Write crates allowed s t) : Writes crates allowed s t :=
  Relation.ReflTransGen.single h

theorem refl (s : RegistryState) : Writes crates allowed s s := Relation.ReflTransGen.refl

theorem step (h : Writes crates allowed s t) {u : RegistryState} (hw : Write crates allowed t u) :
    Writes crates allowed s u := Relation.ReflTransGen.tail h hw

theorem ite (c : Prop) [Decidable c] (h : Writes crates allowed s t) :
    Writes crates allowed s (if c then t else s) := by
  split_ifs
  · exact h
  · exact refl s

theorem invariant {Inv : RegistryState → Prop}
    (hw : ∀ s t, Inv s → Write crates allowed s t → Inv t) (h : Writes crates allowed s t)
    (hs : Inv s) : Inv t := by
  induction h with
  | refl => exact hs
  | tail _ hlast ih => exact hw _ _ ih hlast

/-! ### Rows -/

theorem advance (s : RegistryState) : Writes crates allowed s s.advanceCwdRevision :=
  single (.aside _ _ _ _ (.inr rfl) (List.Subset.refl _) (List.Subset.refl _))

theorem connections (s : RegistryState) (table : Table String PaneConnectionState) :
    Writes crates allowed s { s with paneConnections := table } :=
  single (.aside _ _ _ _ (.inl rfl) (List.Subset.refl _) (List.Subset.refl _))

theorem failed (s : RegistryState) (assignment : SessionIdentity × String) :
    Writes crates allowed s
      { s with failedResumeAssignments := s.failedResumeAssignments.insert assignment } :=
  single (.aside _ _ _ _ (.inl rfl) (List.Subset.refl _) fun _ => List.mem_insert_of_mem)

theorem setRow (hrow : s.sessions.lookup id = some row) (hkeeps : row.Keeps row') :
    Writes crates allowed s (s.setRow id row') :=
  single (.edit hrow hkeeps)

theorem adjust (s : RegistryState) (id : SessionIdentity) {f : SessionInfo → SessionInfo}
    (hf : ∀ row, SessionInfo.Keeps row (f row)) :
    Writes crates allowed s { s with sessions := s.sessions.adjust id f } := by
  unfold Table.adjust
  split
  · exact refl s
  · next row hrow => exact setRow hrow (hf row)

theorem upsert (s : RegistryState) (info : SessionInfo) :
    Writes crates allowed s (s.upsertLocked crates info) := single (.upsert info)

theorem remove (s : RegistryState) (id : SessionIdentity) :
    Writes crates allowed s (s.removeIdentityLocked crates id).1 := single (.remove id)

theorem endEntry (s : RegistryState) (id : SessionIdentity) (now : ℕ) :
    Writes crates allowed s (s.endEntry crates id now).1 := by
  unfold RegistryState.endEntry
  simp only
  split
  · exact advance s
  · next row hrow => exact single (.release hrow rfl rfl rfl)

theorem markResumeDispatched (s : RegistryState) (id : SessionIdentity) (clock : ℕ) :
    Writes crates allowed s (s.markResumeDispatchedIdentityLocked crates id clock).1 := by
  unfold RegistryState.markResumeDispatchedIdentityLocked
  simp only
  split
  · exact advance s
  · next row hrow =>
    split_ifs
    · exact single (.release hrow rfl rfl rfl)
    · exact advance s

theorem restoreFailedResume (s : RegistryState) (id : SessionIdentity) (reason : String)
    (now : ℕ) :
    Writes crates allowed s (s.restoreFailedResumeIdentityLocked crates id reason now).1 := by
  unfold RegistryState.restoreFailedResumeIdentityLocked
  split_ifs
  · exact refl s
  · simp only
    split
    · exact endEntry s id now
    · next entry hentry => exact (endEntry s id now).step (.edit hentry ⟨rfl, rfl, rfl, rfl⟩)

theorem applyConnectionFailure (s : RegistryState) (pane reason : String) (now : ℕ) :
    Writes crates allowed s (s.applyConnectionFailureLocked crates pane reason now).1 := by
  unfold RegistryState.applyConnectionFailureLocked
  split
  · exact refl s
  · next id _ =>
    split_ifs
    · exact (restoreFailedResume s id reason now).trans (failed _ _)
    · split
      · exact refl s
      · next entry hentry =>
        split_ifs
        · exact refl s
        · exact setRow hentry ⟨rfl, rfl, rfl, rfl⟩

/-! ### Native panes -/

theorem keeps_refl (native : NativePaneState) : native.Keeps native := ⟨rfl, .inl ⟨rfl, rfl⟩⟩

theorem rel_refl (native : Option NativePaneState) : Option.Rel NativePaneState.Keeps native native := by
  cases native with
  | none => exact .none
  | some native => exact .some (keeps_refl native)

variable {previous : SessionIdentity} {pane : String}

theorem adjustNative (s : RegistryState) {f : NativePaneState → NativePaneState}
    (hf : ∀ native, NativePaneState.Keeps native (f native)) :
    Writes crates allowed s { s with nativePanes := s.nativePanes.adjust pane f } := by
  refine single (.native _ fun p => ?_)
  rw [Table.lookup_adjust]
  split_ifs with hp
  · rw [hp]
    cases s.nativePanes.lookup pane with
    | none => exact .none
    | some native => exact .some (hf native)
  · exact rel_refl _

theorem keeps_clearInferred (native : NativePaneState) : native.Keeps native.clearInferred :=
  ⟨rfl, .inr ⟨rfl, rfl⟩⟩

theorem forgetInferred (s : RegistryState) (sid : String) :
    Writes crates allowed s (s.forgetInferred sid) := by
  refine single (.native _ fun p => ?_)
  rw [Table.lookup_mapValues]
  cases s.nativePanes.lookup p with
  | none => exact .none
  | some native =>
    refine .some ?_
    simp only
    split_ifs
    · exact keeps_clearInferred native
    · exact keeps_refl native

theorem keeps_adoptNativeActivity (row : SessionInfo) (previous : Option ℕ) (status : AgentStatus)
    (activity : ℕ) : row.Keeps (RegistryState.adoptNativeActivity row previous status activity) := by
  unfold RegistryState.adoptNativeActivity
  simp only
  split_ifs <;> exact ⟨rfl, rfl, rfl, rfl⟩

theorem linkNativePane (s : RegistryState) (id : SessionIdentity) (pane : String)
    (previous : Option ℕ) :
    Writes crates allowed s (s.linkNativePane crates id pane previous) := by
  unfold RegistryState.linkNativePane
  split
  · exact refl s
  · simp only
    split_ifs
    · exact (adjust s id fun row => keeps_adoptNativeActivity row _ _ _).trans
        (adjustNative _ fun _ => ⟨rfl, .inr ⟨rfl, rfl⟩⟩)
    · exact adjustNative s fun _ => ⟨rfl, .inr ⟨rfl, rfl⟩⟩
    · exact refl s

/-! ### Binding -/

theorem dropOldPane_next (s : RegistryState) (id : SessionIdentity) (old : Option String)
    (pane : String) : (s.dropOldPane crates id old pane).nextCwdRevision = s.nextCwdRevision := by
  unfold RegistryState.dropOldPane
  split
  · rfl
  · split_ifs <;> rfl

theorem lookup_endEntry_ne (s : RegistryState) {id previous : SessionIdentity} (now : ℕ)
    (h : id ≠ previous) :
    (s.endEntry crates previous now).1.sessions.lookup id = s.sessions.lookup id := by
  unfold RegistryState.endEntry
  simp only
  split
  · rfl
  · simp only [RegistryState.setRow]
    rw [Table.lookup_insert_eq, if_neg h]
    unfold RegistryState.releasePane
    split
    · rfl
    · split_ifs <;> rfl

theorem lookup_mark_of_not_isOver (hrow : s.sessions.lookup id = some row)
    (hover : row.isOver = false) (clock : ℕ) :
    (s.markResumeDispatchedIdentityLocked crates id clock).1.sessions.lookup id = some row := by
  have hrow' : s.advanceCwdRevision.sessions.lookup id = some row := hrow
  simp only [RegistryState.markResumeDispatchedIdentityLocked, hrow', hover, Bool.false_eq_true,
    if_false]

theorem endCompetitor (s : RegistryState) (id : SessionIdentity) (pane : String) (now : ℕ) :
    Writes crates allowed s (s.endCompetitor crates id pane now) ∧
      (s.endCompetitor crates id pane now).sessions.lookup id = s.sessions.lookup id := by
  unfold RegistryState.endCompetitor
  split
  · exact ⟨refl _, rfl⟩
  · split_ifs with hne
    · exact ⟨endEntry _ _ _, lookup_endEntry_ne _ now (Ne.symm hne)⟩
    · exact ⟨refl _, rfl⟩

theorem movePane (hrow : s.sessions.lookup id = some row) (now : ℕ)
    (hb : allowed.bindable pane) :
    Writes crates allowed s (s.advanceCwdRevision.movePane crates id row pane now) := by
  unfold RegistryState.movePane
  refine .trans (.trans ?_ (forgetInferred _ id.sessionId)) (linkNativePane _ id pane _)
  exact single (.bind hb hrow rfl rfl (dropOldPane_next _ _ _ _))

theorem placeSession (s : RegistryState) (id : SessionIdentity) (pane : String) (now : ℕ)
    (revived : Bool)
    (hb : ∀ row, s.sessions.lookup id = some row → row.paneSessionId ≠ some pane →
      allowed.bindable pane) :
    Writes crates allowed s (s.placeSession crates id pane now revived).1 := by
  unfold RegistryState.placeSession
  simp only
  split
  · exact advance s
  · next entry hentry =>
    split_ifs with hpane
    · exact advance s
    · have hmoved : Writes crates allowed s
          (s.advanceCwdRevision.movePane crates id entry pane now) :=
        movePane (s := s) hentry now (hb entry hentry hpane)
      split
      · exact hmoved.trans (applyConnectionFailure _ pane _ now)
      · exact hmoved

theorem bindResumePane (s : RegistryState) (id : SessionIdentity) (pane : String) (now clock : ℕ)
    (hb : ∀ row, s.sessions.lookup id = some row → row.isOver ∨ row.paneSessionId ≠ some pane →
      allowed.bindable pane) :
    Writes crates allowed s (s.bindResumePane crates id pane now clock).1 := by
  rw [RegistryState.bindResumePane_eq]
  obtain ⟨hwrites, hlookup⟩ : _ ∧ _ := endCompetitor
    (s.markResumeDispatchedIdentityLocked crates id clock).1 id pane now
  refine ((markResumeDispatched s id clock).trans hwrites).trans
    (placeSession _ id pane now _ fun entry hentry hpane => ?_)
  rw [hlookup] at hentry
  cases hrow : s.sessions.lookup id with
  | none =>
    have hnone : s.advanceCwdRevision.sessions.lookup id = none := hrow
    simp only [RegistryState.markResumeDispatchedIdentityLocked, hnone] at hentry
    exact absurd hentry (by simp)
  | some row =>
    refine hb row hrow ?_
    by_cases hover : row.isOver
    · exact .inl hover
    · rw [lookup_mark_of_not_isOver hrow (by simpa using hover)] at hentry
      rw [Option.some.inj hentry]
      exact .inr hpane

theorem assignResumePaneIdentityLocked (s : RegistryState) (id : SessionIdentity) (pane : String)
    (now clock : ℕ)
    (hb : s.bindsPane id (crates.paneKey pane) → allowed.bindable (crates.paneKey pane)) :
    Writes crates allowed s (s.assignResumePaneIdentityLocked crates id pane now clock).1 := by
  unfold RegistryState.assignResumePaneIdentityLocked
  split
  · exact refl s
  · simp only
    by_cases hfailed : (id, crates.paneKey pane) ∈ s.failedResumeAssignments
    · rw [if_pos hfailed]
    · rw [if_neg hfailed]
      split
      · split_ifs
        · exact refl s
        · exact (restoreFailedResume s id _ now).trans (failed _ _)
      · next hconn =>
        refine bindResumePane s id _ now clock fun row hrow hover => hb ?_
        refine RegistryState.bindsPane_of hrow hover hfailed fun reason hlookup => ?_
        exact hconn reason hlookup

theorem setLocationLocked (s : RegistryState) (sid : String) (location : SessionLocation) :
    Writes crates allowed s (s.setLocationLocked crates sid location).1 := by
  unfold RegistryState.setLocationLocked
  split
  · exact refl s
  · next id _ =>
    have hremoved : Writes crates allowed s (s.removeIdentityLocked crates id).1 := remove s id
    split
    · next heq =>
      rw [heq] at hremoved
      exact hremoved
    · next heq =>
      rw [heq] at hremoved
      exact hremoved.trans (upsert _ _)

/-! ### Events -/

theorem endPreviousOwner (s : RegistryState) (existing : Option SessionIdentity) (pane : String)
    (now : ℕ) : Writes crates allowed s (s.endPreviousOwner crates existing pane now) := by
  unfold RegistryState.endPreviousOwner
  split
  · exact refl s
  · split_ifs
    · exact endEntry _ _ _
    · exact refl s

theorem startSession (s : RegistryState) (existing : Option SessionIdentity) (key : AgentKey)
    (cliSource : CliSource) (pane : String) (cwd : PathBuf) (title : String) (now : ℕ) :
    Writes crates allowed s
      (s.startSession crates existing key cliSource pane cwd title now) := by
  unfold RegistryState.startSession
  simp only
  refine .trans ?_ (upsert _ _)
  have hended : Writes crates allowed s
      (if (decide (pane ≠ "") && !s.ownedByOtherBornBound existing pane) = true then
        s.endPreviousOwner crates existing pane now else s) := by
    split_ifs
    · exact endPreviousOwner _ _ _ _
    · exact refl s
  cases existing with
  | none => exact hended
  | some id => exact hended.trans (remove _ id)

theorem sessionStarted (s : RegistryState) (key : AgentKey) (cliSource : CliSource) (pane : String)
    (cwd : PathBuf) (title : String) (now : ℕ) :
    Writes crates allowed s (s.sessionStarted crates key cliSource pane cwd title now).1 := by
  unfold RegistryState.sessionStarted
  simp only
  split
  · next id entry hfound =>
    split
    · obtain ⟨id', _, hmap⟩ := Option.bind_eq_some_iff.mp hfound
      obtain ⟨entry', hentry, heq⟩ := Option.map_eq_some_iff.mp hmap
      obtain ⟨rfl, rfl⟩ := Prod.mk.inj heq
      exact setRow hentry ⟨rfl, rfl, rfl, rfl⟩
    · exact startSession _ _ _ _ _ _ _ _
  · exact startSession _ _ _ _ _ _ _ _

theorem sessionRenamed (s : RegistryState) (key : AgentKey) (pane title : String) (now : ℕ) :
    Writes crates allowed s (s.sessionRenamed key pane title now).1 := by
  unfold RegistryState.sessionRenamed
  repeat' split
  all_goals first
    | exact refl s
    | next hentry _ => exact setRow hentry ⟨rfl, rfl, rfl, rfl⟩

theorem workingDirectoryChanged (s : RegistryState) (key : AgentKey) (pane : String)
    (cwd : PathBuf) (now : ℕ) :
    Writes crates allowed s (s.workingDirectoryChanged key pane cwd now).1 := by
  unfold RegistryState.workingDirectoryChanged
  simp only
  split_ifs
  · exact refl s
  · split
    · exact refl s
    · split_ifs
      · exact refl s
      · split
        · exact refl s
        · next entry hentry =>
          split_ifs
          · exact refl s
          · exact refl s
          · exact single (.stamp hentry rfl rfl rfl)
          · exact single (.stamp hentry rfl rfl rfl)

theorem activityRow {qualified : Option SessionIdentity} {key : AgentKey} {entry : SessionInfo}
    (h : s.activityRow qualified key = some (id, entry)) : s.sessions.lookup id = some entry := by
  obtain ⟨id', _, hmap⟩ := Option.bind_eq_some_iff.mp h
  obtain ⟨entry', hentry, heq⟩ := Option.map_eq_some_iff.mp hmap
  obtain ⟨rfl, rfl⟩ := Prod.mk.inj heq
  exact hentry

theorem toolStarting (s : RegistryState) (qualified : Option SessionIdentity) (key : AgentKey)
    (toolName : String) (now : ℕ) :
    Writes crates allowed s (s.toolStarting qualified key toolName now).1 := by
  unfold RegistryState.toolStarting
  split
  · exact refl s
  · next id entry hentry =>
    split
    · exact refl s
    · exact setRow (activityRow hentry) ⟨rfl, rfl, rfl, rfl⟩

theorem toolReturned (s : RegistryState) (qualified : Option SessionIdentity) (key : AgentKey)
    (timestampMs : Option ℕ) (now : ℕ) :
    Writes crates allowed s (s.toolReturned qualified key timestampMs now).1 := by
  unfold RegistryState.toolReturned
  split
  · exact refl s
  · next id entry hentry =>
    split_ifs
    · exact refl s
    · exact refl s
    · exact refl s
    · exact setRow (activityRow hentry) ⟨rfl, rfl, rfl, rfl⟩

theorem toolCompleted (s : RegistryState) (qualified : Option SessionIdentity) (key : AgentKey)
    (now : ℕ) : Writes crates allowed s (s.toolCompleted qualified key now).1 := by
  unfold RegistryState.toolCompleted
  split
  · exact refl s
  · next id entry hentry =>
    split
    · exact refl s
    · refine setRow (activityRow hentry) ?_
      split_ifs <;> exact ⟨rfl, rfl, rfl, rfl⟩

theorem notification (s : RegistryState) (qualified : Option SessionIdentity) (key : AgentKey)
    (message : String) (timestampMs : Option ℕ) (now : ℕ) :
    Writes crates allowed s (s.notification qualified key message timestampMs now).1 := by
  unfold RegistryState.notification
  split
  · exact refl s
  · next id entry hentry =>
    split
    · exact refl s
    · exact setRow (activityRow hentry) ⟨rfl, rfl, rfl, rfl⟩

theorem sessionUnbound (s : RegistryState) (key : AgentKey) (pane : String) :
    Writes crates allowed s (s.sessionUnbound key pane).1 := by
  unfold RegistryState.sessionUnbound
  split
  · exact refl s
  · split
    · exact refl s
    · split
      · exact refl s
      · next row hrow =>
        split
        · next hguard => exact single (.vacate hrow hguard.1 rfl rfl rfl)
        · exact refl s

theorem sessionStopped (s : RegistryState) (key : AgentKey) (reason : String) (now : ℕ) :
    Writes crates allowed s (s.sessionStopped crates key reason now).1 := by
  unfold RegistryState.sessionStopped
  split
  · exact refl s
  · simp only
    split
    · exact advance s
    · next entry hentry =>
      split
      · exact (advance s).step (.edit hentry ⟨rfl, rfl, rfl, rfl⟩)
      · exact single (.release hentry rfl rfl rfl)

theorem sessionStoppedIfOwner (s : RegistryState) (key : AgentKey) (pane : Option String)
    (reason : String) (now : ℕ) :
    Writes crates allowed s (s.sessionStoppedIfOwner crates key pane reason now).1 := by
  unfold RegistryState.sessionStoppedIfOwner
  split
  · exact refl s
  · split
    · split
      · exact refl s
      · exact sessionStopped s key reason now
    · exact refl s

theorem paneClosed (s : RegistryState) (pane : String) (now : ℕ) :
    Writes crates allowed s (s.paneClosed pane now).1 := by
  unfold RegistryState.paneClosed
  simp only
  generalize hstate : (if s.paneConnections.lookup pane = some .connected then
    { s with paneConnections := s.paneConnections.erase pane } else s) = t
  have ht : Writes crates allowed s t := by
    rw [← hstate]
    split
    · exact connections s _
    · exact refl s
  split
  · exact ht
  · next id howner =>
    split
    · next hrow => exact (ht.tail (.evict hrow howner)).trans (advance _)
    · next entry hentry => exact ht.tail (.vacate hentry howner rfl rfl rfl)

theorem resumeDispatched (s : RegistryState) (key : AgentKey) (clock : ℕ) :
    Writes crates allowed s (s.resumeDispatched crates key clock).1 := by
  unfold RegistryState.resumeDispatched
  split
  · exact refl s
  · exact markResumeDispatched s _ clock

theorem resumeFailed (s : RegistryState) (key : AgentKey) (reason : String) (now : ℕ) :
    Writes crates allowed s (s.resumeFailed key reason now).1 := by
  unfold RegistryState.resumeFailed
  split
  · exact refl s
  · split
    · exact refl s
    · next entry hentry =>
      split
      · exact setRow hentry ⟨rfl, rfl, rfl, rfl⟩
      · exact refl s

variable (hstable : ∀ p, crates.paneKey p = p → allowed.bindable p)
include hstable

theorem resumePaneAssigned (s : RegistryState) (key : AgentKey) (pane : String) (now clock : ℕ)
    (hpane : crates.paneKey (crates.paneKey pane) = crates.paneKey pane) :
    Writes crates allowed s (s.resumePaneAssigned crates key pane now clock).1 := by
  unfold RegistryState.resumePaneAssigned
  split
  · exact refl s
  · split
    · exact refl s
    · exact assignResumePaneIdentityLocked s _ pane now clock fun _ => hstable _ hpane

theorem applyArm (s : RegistryState) (qualified : Option SessionIdentity) (now clock : ℕ)
    (ev : SessionEvent) :
    Writes crates allowed s (s.applyArm crates qualified now clock (ev.canonical crates)).1 := by
  cases ev with
  | sessionStarted => exact sessionStarted _ _ _ _ _ _ _
  | sessionRenamed => exact sessionRenamed _ _ _ _ _
  | workingDirectoryChanged => exact workingDirectoryChanged _ _ _ _ _
  | toolStarting => exact toolStarting _ _ _ _ _
  | toolCompleted => exact toolCompleted _ _ _ _
  | toolReturned => exact toolReturned _ _ _ _ _
  | notification => exact notification _ _ _ _ _ _
  | sessionStopped => exact sessionStopped _ _ _ _
  | sessionUnbound => exact sessionUnbound _ _ _
  | sessionStoppedIfOwner => exact sessionStoppedIfOwner _ _ _ _ _
  | connectionFailed => exact applyConnectionFailure _ _ _ _
  | paneClosed => exact paneClosed _ _ _
  | resumeDispatched => exact resumeDispatched _ _ _
  | resumeFailed => exact resumeFailed _ _ _ _
  | resumePaneAssigned =>
    exact resumePaneAssigned hstable _ _ _ _ _ (Crates.paneKey_stable _)

theorem applyEventQualifiedAtMs (s : RegistryState) (ev : SessionEvent)
    (qualified : Option SessionIdentity) (now clock : ℕ) :
    Writes crates allowed s (s.applyEventQualifiedAtMs crates ev qualified now clock).1 := by
  unfold RegistryState.applyEventQualifiedAtMs
  split
  · exact refl s
  · split
    · exact refl s
    · exact applyArm hstable s qualified now clock ev

/-! ### Births and observations -/

omit hstable in
theorem of_only {α : Type*} {l : List α} {a : α} (h : RegistryState.only l = some a) : a ∈ l := by
  unfold RegistryState.only at h
  split at h
  · rw [Option.some.inj h]
    exact List.mem_singleton_self a
  · exact absurd h (by simp)

omit hstable in
theorem exists_of_nativeBoundIdentity {observation : NativePaneObservation}
    (h : s.nativeBoundIdentity crates observation = some id) :
    ∃ row pane, s.sessions.lookup id = some row ∧ row.isLive ∧ row.paneSessionId = some pane ∧
      crates.paneKey pane = observation.paneId := by
  unfold RegistryState.nativeBoundIdentity at h
  obtain ⟨e, hmem, h⟩ := Option.bind_eq_some_iff.mp h
  have hfilter := of_only hmem
  simp only [List.mem_filter, SessionInfo.activeSourcePaneSession, Bool.and_eq_true,
    Option.any_eq_true] at hfilter
  obtain ⟨hentry, ⟨hlive, _⟩, pane, hpane, hkey⟩ := hfilter
  simp only at h
  split at h
  · exact absurd h (by simp)
  · obtain rfl := Option.some.inj h
    exact ⟨e.2, pane, AList.mem_lookup_iff.mpr hentry, hlive, hpane, by simpa using hkey⟩

omit hstable in
theorem detachPrevious
    (hd : allowed.detaches) (howner : s.activeByPane.lookup pane = some previous)
    (hrow : s.sessions.lookup previous = some row) :
    Writes crates allowed s (s.detachPrevious previous pane) := by
  simp only [RegistryState.detachPrevious, Table.adjust, hrow]
  exact single (.detach hd hrow howner rfl rfl rfl)

omit hstable in
theorem exists_of_authorizesReplacement
    {modeEpoch : Option ℕ} {predecessor : Option NativePaneBindingPredecessor}
    (h : s.authorizesReplacement crates previous pane modeEpoch predecessor) :
    ∃ row, s.sessions.lookup previous = some row ∧ row.paneSessionId.isSome := by
  unfold RegistryState.authorizesReplacement at h
  rw [Option.any_eq_true] at h
  obtain ⟨native, _, h⟩ := h
  obtain ⟨_, hbound, _⟩ := of_decide_eq_true h
  obtain ⟨row, pane, hrow, _, hpane, _⟩ := exists_of_nativeBoundIdentity hbound
  exact ⟨row, hrow, by rw [hpane]; rfl⟩

omit hstable in
theorem detachOwner (s : RegistryState) (previous : Option SessionIdentity) (pane : String)
    (h : ∀ owner, previous = some owner → allowed.detaches ∧
      s.activeByPane.lookup pane = some owner ∧ ∃ row, s.sessions.lookup owner = some row) :
    Writes crates allowed s (previous.elim s fun owner => s.detachPrevious owner pane) := by
  cases previous with
  | none => exact refl s
  | some owner =>
    obtain ⟨hd, howner, row, hrow⟩ := h owner rfl
    exact detachPrevious hd howner hrow

omit hstable in
theorem replacesOwner_of {key : HistoryRowKey} {modeEpoch : Option ℕ}
    {predecessor : Option NativePaneBindingPredecessor}
    (hkey : id.historyKey = some key)
    (hvalid : ¬(key.sessionId ≠ id.sessionId ∨ !key.location.isActionable ∨ pane = ""))
    (hfailed : (id, crates.paneKey pane) ∉ s.failedResumeAssignments)
    (hrefuses : ¬s.refusesBirth crates id (crates.paneKey pane))
    (howner : s.activeByPane.lookup (crates.paneKey pane) = some previous) (hne : previous ≠ id)
    (hauth : s.authorizesReplacement crates previous (crates.paneKey pane) modeEpoch predecessor) :
    s.replacesOwner crates id pane modeEpoch predecessor := by
  simp only [not_or, ne_eq, not_not, Bool.not_eq_true, Bool.not_eq_false'] at hvalid hrefuses
  obtain ⟨hsid, hloc, hpane⟩ := hvalid
  simp [RegistryState.replacesOwner, hkey, hsid, hloc, hpane, hfailed, hrefuses, howner, hne, hauth,
    Option.filter]

omit hstable in
theorem not_replacesOwner_none (s : RegistryState) (id : SessionIdentity) (pane : String)
    (modeEpoch : Option ℕ) : ¬s.replacesOwner crates id pane modeEpoch none := by
  intro h
  simp [RegistryState.replacesOwner, RegistryState.authorizesReplacement] at h

omit hstable in
theorem succeedNative (s : RegistryState) (id : SessionIdentity) (key : HistoryRowKey)
    (pane : String) (clock : ℕ) :
    Writes crates allowed s (s.succeedNative id key pane clock) := by
  unfold RegistryState.succeedNative
  split
  · exact refl s
  · exact adjustNative s fun _ => ⟨rfl, .inr ⟨rfl, rfl⟩⟩

theorem bindBorn (s : RegistryState) (id : SessionIdentity) (pane : String) (created : Bool)
    (clock : ℕ) (hpane : crates.paneKey (crates.paneKey pane) = crates.paneKey pane) :
    Writes crates allowed s (s.bindBorn crates id pane created clock).1 := by
  unfold RegistryState.bindBorn
  simp only
  have hassigned := assignResumePaneIdentityLocked s id pane clock clock
    fun _ => hstable _ hpane
  have hkeeps : ∀ row : SessionInfo, row.Keeps
      (if row.paneSessionId = some pane then { row with bornBoundPane := true } else row) := by
    intro row
    split_ifs <;> exact ⟨rfl, rfl, rfl, rfl⟩
  have hconfirmed := hassigned.trans (adjust _ id hkeeps)
  split
  · exact hconfirmed.trans (adjustNative _ fun _ => ⟨rfl, .inr ⟨rfl, rfl⟩⟩)
  · exact hconfirmed

theorem registerNativeBornBindingLocked (s : RegistryState) (id : SessionIdentity) (pane : String)
    (cwd : PathBuf) (modeEpoch : Option ℕ) (predecessor : Option NativePaneBindingPredecessor)
    (clock : ℕ) (hd : s.replacesOwner crates id pane modeEpoch predecessor → allowed.detaches) :
    Writes crates allowed s (s.registerNativeBornBindingLocked crates id pane cwd modeEpoch
      predecessor clock).1 := by
  unfold RegistryState.registerNativeBornBindingLocked
  split
  · exact refl s
  · next key hkey =>
    split
    · exact refl s
    · next hvalid =>
      simp only
      split
      · exact refl s
      · next hfailed =>
        split
        · exact refl s
        · next hrefuses =>
          split
          · exact refl s
          · next hprevious =>
            have hdetached : Writes crates allowed s _ := detachOwner s
              ((s.activeByPane.lookup (crates.paneKey pane)).filter fun owner => owner ≠ id)
              (crates.paneKey pane) fun previous hfilter => by
                rw [hfilter, Option.any_some, not_or, Bool.not_eq_true, Bool.not_eq_false']
                  at hprevious
                obtain ⟨howner, hne⟩ := Option.filter_eq_some_iff.mp hfilter
                obtain ⟨row, hrow, _⟩ := exists_of_authorizesReplacement hprevious.2
                exact ⟨hd (replacesOwner_of hkey hvalid hfailed hrefuses howner
                  (of_decide_eq_true hne) hprevious.2), howner, row, hrow⟩
            exact ((hdetached.trans (ite _ (upsert _ _))).trans
              (ite _ (succeedNative _ _ _ _ _))).trans
                (bindBorn hstable _ id _ _ clock (Crates.paneKey_stable _))

theorem bindHistoryRow (s : RegistryState) (pane : String) (reset active : Bool)
    (observation : NativePaneObservation) (bound : Option SessionIdentity) (clock : ℕ)
    (hpane : crates.paneKey (crates.paneKey pane) = crates.paneKey pane) :
    Writes crates allowed s
      (s.bindHistoryRow crates pane reset active observation bound clock).1 := by
  unfold RegistryState.bindHistoryRow
  split
  · split
    · exact refl s
    · exact assignResumePaneIdentityLocked s _ pane _ clock fun _ => hstable _ hpane
  · exact refl s

omit hstable in
theorem keeps_observeRow (row : SessionInfo) (generic : Bool) (status : AgentStatus)
    (activity : ℕ) : row.Keeps (RegistryState.observeRow row generic status activity) := by
  unfold RegistryState.observeRow
  simp only
  split_ifs <;> exact ⟨rfl, rfl, rfl, rfl⟩

omit hstable in
theorem updateBoundRow (s : RegistryState) (pane : String) (event : NativeAgentObservation)
    (status : AgentStatus) (active continuation removed : Bool) (bound : Option SessionIdentity)
    (activity : ℕ) :
    Writes crates allowed s
      (s.updateBoundRow crates pane event status active continuation removed bound activity) := by
  unfold RegistryState.updateBoundRow
  split
  · exact refl s
  · next id =>
    simp only
    split
    · exact endEntry s id activity
    · exact ite _ (adjust s id fun row => keeps_observeRow row _ _ _)

end Writes

/-- What is kept of an old observation is its own. -/
def InferredFrom (old : Option NativePaneState) (native : NativePaneState) : Prop :=
  (native.observation.inferredAgentSessionId = none ∧
    native.observation.inferredHistoryKey = none) ∨
  ∃ pane, old = some pane ∧
    native.observation.inferredAgentSessionId = pane.observation.inferredAgentSessionId ∧
    native.observation.inferredHistoryKey = pane.observation.inferredHistoryKey

theorem carryOver_inferred (s : RegistryState) (old : Option NativePaneState)
    (reset continuation : Bool) (bound : Option SessionIdentity) (pane provider : String)
    (event : NativeAgentObservation) (status : AgentStatus) (clock : ℕ)
    (bound' : Option SessionIdentity) (blocked : Bool) :
    InferredFrom old
      { observation := s.carryOver old reset continuation bound
          (RegistryState.newObservation old pane provider event status clock)
        boundIdentity := bound', inferenceBlocked := blocked } := by
  unfold RegistryState.carryOver
  cases old with
  | none => exact .inl ⟨rfl, rfl⟩
  | some old =>
    simp only
    split_ifs
    · exact .inr ⟨old, rfl, rfl, rfl⟩
    · exact .inr ⟨old, rfl, rfl, rfl⟩
    · exact .inl ⟨rfl, rfl⟩
    · exact .inl ⟨rfl, rfl⟩

theorem carryOver_modeEpoch (s : RegistryState) (old : Option NativePaneState)
    (reset continuation : Bool) (bound : Option SessionIdentity)
    (observation : NativePaneObservation) :
    (s.carryOver old reset continuation bound observation).modeEpoch = observation.modeEpoch := by
  unfold RegistryState.carryOver
  cases old with
  | none => rfl
  | some old =>
    simp only
    split_ifs <;> rfl

variable (crates allowed) in
theorem observeNative_cases (hstable : ∀ p, crates.paneKey p = p → allowed.bindable p)
    (s : RegistryState) (paneId : Uuid) (pane provider : String) (event : NativeAgentObservation)
    (clock : ℕ) (hpane : crates.paneKey pane = pane) :
    s.observeNative crates paneId pane provider event clock = (s, false) ∨
      ∃ t native status active removed,
        RegistryState.observedStatus event.event = some (status, active, removed) ∧
        Writes crates allowed s t ∧ native.observation.modeEpoch = event.modeEpoch ∧
        InferredFrom (s.nativePanes.lookup pane) native ∧
        s.observeNative crates paneId pane provider event clock =
          (t.commitNative paneId pane event active native, true) := by
  unfold RegistryState.observeNative
  split
  · exact .inl rfl
  · next status active removed hstatus =>
    simp only
    split
    · exact .inl rfl
    · refine .inr ⟨_, _, status, active, removed, hstatus,
        .trans (Writes.bindHistoryRow hstable s pane _ active _ _ clock (by rw [hpane, hpane]))
          (Writes.updateBoundRow _ pane event status active _ removed _ _), ?_, ?_, rfl⟩
      · split_ifs
        · exact carryOver_modeEpoch s _ _ _ _ _
        · exact carryOver_modeEpoch s _ _ _ _ _
      · split_ifs
        · exact .inl ⟨rfl, rfl⟩
        · exact carryOver_inferred s _ _ _ _ _ _ _ _ _ _ _

namespace Writes

theorem applyHookProgress (ho : allowed.observes) (s : RegistryState) (pane provider : String)
    (admission event : NativeAgentObservation) :
    Writes crates allowed s (s.applyHookProgress pane provider admission event).1 := by
  unfold RegistryState.applyHookProgress
  repeat' split
  all_goals first
    | exact refl s
    | exact single (.observe ho _ _ _ _ _ _ (List.Subset.refl _))

theorem commitNative (ho : allowed.observes) (s : RegistryState) (paneId : Uuid) (pane : String)
    (event : NativeAgentObservation) (active : Bool) (native : NativePaneState) :
    Writes crates allowed s (s.commitNative paneId pane event active native) := by
  unfold RegistryState.commitNative
  split
  · exact single (.observe ho _ _ _ _ _ _ (List.Subset.refl _))
  · exact single (.observe ho _ _ _ _ _ _ (List.Subset.refl _))

variable (hstable : ∀ p, crates.paneKey p = p → allowed.bindable p)
include hstable

theorem applyNativeObservationLocked (ho : allowed.observes) (s : RegistryState)
    (event : NativeAgentObservation) (clock : ℕ) :
    Writes crates allowed s (s.applyNativeObservationLocked crates event clock).1 := by
  unfold RegistryState.applyNativeObservationLocked
  split
  · exact refl s
  · next paneId hparse =>
    simp only
    split
    · exact refl s
    · split
      · exact applyHookProgress ho s _ _ _ event
      · split
        · rcases observeNative_cases crates allowed hstable s paneId _ (toAsciiLowercase (trim event.providerId))
            event clock (Crates.paneKey_hyphenated hparse) with heq | ⟨t, native, _, _, _, _, ht, _, _, heq⟩
          · rw [heq]
          · rw [heq]
            exact ht.trans (commitNative ho _ _ _ _ _ _)
        · exact refl s

theorem applyNativeWatcherActivity (s : RegistryState) (cli : CliSource) (key : String)
    (event : SessionEvent) (now : ℕ) :
    Writes crates allowed s (s.applyNativeWatcherActivity crates cli key event now).1 := by
  unfold RegistryState.applyNativeWatcherActivity
  simp only
  repeat' split
  all_goals first
    | exact refl s
    | exact applyEventQualifiedAtMs hstable s _ _ now now

theorem recoverCopilotPrompt (s : RegistryState) (expected : SessionInfo) (pane : String)
    (cwd : PathBuf) (now : ℕ) :
    Writes crates allowed s (s.recoverCopilotPrompt crates expected pane cwd now).1 := by
  unfold RegistryState.recoverCopilotPrompt
  simp only
  split
  · exact refl s
  · split
    · exact refl s
    · split
      · exact (applyEventQualifiedAtMs hstable _ _ _ _ _).trans
          (applyEventQualifiedAtMs hstable _ _ _ _ _)
      · exact applyEventQualifiedAtMs hstable _ _ _ _ _

theorem applyOrdinaryBornEvent (s : RegistryState) (ev : SessionEvent)
    (location : SessionLocation) (preserve : Bool) (now : ℕ) :
    Writes crates allowed s (s.applyOrdinaryBornEvent crates ev location preserve now).1 := by
  unfold RegistryState.applyOrdinaryBornEvent
  simp only
  have happlied : Writes crates allowed s
      (if preserve = true then (s, false)
        else s.applyEventQualifiedAtMs crates ev none now now).1 := by
    split
    · exact refl s
    · exact applyEventQualifiedAtMs hstable _ _ _ _ _
  split
  · exact happlied.trans (setLocationLocked _ _ _)
  · exact happlied

theorem bornOfEvent (s : RegistryState) (id : SessionIdentity) (pane : String) (cwd : PathBuf)
    (now : ℕ) :
    Writes crates allowed s
      (s.registerNativeBornBindingLocked crates id pane cwd none none now).1 :=
  registerNativeBornBindingLocked hstable s id pane cwd none none now
    fun h => absurd h (not_replacesOwner_none s id pane none)

theorem applyBornBoundEvent (s : RegistryState) (ev : SessionEvent) (location : SessionLocation)
    (preserve : Bool) (now : ℕ) :
    Writes crates allowed s (s.applyBornBoundEvent crates ev location preserve now).1 := by
  unfold RegistryState.applyBornBoundEvent
  cases ev with
  | sessionStarted key cliSource pane cwd title =>
    simp only
    split
    · exact refl s
    · split
      · cases hprovider : cliSource.canonicalProviderId with
        | none =>
          simp only
          exact refl s
        | some provider =>
          simp only
          exact bornOfEvent hstable s _ pane cwd now
      · exact applyOrdinaryBornEvent hstable s _ location preserve now
  | _ => exact applyOrdinaryBornEvent hstable s _ location preserve now

omit hstable

theorem adoptAgentTitleIdentity (s : RegistryState) (id : SessionIdentity) (candidate : String) :
    Writes crates allowed s (s.adoptAgentTitleIdentity id candidate).1 := by
  unfold RegistryState.adoptAgentTitleIdentity
  split
  · exact refl s
  · split
    · exact refl s
    · next entry hentry =>
      split
      · exact refl s
      · exact setRow hentry ⟨rfl, rfl, rfl, rfl⟩

theorem upgradeTitleIfSyntheticIdentity (s : RegistryState) (id : SessionIdentity)
    (candidate : String) :
    Writes crates allowed s (s.upgradeTitleIfSyntheticIdentity crates id candidate).1 := by
  unfold RegistryState.upgradeTitleIfSyntheticIdentity
  split
  · exact refl s
  · split
    · exact refl s
    · next entry hentry =>
      split
      · exact refl s
      · exact setRow hentry ⟨rfl, rfl, rfl, rfl⟩

theorem adoptAcpCwdIdentity (s : RegistryState) (id : SessionIdentity) (revision : ℕ)
    (agent : Uuid) (cwd : PathBuf) :
    Writes crates allowed s (s.adoptAcpCwdIdentity crates id revision agent cwd).1 := by
  unfold RegistryState.adoptAcpCwdIdentity
  split
  · exact refl s
  · split
    · exact refl s
    · next row hrow =>
      split
      · exact refl s
      · split
        · exact refl s
        · exact single (.stamp hrow rfl rfl rfl)

theorem clearAcpCwdIdentity (s : RegistryState) (id : SessionIdentity) (revision : ℕ) :
    Writes crates allowed s (s.clearAcpCwdIdentity id revision).1 := by
  unfold RegistryState.clearAcpCwdIdentity
  split
  · exact refl s
  · next row hrow =>
    split
    · exact refl s
    · exact single (.stamp hrow rfl rfl rfl)

theorem refineNativeLaunchSource (s : RegistryState) (pane provider : String)
    (location : SessionLocation) :
    Writes crates allowed s (s.refineNativeLaunchSource crates pane provider location).1 := by
  unfold RegistryState.refineNativeLaunchSource
  split
  · exact refl s
  · split
    · exact refl s
    · next native hnative =>
      split
      · exact refl s
      · refine single (.native _ fun p => ?_)
        rw [Table.lookup_insert_eq]
        split_ifs with hp
        · rw [hp, hnative]
          exact .some ⟨rfl, .inl ⟨rfl, rfl⟩⟩
        · exact rel_refl _

theorem recordPaneConnectionFailure (s : RegistryState) (pane reason : String)
    (started : Option Bool) (now : ℕ) :
    Writes crates allowed s (s.recordPaneConnectionFailure crates pane reason started now).1 := by
  unfold RegistryState.recordPaneConnectionFailure RegistryState.reconcileNative
  simp only
  refine ((connections s _).trans (applyConnectionFailure _ _ _ _)).trans (adjustNative _ ?_)
  intro native
  refine ⟨?_, .inl ⟨?_, ?_⟩⟩ <;> (simp only; split <;> rfl)

theorem subset_foldl_insert (rows : List SessionInfo) (known : List String) :
    known ⊆ rows.foldl (fun known row => known.insert row.sessionId) known := by
  induction rows generalizing known with
  | nil => exact List.Subset.refl known
  | cons row rows ih =>
    exact List.Subset.trans (fun x hx => List.mem_insert_of_mem hx) (ih _)

theorem enrichNativeFromListing (ho : allowed.observes) (s : RegistryState) (provider : String)
    (location : SessionLocation) (rows : List SessionInfo) (previouslyListed : List String)
    (startedAtMs completedAtMs : ℕ) (listingComplete : Bool) :
    Writes crates allowed s (s.enrichNativeFromListing provider location rows previouslyListed
      startedAtMs completedAtMs listingComplete).1 := by
  unfold RegistryState.enrichNativeFromListing
  simp only
  split
  · exact refl s
  · split
    · exact single (.observe ho _ _ _ _ _ _ (subset_foldl_insert _ _))
    · split
      · exact single (.observe ho _ _ _ _ _ _ (subset_foldl_insert _ _))
      · split
        · exact single (.observe ho _ _ _ _ _ _ (subset_foldl_insert _ _))
        · exact single (.observe ho _ _ _ _ _ _ (subset_foldl_insert _ _))

end Writes

/-! ### Operations -/

namespace RegistryOp

/-- The operations that change native panes freely. -/
def Observes : RegistryOp → Prop
  | applyNativeObservation _ _ => True
  | enrichNativeFromListing _ _ _ _ _ _ _ => True
  | _ => False

/-- The operation replaces the owner of a native pane. -/
def Replaces (crates : Crates) (s : RegistryState) : RegistryOp → Prop
  | registerNativeBornBinding id pane _ modeEpoch predecessor _ =>
    s.replacesOwner crates id pane modeEpoch predecessor
  | _ => False

/-- The operation binds a pane that is not its own canonical form. -/
def BindsUnstable (crates : Crates) (s : RegistryState) : RegistryOp → Prop
  | assignResumePaneIdentity id pane _ =>
    crates.paneKey (crates.paneKey pane) ≠ crates.paneKey pane ∧
      s.bindsPane id (crates.paneKey pane)
  | _ => False

theorem writes (s : RegistryState) (op : RegistryOp)
    (hstable : ∀ p, crates.paneKey p = p → allowed.bindable p)
    (hunstable : op.BindsUnstable crates s → ∀ p, allowed.bindable p)
    (hreplaces : op.Replaces crates s → allowed.detaches)
    (hobserves : op.Observes → allowed.observes) :
    Writes crates allowed s (op.step crates s) := by
  cases op with
  | upsert info => exact Writes.upsert s info
  | upsertIfAbsent info =>
    change Writes crates allowed s (s.upsertIfAbsent crates info)
    unfold RegistryState.upsertIfAbsent
    split
    · exact Writes.refl s
    · exact Writes.upsert s info
  | remove sid =>
    change Writes crates allowed s (s.remove crates sid).1
    unfold RegistryState.remove
    split
    · exact Writes.refl s
    · exact Writes.remove s _
  | removeIf sid predicate =>
    change Writes crates allowed s (s.removeIf crates sid predicate).1
    unfold RegistryState.removeIf
    split
    · exact Writes.refl s
    · exact Writes.remove s _
  | removeIdentity id => exact Writes.remove s id
  | removeIdentityIf id predicate =>
    change Writes crates allowed s (s.removeIdentityIf crates id predicate).1
    unfold RegistryState.removeIdentityIf
    split
    · exact Writes.remove s id
    · exact Writes.refl s
  | setOrigin sid origin =>
    change Writes crates allowed s (s.setOrigin sid origin).1
    unfold RegistryState.setOrigin
    split
    · exact Writes.refl s
    · split
      · exact Writes.refl s
      · next entry hentry =>
        split
        · exact Writes.refl s
        · exact Writes.setRow hentry ⟨rfl, rfl, rfl, rfl⟩
  | setLocation sid location => exact Writes.setLocationLocked s sid location
  | applyEvent ev now => exact Writes.applyEventQualifiedAtMs hstable s ev none now now
  | applyBornBoundEvent ev location preserve now =>
    exact Writes.applyBornBoundEvent hstable s ev location preserve now
  | applyNativeObservation event now =>
    exact Writes.applyNativeObservationLocked hstable (hobserves trivial) s event now
  | applyNativeWatcherActivity cli key ev now =>
    exact Writes.applyNativeWatcherActivity hstable s cli key ev now
  | registerNativeBornBinding id pane cwd modeEpoch predecessor now =>
    exact Writes.registerNativeBornBindingLocked hstable s id pane cwd modeEpoch predecessor now
      hreplaces
  | recoverCopilotPrompt expected pane cwd now =>
    exact Writes.recoverCopilotPrompt hstable s expected pane cwd now
  | recordPaneConnected pane => exact Writes.connections s _
  | recordPaneConnectionFailure pane reason started now =>
    exact Writes.recordPaneConnectionFailure s pane reason started now
  | markResumeDispatched sid now =>
    change Writes crates allowed s (s.markResumeDispatched crates sid now).1
    unfold RegistryState.markResumeDispatched
    split
    · exact Writes.refl s
    · exact Writes.markResumeDispatched s _ now
  | markResumeDispatchedIdentity id now => exact Writes.markResumeDispatched s id now
  | assignResumePaneIdentity id pane now =>
    refine Writes.assignResumePaneIdentityLocked s id pane now now fun hbinds => ?_
    by_cases hpane : crates.paneKey (crates.paneKey pane) = crates.paneKey pane
    · exact hstable _ hpane
    · exact hunstable ⟨hpane, hbinds⟩ _
  | upgradeTitleIfSynthetic sid candidate =>
    change Writes crates allowed s (s.upgradeTitleIfSynthetic crates sid candidate).1
    unfold RegistryState.upgradeTitleIfSynthetic
    split
    · exact Writes.refl s
    · split
      · exact Writes.refl s
      · exact Writes.upgradeTitleIfSyntheticIdentity s _ candidate
  | upgradeTitleIfSyntheticIdentity id candidate =>
    exact Writes.upgradeTitleIfSyntheticIdentity s id candidate
  | adoptAgentTitle sid candidate =>
    change Writes crates allowed s (s.adoptAgentTitle sid candidate).1
    unfold RegistryState.adoptAgentTitle
    split
    · exact Writes.refl s
    · split
      · exact Writes.refl s
      · exact Writes.adoptAgentTitleIdentity s _ candidate
  | adoptAgentTitleIdentity id candidate => exact Writes.adoptAgentTitleIdentity s id candidate
  | adoptAcpCwdIdentity id revision agent cwd =>
    exact Writes.adoptAcpCwdIdentity s id revision agent cwd
  | clearAcpCwdIdentity id revision => exact Writes.clearAcpCwdIdentity s id revision
  | refineNativeLaunchSource pane provider location =>
    exact Writes.refineNativeLaunchSource s pane provider location
  | enrichNativeFromListing provider location rows listed started completed complete =>
    exact Writes.enrichNativeFromListing (hobserves trivial) s provider location rows listed
      started completed complete

end RegistryOp

end IntelligentTerminal.Sessions
