import IntelligentTerminal.Sessions.RegistryFrame

/-!
# The fence of epochs

A pane switches between native observation and hooks by `reset` observations, each with an epoch.
What was seen of the epochs of a pane is spread over three maps: the native panes, the epochs that
were retired, and the admissions of panes that hooks track. `Fence` is what they stand for: the
largest epoch of a reset that was accepted, and the epoch that the pane is in.

Source: `tools/wta/src/session_registry.rs`, lines 2044-2061, 3343-3450 and 3495-3640.
-/

namespace IntelligentTerminal.Sessions

variable {crates : Crates} {allowed : Allowed} {s t u : RegistryState}

/-- The epochs of a pane: the largest that was accepted, and the one that it is in. -/
structure Fence where
  largest : Option ℕ := none
  current : Option ℕ := none

/-- The epochs after an observation was accepted. -/
def Fence.accept (f : Fence) (event : NativeAgentObservation) : Fence :=
  match event.event with
  | .reset _ =>
    { largest := some ((f.largest.map (max · event.modeEpoch)).getD event.modeEpoch)
      current := some event.modeEpoch }
  | .removed => { f with current := none }
  | _ => f

/-- The epochs of a pane after one more operation. -/
def Fence.step (crates : Crates) (pane : Uuid) (s : RegistryState) (f : Fence) : RegistryOp → Fence
  | .applyNativeObservation event now =>
    if crates.parseStr event.paneId = some pane ∧
        (s.applyNativeObservationLocked crates event now).2 then f.accept event
    else f
  | _ => f

/-- The epochs of a pane after a run. -/
def fenceAt (crates : Crates) (pane : Uuid) : RegistryState → Fence → List RegistryOp → Fence
  | _, f, [] => f
  | s, f, op :: ops => fenceAt crates pane (op.step crates s) (f.step crates pane s op) ops

/-! ### Operations that keep the epochs -/

/-- The native panes have the same epochs, and the other maps are the same. -/
structure SameEpochs (s t : RegistryState) : Prop where
  native : ∀ p, (t.nativePanes.lookup p).map (·.observation.modeEpoch) =
    (s.nativePanes.lookup p).map (·.observation.modeEpoch)
  retired : t.nativeRetiredEpochs = s.nativeRetiredEpochs
  hook : t.hookPaneProgress = s.hookPaneProgress

namespace SameEpochs

theorem of_eq (hn : t.nativePanes = s.nativePanes)
    (hr : t.nativeRetiredEpochs = s.nativeRetiredEpochs)
    (hh : t.hookPaneProgress = s.hookPaneProgress) : SameEpochs s t :=
  ⟨fun p => by rw [hn], hr, hh⟩

theorem refl (s : RegistryState) : SameEpochs s s := of_eq rfl rfl rfl

theorem trans (h : SameEpochs s t) (h' : SameEpochs t u) : SameEpochs s u :=
  ⟨fun p => (h'.native p).trans (h.native p), h'.retired.trans h.retired, h'.hook.trans h.hook⟩

theorem of_write (ho : ¬allowed.observes) (hw : Write crates allowed s t) : SameEpochs s t := by
  cases hw with
  | aside => exact of_eq rfl rfl rfl
  | edit => exact of_eq rfl rfl rfl
  | stamp => exact of_eq rfl rfl rfl
  | release => rw [releasePane_eq]; exact of_eq rfl rfl rfl
  | vacate => exact of_eq rfl rfl rfl
  | detach => exact of_eq rfl rfl rfl
  | evict => exact of_eq rfl rfl rfl
  | bind => rw [dropOldPane_eq]; exact of_eq rfl rfl rfl
  | remove id =>
    cases hrow : s.sessions.lookup id with
    | none =>
      simp only [RegistryState.removeIdentityLocked, hrow]
      exact refl s
    | some row =>
      rw [removeIdentityLocked_eq hrow]
      exact of_eq rfl rfl rfl
  | upsert info => rw [upsertLocked_eq]; exact of_eq rfl rfl rfl
  | native panes hpanes =>
    refine ⟨fun p => ?_, rfl, rfl⟩
    have hp := hpanes p
    revert hp
    change Option.Rel _ _ _ → (panes.lookup p).map _ = _
    generalize panes.lookup p = after
    generalize s.nativePanes.lookup p = before
    intro hp
    cases hp with
    | none => rfl
    | some hkeeps => rw [Option.map_some, Option.map_some, hkeeps.epoch]
  | observe hobserves => exact absurd hobserves ho

theorem of_writes (ho : ¬allowed.observes) (hw : Writes crates allowed s t) : SameEpochs s t := by
  induction hw with
  | refl => exact refl s
  | tail _ hlast ih => exact ih.trans (of_write ho hlast)

theorem foldl_adjust {α : Type*} (l : List α) (key : α → String)
    (f : α → NativePaneState → NativePaneState)
    (hf : ∀ a native, (f a native).observation.modeEpoch = native.observation.modeEpoch)
    (panes : Table String NativePaneState) (p : String) :
    ((l.foldl (fun native a => native.adjust (key a) (f a)) panes).lookup p).map
      (·.observation.modeEpoch) = (panes.lookup p).map (·.observation.modeEpoch) := by
  induction l generalizing panes with
  | nil => rfl
  | cons a l ih =>
    rw [List.foldl_cons, ih, Table.lookup_adjust]
    split_ifs with hp
    · rw [hp, Option.map_map]
      congr 1
      funext native
      exact hf a native
    · rfl

theorem blockPanes (s : RegistryState) (panes : List RegistryState.PendingPane) :
    SameEpochs s (s.blockPanes panes) :=
  ⟨fun p => foldl_adjust panes (·.2.2) (fun _ native => { native with inferenceBlocked := true })
    (fun _ _ => rfl) s.nativePanes p, rfl, rfl⟩

theorem inferPanes (s : RegistryState) (panes : List RegistryState.PendingPane)
    (candidates : List (ℕ × HistoryRowKey)) : SameEpochs s (s.inferPanes panes candidates) :=
  ⟨fun p => foldl_adjust (panes.zip candidates) (·.1.2.2)
    (fun q native =>
      { native with
        observation :=
          { native.observation with
            inferredAgentSessionId := some q.2.2.sessionId, inferredHistoryKey := some q.2.2 } })
    (fun _ _ => rfl) s.nativePanes p, rfl, rfl⟩

theorem enrichNativeFromListing (s : RegistryState) (provider : String)
    (location : SessionLocation) (rows : List SessionInfo) (listed : List String)
    (started completed : ℕ) (complete : Bool) :
    SameEpochs s (s.enrichNativeFromListing provider location rows listed started completed
      complete).1 := by
  unfold RegistryState.enrichNativeFromListing
  simp only
  split
  · exact refl s
  · split
    · exact of_eq rfl rfl rfl
    · split
      · refine trans (of_eq ?_ ?_ ?_) (blockPanes _ _) <;> rfl
      · split
        · exact of_eq rfl rfl rfl
        · refine trans (of_eq ?_ ?_ ?_) (inferPanes _ _ _) <;> rfl

end SameEpochs

/-! ### What the maps stand for -/

/-- The three maps stand for the epochs of the pane with the given id and text. -/
structure Fenced (pane : Uuid) (p : String) (s : RegistryState) (f : Fence) : Prop where
  native : ∀ epoch, (s.nativePanes.lookup p).map (·.observation.modeEpoch) = some epoch →
    f.current = some epoch ∧ f.largest = some epoch ∧ s.hookPaneProgress.lookup p = none
  hook : ∀ admission, s.hookPaneProgress.lookup p = some admission →
    f.current = some admission.modeEpoch
  largest : ∀ epoch, f.largest = some epoch →
    (s.nativePanes.lookup p).map (·.observation.modeEpoch) = some epoch ∨
      ∃ retired, s.nativeRetiredEpochs.lookup pane = some retired ∧ epoch ≤ retired

namespace Fenced

variable {pane : Uuid} {p : String} {f : Fence} {event : NativeAgentObservation} {provider : String}
  {native : NativePaneState} {pane' : Uuid} {p' : String}

theorem empty : Fenced pane p {} {} := by
  refine ⟨fun epoch h => ?_, fun admission h => ?_, fun epoch h => absurd h (by simp)⟩
  · rw [AList.lookup_empty] at h
    exact absurd h (by simp)
  · rw [AList.lookup_empty] at h
    exact absurd h (by simp)

theorem of_same (h : Fenced pane p s f) (hs : SameEpochs s t) : Fenced pane p t f := by
  refine ⟨?_, ?_, ?_⟩
  · rw [hs.native, hs.hook]
    exact h.native
  · rw [hs.hook]
    exact h.hook
  · rw [hs.native, hs.retired]
    exact h.largest

theorem lt_of_admits (h : Fenced pane p s f)
    (hreset : RegistryState.isReset event) (hadmits : s.admits pane p provider event) (epoch : ℕ)
    (hepoch : f.largest = some epoch) : epoch < event.modeEpoch := by
  unfold RegistryState.admits at hadmits
  simp only [hreset, if_true, Bool.and_eq_true, Bool.not_eq_true'] at hadmits
  obtain ⟨hnative, hretired⟩ := hadmits
  rcases h.largest epoch hepoch with hold | ⟨retired, hold, hle⟩
  · obtain ⟨native, hlookup, rfl⟩ := Option.map_eq_some_iff.mp hold
    rw [hlookup, Option.any_some] at hnative
    simpa using hnative
  · rw [hold, Option.any_some] at hretired
    have : ¬event.modeEpoch ≤ retired := by simpa using hretired
    omega

theorem current_of_admits (h : Fenced pane p s f) (hreset : RegistryState.isReset event = false)
    (hadmits : s.admits pane p provider event) :
    f.current = some event.modeEpoch ∧ f.largest = some event.modeEpoch := by
  unfold RegistryState.admits at hadmits
  simp only [hreset, Bool.false_eq_true, if_false, Option.any_eq_true, decide_eq_true_eq] at hadmits
  obtain ⟨native, hlookup, hepoch, _⟩ := hadmits
  have := h.native event.modeEpoch (by rw [hlookup, Option.map_some, hepoch])
  exact ⟨this.1, this.2.1⟩

theorem commit_active
    (hepoch : native.observation.modeEpoch = event.modeEpoch) (hf : f.current = some event.modeEpoch)
    (hl : f.largest = some event.modeEpoch) :
    Fenced pane p (s.commitNative pane p event true native) f := by
  have hnative : ((s.commitNative pane p event true native).nativePanes.lookup p).map
      (·.observation.modeEpoch) = some event.modeEpoch := by
    simp only [RegistryState.commitNative, if_true, Table.lookup_insert_eq, Option.map_some, hepoch]
  have hhook : (s.commitNative pane p event true native).hookPaneProgress.lookup p = none := by
    simp only [RegistryState.commitNative, if_true, Table.lookup_erase_eq]
  refine ⟨fun epoch h => ?_, fun admission h => ?_, fun epoch h => ?_⟩
  · rw [hnative] at h
    rw [← h]
    exact ⟨hf, hl, hhook⟩
  · rw [hhook] at h
    exact absurd h (by simp)
  · rw [hl] at h
    rw [← h]
    exact .inl hnative

theorem commit_retired
    (hepoch : native.observation.modeEpoch = event.modeEpoch)
    (hf : event.event = .reset true → f.current = some event.modeEpoch)
    (hl : f.largest = some event.modeEpoch) :
    Fenced pane p (s.commitNative pane p event false native) f := by
  refine ⟨fun epoch h => ?_, fun admission h => ?_, fun epoch h => .inr ?_⟩
  · simp only [RegistryState.commitNative, Bool.false_eq_true, if_false, Table.lookup_erase_eq] at h
    exact absurd h (by simp)
  · simp only [RegistryState.commitNative, Bool.false_eq_true, if_false] at h
    split_ifs at h with hreset
    · rw [Table.lookup_insert_eq, if_pos rfl] at h
      rw [← Option.some.inj h]
      exact hf hreset
    · rw [Table.lookup_erase_eq, if_pos rfl] at h
      exact absurd h (by simp)
  · rw [hl] at h
    obtain rfl := Option.some.inj h
    refine ⟨((s.nativeRetiredEpochs.lookup pane).map (max · event.modeEpoch)).getD event.modeEpoch,
      ?_, ?_⟩
    · simp only [RegistryState.commitNative, Bool.false_eq_true, if_false, Table.lookup_insert_eq,
        if_true, hepoch]
    · cases s.nativeRetiredEpochs.lookup pane with
      | none => exact le_rfl
      | some retired => exact le_max_right _ _

theorem active_of_progress {state : ℕ} {status : AgentStatus} {active removed : Bool}
    (h : RegistryState.observedStatus (.progress state) = some (status, active, removed)) :
    active = true := by
  unfold RegistryState.observedStatus at h
  split at h <;> simp_all

theorem observeNative (h : Fenced pane p s f) (hp : crates.paneKey p = p)
    (hadmits : s.admits pane p provider event) (now : ℕ) :
    s.observeNative crates pane p provider event now = (s, false) ∨
      ((s.observeNative crates pane p provider event now).2 = true ∧
        Fenced pane p (s.observeNative crates pane p provider event now).1 (f.accept event)) := by
  rcases observeNative_cases crates ⟨fun _ => True, False, False⟩ (fun _ _ => trivial) s pane p
    provider event now hp with
    heq | ⟨t, native, status, active, removed, hstatus, hw, hepoch, _, heq⟩
  · exact .inl heq
  · rw [heq]
    refine .inr ⟨rfl, ?_⟩
    cases hev : event.event with
    | reset tracking =>
      have hreset : RegistryState.isReset event = true := by rw [RegistryState.isReset, hev]
      have hcurrent : (f.accept event).current = some event.modeEpoch := by rw [Fence.accept, hev]
      have hlargest : (f.accept event).largest = some event.modeEpoch := by
        simp only [Fence.accept, hev]
        cases hl : f.largest with
        | none => rfl
        | some epoch =>
          rw [Option.map_some, Option.getD_some, max_eq_right (h.lt_of_admits hreset hadmits _ hl).le]
      rw [hev, RegistryState.observedStatus] at hstatus
      cases hstatus
      cases tracking with
      | false => exact commit_active hepoch hcurrent hlargest
      | true => exact commit_retired hepoch (fun _ => hcurrent) hlargest
    | progress state =>
      have hreset : RegistryState.isReset event = false := by rw [RegistryState.isReset, hev]
      obtain ⟨hcurrent, hlargest⟩ := h.current_of_admits hreset hadmits
      have hactive : active = true := by
        rw [hev] at hstatus
        exact active_of_progress hstatus
      rw [hactive, Fence.accept, hev]
      exact commit_active hepoch hcurrent hlargest
    | bell =>
      have hreset : RegistryState.isReset event = false := by rw [RegistryState.isReset, hev]
      obtain ⟨hcurrent, hlargest⟩ := h.current_of_admits hreset hadmits
      rw [hev, RegistryState.observedStatus] at hstatus
      cases hstatus
      rw [Fence.accept, hev]
      exact commit_active hepoch hcurrent hlargest
    | removed =>
      have hreset : RegistryState.isReset event = false := by rw [RegistryState.isReset, hev]
      obtain ⟨_, hlargest⟩ := h.current_of_admits hreset hadmits
      rw [hev, RegistryState.observedStatus] at hstatus
      cases hstatus
      rw [Fence.accept, hev]
      exact commit_retired hepoch (fun heq => by rw [hev] at heq; cases heq) hlargest

theorem applyHookProgress (h : Fenced pane p s f)
    {admission event : NativeAgentObservation}
    (hlookup : s.hookPaneProgress.lookup p = some admission)
    (hreset : RegistryState.isReset event = false) :
    s.applyHookProgress p provider admission event = (s, false) ∨
      (f.current = some event.modeEpoch ∧
        ((s.applyHookProgress p provider admission event).2 = true →
          Fenced pane p (s.applyHookProgress p provider admission event).1 (f.accept event)) ∧
        ((s.applyHookProgress p provider admission event).2 = false →
          Fenced pane p (s.applyHookProgress p provider admission event).1 f)) := by
  unfold RegistryState.applyHookProgress
  split
  · exact .inl rfl
  · next hsame =>
    simp only [not_or, not_not] at hsame
    have hcurrent : f.current = some event.modeEpoch := by
      rw [h.hook admission hlookup, hsame.1]
    have hnative : ∀ epoch, (s.nativePanes.lookup p).map (·.observation.modeEpoch) ≠ some epoch := by
      intro epoch hepoch
      rw [(h.native epoch hepoch).2.2] at hlookup
      exact absurd hlookup (by simp)
    cases hev : event.event with
    | reset tracking =>
      rw [RegistryState.isReset, hev] at hreset
      exact absurd hreset (by simp)
    | bell => exact .inl rfl
    | progress state =>
      simp only
      split_ifs
      · have hkeeps : Fenced pane p
            { s with
              hookPaneProgress := s.hookPaneProgress.insert p
                { admission with currentProgressState := some state } } f := by
          refine ⟨fun epoch hepoch => absurd hepoch (hnative epoch), fun admission' h' => ?_,
            h.largest⟩
          rw [Table.lookup_insert_eq, if_pos rfl] at h'
          rw [← Option.some.inj h']
          exact h.hook admission hlookup
        refine .inr ⟨hcurrent, fun _ => ?_, fun _ => hkeeps⟩
        rw [Fence.accept, hev]
        exact hkeeps
      · exact .inl rfl
    | removed =>
      refine .inr ⟨hcurrent, fun _ => ?_, fun hfalse => absurd hfalse (by simp)⟩
      rw [Fence.accept, hev]
      refine ⟨fun epoch hepoch => absurd hepoch (hnative epoch), fun admission' h' => ?_, h.largest⟩
      rw [Table.lookup_erase_eq, if_pos rfl] at h'
      exact absurd h' (by simp)

/-! ### Other panes -/

theorem of_lookup (h : Fenced pane p s f) (hn : t.nativePanes.lookup p = s.nativePanes.lookup p)
    (hr : t.nativeRetiredEpochs.lookup pane = s.nativeRetiredEpochs.lookup pane)
    (hh : t.hookPaneProgress.lookup p = s.hookPaneProgress.lookup p) : Fenced pane p t f := by
  refine ⟨?_, ?_, ?_⟩
  · rw [hn, hh]
    exact h.native
  · rw [hh]
    exact h.hook
  · rw [hn, hr]
    exact h.largest

theorem commit_ne (h : Fenced pane p s f) (hpane : pane ≠ pane')
    (hp : p ≠ p') (event : NativeAgentObservation) (active : Bool) (native : NativePaneState) :
    Fenced pane p (s.commitNative pane' p' event active native) f := by
  unfold RegistryState.commitNative
  split
  · refine h.of_lookup ?_ ?_ ?_
    · exact (Table.lookup_insert_eq _ _ _ _).trans (if_neg hp)
    · exact (Table.lookup_erase_eq _ _ _).trans (if_neg hpane)
    · exact (Table.lookup_erase_eq _ _ _).trans (if_neg hp)
  · refine h.of_lookup ?_ ?_ ?_
    · exact (Table.lookup_erase_eq _ _ _).trans (if_neg hp)
    · exact (Table.lookup_insert_eq _ _ _ _).trans (if_neg hpane)
    · simp only
      split
      · rw [Table.lookup_insert_eq, if_neg hp, Table.lookup_erase_eq, if_neg hp]
      · rw [Table.lookup_erase_eq, if_neg hp]

theorem applyHookProgress_ne (h : Fenced pane p s f) (hp : p ≠ p')
    (provider : String) (admission event : NativeAgentObservation) :
    Fenced pane p (s.applyHookProgress p' provider admission event).1 f := by
  unfold RegistryState.applyHookProgress
  split
  · exact h
  · split
    · split
      · exact h.of_lookup rfl rfl ((Table.lookup_insert_eq _ _ _ _).trans (if_neg hp))
      · exact h
    · exact h.of_lookup rfl rfl ((Table.lookup_erase_eq _ _ _).trans (if_neg hp))
    · exact h

/-! ### Observations -/

/-- An observation passes the fence: a reset is newer than all that were accepted, and anything else
is of the epoch that the pane is in. -/
def Passes (f : Fence) (event : NativeAgentObservation) : Prop :=
  match event.event with
  | .reset _ => ∀ epoch, f.largest = some epoch → epoch < event.modeEpoch
  | _ => f.current = some event.modeEpoch

theorem passes_of_reset (hreset : RegistryState.isReset event)
    (h : ∀ epoch, f.largest = some epoch → epoch < event.modeEpoch) : Passes f event := by
  unfold Passes
  split
  · exact h
  · next hne =>
    unfold RegistryState.isReset at hreset
    split at hreset
    · next heq => exact absurd heq (hne _)
    · exact absurd hreset (by simp)

theorem passes_of_current
    (hreset : RegistryState.isReset event = false) (h : f.current = some event.modeEpoch) :
    Passes f event := by
  unfold Passes
  split
  · next heq =>
    rw [RegistryState.isReset, heq] at hreset
    exact absurd hreset (by simp)
  · exact h

theorem observation (hp : crates.paneKey (crates.hyphenated pane) = crates.hyphenated pane)
    (h : Fenced pane (crates.hyphenated pane) s f)
    (hparse : crates.parseStr event.paneId = some pane) (now : ℕ) :
    s.applyNativeObservationLocked crates event now = (s, false) ∨
      (Passes f event ∧
        Fenced pane (crates.hyphenated pane) (s.applyNativeObservationLocked crates event now).1
          (if (s.applyNativeObservationLocked crates event now).2 then f.accept event else f)) := by
  unfold RegistryState.applyNativeObservationLocked
  simp only [hparse]
  split
  · exact .inl rfl
  · split
    · next admission hadmission =>
      have hreset : RegistryState.isReset event = false := by
        by_contra hreset
        rw [if_pos (by simpa using hreset)] at hadmission
        exact absurd hadmission (by simp)
      rw [if_neg (by simp [hreset])] at hadmission
      rcases h.applyHookProgress hadmission hreset with heq | ⟨hcurrent, htrue, hfalse⟩
      · exact .inl heq
      · refine .inr ⟨passes_of_current hreset hcurrent, ?_⟩
        split_ifs with hresult
        · exact htrue hresult
        · exact hfalse (by simpa using hresult)
    · split
      · next hadmits =>
        rcases h.observeNative hp hadmits now with heq | ⟨htrue, hfenced⟩
        · exact .inl heq
        · refine .inr ⟨?_, ?_⟩
          · by_cases hreset : RegistryState.isReset event
            · exact passes_of_reset hreset (h.lt_of_admits hreset hadmits)
            · have hreset' : RegistryState.isReset event = false := by simpa using hreset
              exact passes_of_current hreset' (h.current_of_admits hreset' hadmits).1
          · rw [if_pos htrue]
            exact hfenced
      · exact .inl rfl

theorem observation_ne (h : Fenced pane p s f)
    (hparse : crates.parseStr event.paneId = some pane') (hpane : pane ≠ pane')
    (hp : p ≠ crates.hyphenated pane') (now : ℕ) :
    Fenced pane p (s.applyNativeObservationLocked crates event now).1 f := by
  unfold RegistryState.applyNativeObservationLocked
  simp only [hparse]
  split
  · exact h
  · split
    · exact h.applyHookProgress_ne hp _ _ event
    · split
      · rcases observeNative_cases crates ⟨fun _ => True, False, False⟩ (fun _ _ => trivial) s
          pane' (crates.hyphenated pane') (toAsciiLowercase (trim event.providerId)) event now
          (Crates.paneKey_hyphenated hparse) with heq | ⟨t, native, _, active, _, _, hw, _, _, heq⟩
        · rw [heq]
          exact h
        · rw [heq]
          exact (h.of_same (SameEpochs.of_writes not_false hw)).commit_ne hpane hp _ _ _
      · exact h

end Fenced

/-! ### Runs -/

variable {pane : Uuid} {f : Fence} {text : String}

theorem hyphenated_inj {text text' : String} {pane pane' : Uuid}
    (h : crates.parseStr text = some pane) (h' : crates.parseStr text' = some pane')
    (heq : crates.hyphenated pane = crates.hyphenated pane') : pane = pane' := by
  have hpane := crates.parseStr_hyphenated text pane h
  rw [heq, crates.parseStr_hyphenated text' pane' h'] at hpane
  exact (Option.some.inj hpane).symm

theorem Fenced.step (hpane : crates.parseStr text = some pane)
    (h : Fenced pane (crates.hyphenated pane) s f) (op : RegistryOp) :
    Fenced pane (crates.hyphenated pane) (op.step crates s) (f.step crates pane s op) := by
  by_cases hobserves : op.Observes
  · cases op with
    | applyNativeObservation event now =>
      change Fenced pane _ (s.applyNativeObservationLocked crates event now).1
        (if crates.parseStr event.paneId = some pane ∧
          (s.applyNativeObservationLocked crates event now).2 then f.accept event else f)
      by_cases hparse : crates.parseStr event.paneId = some pane
      · rcases h.observation (Crates.paneKey_hyphenated hpane) hparse now with heq | ⟨_, hfenced⟩
        · rw [heq, if_neg (fun hand => absurd hand.2 (by simp))]
          exact h
        · simpa only [hparse, true_and] using hfenced
      · rw [if_neg fun hand => hparse hand.1]
        cases hother : crates.parseStr event.paneId with
        | none =>
          unfold RegistryState.applyNativeObservationLocked
          simp only [hother]
          exact h
        | some pane' =>
          have hne : pane ≠ pane' := by
            rintro rfl
            exact hparse hother
          exact h.observation_ne hother hne
            (fun heq => hne (hyphenated_inj hpane hother heq)) now
    | enrichNativeFromListing =>
      exact h.of_same (SameEpochs.enrichNativeFromListing _ _ _ _ _ _ _ _)
    | _ => exact hobserves.elim
  · let allowed : Allowed := ⟨fun _ => True, True, False⟩
    have hw : Writes crates allowed s (op.step crates s) := by
      refine op.writes s ?_ ?_ ?_ hobserves
      · exact fun _ _ => trivial
      · exact fun _ _ => trivial
      · exact fun _ => trivial
    have hf : f.step crates pane s op = f := by
      cases op with
      | applyNativeObservation => exact absurd trivial hobserves
      | _ => rfl
    rw [hf]
    exact h.of_same (SameEpochs.of_writes not_false hw)

theorem Fenced.run (hpane : crates.parseStr text = some pane)
    (h : Fenced pane (crates.hyphenated pane) s f) (ops : List RegistryOp) :
    Fenced pane (crates.hyphenated pane) (ops.foldl (RegistryOp.step crates) s)
      (fenceAt crates pane s f ops) := by
  induction ops generalizing s f with
  | nil => exact h
  | cons op ops ih => exact ih (h.step hpane op)

/-- An observation that has any effect passes the fence of the epochs that were accepted for its
pane: a reset is newer than all resets that were accepted, and anything else is of the epoch of the
last one, unless the pane was removed since. So an observation of a retired epoch changes nothing,
in whatever order the observations come. -/
theorem observation_epoch_fence (crates : Crates) (ops : List RegistryOp) (pane : Uuid)
    (event : NativeAgentObservation) (now : ℕ) (hpane : crates.parseStr event.paneId = some pane) :
    let s := reached crates ops
    let f := fenceAt crates pane {} {} ops
    let result := s.applyNativeObservationLocked crates event now
    (result.2 = true ∨ result.1 ≠ s → Fenced.Passes f event) ∧
      (f.current ≠ some event.modeEpoch →
        (∃ epoch, f.largest = some epoch ∧ event.modeEpoch ≤ epoch) → result = (s, false)) := by
  intro s f result
  have hfenced : Fenced pane (crates.hyphenated pane) s f := Fenced.empty.run hpane ops
  have hcases := hfenced.observation (Crates.paneKey_hyphenated hpane) hpane now
  refine ⟨fun heffect => ?_, fun hcurrent hretired => ?_⟩
  · rcases hcases with heq | ⟨hpasses, _⟩
    · simp only [result, heq] at heffect
      exact absurd heffect (by simp)
    · exact hpasses
  · rcases hcases with heq | ⟨hpasses, _⟩
    · exact heq
    · obtain ⟨epoch, hlargest, hle⟩ := hretired
      unfold Fenced.Passes at hpasses
      split at hpasses
      · exact absurd (hpasses epoch hlargest) (by omega)
      · exact absurd hpasses hcurrent

/-- An observation of a pane of Copilot. -/
def copilotObservation (epoch : ℕ) (event : NativeObservationKind) : NativeAgentObservation :=
  { paneId := "67e55044-10b1-426f-9247-bb680e5fe0c8", providerId := "copilot", windowId := 1
    tabId := "t", modeEpoch := epoch, location := some .host, event }

/-- A reset that comes again after the pane went over to hooks is refused. -/
theorem observation_epoch_fence_replayed :
    let ops := [RegistryOp.applyNativeObservation (copilotObservation 2 (.reset false)) 0,
      .applyNativeObservation (copilotObservation 3 (.reset true)) 1]
    Crates.ofUuid.parseStr (copilotObservation 2 (.reset false)).paneId =
        some 0x67e5504410b1426f9247bb680e5fe0c8 ∧
      (reached Crates.ofUuid ops).applyNativeObservationLocked Crates.ofUuid
        (copilotObservation 2 (.reset false)) 2 = (reached Crates.ofUuid ops, false) := by
  intro ops
  have hparse : Crates.ofUuid.parseStr (copilotObservation 2 (.reset false)).paneId =
      some 0x67e5504410b1426f9247bb680e5fe0c8 := by decide +kernel
  refine ⟨hparse, (observation_epoch_fence Crates.ofUuid ops _ _ 2 hparse).2 ?_ ⟨3, ?_, ?_⟩⟩
  · decide +kernel
  · decide +kernel
  · decide

end IntelligentTerminal.Sessions
