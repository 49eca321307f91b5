import IntelligentTerminal.Turns.TurnGate

/-!
# Runs of turns

Every call moves the gate of every tab, apart from a submission to the tab. So what holds of gates
holds of the turns of an app: the token that is kept for a tab is that of the prompt that holds its
turn, a cancelled prompt holds it until it is settled, and a prompt adds at most one completed turn.
-/

namespace IntelligentTerminal.Turns

open Proposals (RecommendationSet RecommendationChoice ProposalError ProposalWire)

/-- Whether a call settles a cancelled prompt of a tab: it is told to, the transport is gone, or the
session ends that the prompt is bound to. -/
def TurnOp.Releases (app : App) (key : String) (id : ℕ) : TurnOp → Prop
  | settleCancellation _ promptId _ => promptId = id
  | settleRetired => True
  | closeTerminalEvent _ sessionId => (app.tabAt key).activePromptMatchesSession id sessionId
  | _ => False

/-- Whether a call submits a prompt to a tab. -/
def TurnOp.SubmitsTo (key : String) : TurnOp → Prop
  | submit key' _ _ => key' = key
  | _ => False

namespace App

/-- The gate of a tab. -/
def gate (app : App) (key : String) : Gate := (app.tabAt key).gate app.cancelledTokens

/-- The gate of a tab moves, from one app to another. -/
def MovesTo (key : String) (released : ℕ → Prop) (app app' : App) : Prop :=
  (app.tabAt key).Regular →
    (app'.tabAt key).Regular ∧ Gate.Moves released (app.gate key) (app'.gate key)

variable {app app' app'' : App} {key k : String} {released : ℕ → Prop}
  {f : TabSession → TabSession} {tab : TabSession} {userCancelled : Bool}

theorem tabAt_tabMut (app : App) (key k : String) (f : TabSession → TabSession) :
    (app.tabMut k f).tabAt key = if key = k then f (app.tabAt k) else app.tabAt key := by
  simp only [tabAt, tabMut, Table.lookup_insert_eq]
  split_ifs <;> rfl

theorem tabAt_of_lookup (h : app.tabSessions.lookup key = some tab) :
    app.tabAt key = tab := by
  rw [tabAt, h]
  rfl

theorem teardownTurnForTab_of_cancelling {id : ℕ}
    (hlookup : app.tabSessions.lookup k = some tab) (hturn : tab.turn = .cancelling id) :
    app.teardownTurnForTab k userCancelled = app.cancelToken (tab.cancelActivePrompt id) := by
  simp only [teardownTurnForTab, hlookup, hturn]

theorem teardownTurnForTab_of_not_cancelling
    (hlookup : app.tabSessions.lookup k = some tab) (hnot : tab.turn.isCancelling = false) :
    app.teardownTurnForTab k userCancelled =
      (app.cancelToken tab.reachedToken).tabMut k fun tab =>
        tab.teardown app.texts userCancelled := by
  rw [teardownTurnForTab, hlookup]
  cases hturn : tab.turn with
  | cancelling =>
    rw [hturn] at hnot
    cases hnot
  | idle => simp only [hturn, TabSession.reachedToken]
  | submitted => simp only [hturn, TabSession.reachedToken]
  | streaming => simp only [hturn, TabSession.reachedToken]
  | surfaced => simp only [hturn, TabSession.reachedToken]

namespace MovesTo

theorem of_eq (htab : app'.tabAt key = app.tabAt key)
    (hsubset : app.cancelledTokens ⊆ app'.cancelledTokens) : MovesTo key released app app' := by
  intro h
  rw [gate, gate, htab]
  exact ⟨h, .single (.keep _ hsubset)⟩

theorem refl (app : App) : MovesTo key released app app :=
  of_eq rfl (List.Subset.refl _)

theorem trans (h : MovesTo key released app app') (h' : MovesTo key released app' app'') :
    MovesTo key released app app'' := by
  intro hregular
  obtain ⟨hregular', hmoves⟩ := h hregular
  obtain ⟨hregular'', hmoves'⟩ := h' hregular'
  exact ⟨hregular'', hmoves.trans hmoves'⟩

theorem tabMut (h : k = key → (app.tabAt k).Regular →
    (app.tabAt k).MovesTo released (f (app.tabAt k))) :
    MovesTo key released app (app.tabMut k f) := by
  intro hregular
  by_cases hk : key = k
  · subst hk
    obtain ⟨hregular', hmove⟩ := h rfl hregular
    rw [gate, gate, tabAt_tabMut, if_pos rfl]
    exact ⟨hregular', .single (hmove _)⟩
  · exact of_eq (by rw [tabAt_tabMut, if_neg hk]) (List.Subset.refl _) hregular

theorem tabMut_of_sameTurn (h : (app.tabAt k).SameTurn (f (app.tabAt k))) :
    MovesTo key released app (app.tabMut k f) :=
  tabMut fun _ hregular => TabSession.movesTo_of_sameTurn hregular h

theorem cancelToken (app : App) (token : Option ℕ) :
    MovesTo key released app (app.cancelToken token) :=
  of_eq rfl (List.subset_append_right _ _)

theorem teardownTurnForTab (app : App) (k : String) (userCancelled : Bool) :
    MovesTo key released app (app.teardownTurnForTab k userCancelled) := by
  cases hlookup : app.tabSessions.lookup k with
  | none =>
    rw [App.teardownTurnForTab, hlookup]
    exact refl app
  | some tab =>
    by_cases hcancelling : ∃ id, tab.turn = .cancelling id
    · obtain ⟨id, hturn⟩ := hcancelling
      rw [teardownTurnForTab_of_cancelling hlookup hturn]
      exact cancelToken app _
    · have hnot : tab.turn.isCancelling = false := by
        cases hturn : tab.turn with
        | cancelling id => exact absurd ⟨id, hturn⟩ hcancelling
        | idle => rfl
        | submitted => rfl
        | streaming => rfl
        | surfaced => rfl
      have htab := tabAt_of_lookup hlookup
      rw [teardownTurnForTab_of_not_cancelling hlookup hnot]
      intro hregular
      by_cases hk : key = k
      · subst hk
        rw [htab] at hregular
        obtain ⟨hregular', hmove⟩ :=
          TabSession.move_teardown released hregular hnot app.texts userCancelled
        have hafter : ((app.cancelToken tab.reachedToken).tabMut key fun tab =>
            tab.teardown app.texts userCancelled).tabAt key =
              tab.teardown app.texts userCancelled := by
          rw [tabAt_tabMut, if_pos rfl]
          exact congrArg (·.teardown app.texts userCancelled) htab
        rw [gate, gate, hafter, htab]
        exact ⟨hregular', .single (hmove _)⟩
      · refine (cancelToken app tab.reachedToken).trans (of_eq ?_ (List.Subset.refl _)) hregular
        rw [tabAt_tabMut, if_neg hk]

/-! ### The calls -/

theorem turnObserveChunk (app : App) (order : List String) (sessionId : String) (kind : ChunkKind)
    (text : String) :
    MovesTo key released app (app.turnObserveChunk order sessionId kind text).1 := by
  unfold App.turnObserveChunk
  cases app.currentTabForSession order sessionId with
  | none => exact refl app
  | some k =>
    cases hlookup : app.tabSessions.lookup k with
    | none =>
      simp only [hlookup]
      exact refl app
    | some tab =>
      simp only [hlookup]
      refine tabMut fun _ hregular => ?_
      rw [tabAt_of_lookup hlookup] at hregular ⊢
      exact TabSession.movesTo_observeChunk hregular kind text

theorem validateAndStage (app : App) (sessionId : String) (promptId : ℕ)
    (activeTarget : Option String) (decode : Bool → Except ProposalError ProposalWire)
    (proposalId : String) :
    MovesTo key released app (app.validateAndStageTerminalActionProposal sessionId promptId
      activeTarget decode proposalId).1 := by
  unfold App.validateAndStageTerminalActionProposal
  simp only
  repeat' split
  all_goals first
    | exact refl app
    | exact tabMut_of_sameTurn ⟨rfl, rfl, rfl⟩

theorem surfaceProposal (app : App) (pending : PendingTerminalActionProposal) :
    MovesTo key released app (app.surfaceProposal pending).1 := by
  have hsurface : ∀ prompt : SubmittedPrompt,
      ((app.sessionTab pending.sessionId).map TabSession.turn = some (.submitted prompt) ∨
        (app.sessionTab pending.sessionId).map TabSession.turn = some (.streaming prompt)) →
      MovesTo key released app (app.tabMut (app.tabForSession pending.sessionId) fun tab =>
        let tab := if pending.isAutofix ∧ !tab.turn.isAutofix then tab
          else tab.surfaceRecommendation pending.recommendations
        { tab with activeDirectProposalId := some pending.proposalId }) := by
    intro prompt hturn
    refine tabMut fun _ hregular => ?_
    simp only
    split
    · exact TabSession.movesTo_of_sameTurn hregular ⟨rfl, rfl, rfl⟩
    · have hmoves : (app.tabAt (app.tabForSession pending.sessionId)).MovesTo released
          ((app.tabAt (app.tabForSession pending.sessionId)).surfaceRecommendation
            pending.recommendations) := by
        refine TabSession.movesTo_surfaceRecommendation hregular _ ?_
        cases hlookup : app.tabSessions.lookup (app.tabForSession pending.sessionId) with
        | none =>
          left
          rw [tabAt, hlookup]
          rfl
        | some tab =>
          right
          rw [sessionTab, hlookup, Option.some_or, Option.map_some, Option.some.injEq,
            Option.some.injEq] at hturn
          rw [tabAt_of_lookup hlookup]
          exact ⟨prompt, hturn⟩
      exact ⟨TabSession.regular_of_turn_eq hmoves.1 rfl, hmoves.2⟩
  unfold App.surfaceProposal
  split
  · next prompt hturn =>
    split
    · exact hsurface prompt (.inl hturn)
    · exact refl app
  · next prompt hturn =>
    split
    · exact hsurface prompt (.inr hturn)
    · exact refl app
  · exact refl app

theorem commitProposal (app : App) (order : List String) (proposalId : String) :
    MovesTo key released app (app.commitTerminalActionProposal order proposalId).1 := by
  unfold App.commitTerminalActionProposal
  cases app.pendingProposal order proposalId with
  | none => exact refl app
  | some found => exact (tabMut_of_sameTurn ⟨rfl, rfl, rfl⟩).trans (surfaceProposal _ found.2)

theorem turnExecuteCard (app : App) (sessionId : String) (claimed dispatched : Bool) :
    MovesTo key released app (app.turnExecuteCard sessionId claimed dispatched) := by
  unfold App.turnExecuteCard
  split
  · split
    · simp only
      split
      · exact teardownTurnForTab app _ true
      · split
        · refine trans ?_ (tabMut fun _ hregular => TabSession.movesTo_executed hregular _ _ _)
          exact of_eq rfl (List.Subset.refl _)
        · exact (tabMut_of_sameTurn ⟨rfl, rfl, rfl⟩).trans (teardownTurnForTab _ _ false)
    · exact refl app
  · exact refl app

theorem turnCloseTerminalEvent (app : App) (order : List String) (sessionId : String) :
    MovesTo key ((TurnOp.closeTerminalEvent order sessionId).Releases app key) app
      (app.turnCloseTerminalEvent order sessionId) := by
  unfold App.turnCloseTerminalEvent
  cases app.terminalEventTabForSession order sessionId with
  | none => exact refl app
  | some found =>
    simp only
    split
    · next promptId hturn =>
      refine tabMut fun hk hregular => ?_
      obtain ⟨tab, hlookup, hturn⟩ := Option.map_eq_some_iff.mp hturn
      have htab := tabAt_of_lookup hlookup
      split
      · next hmatches =>
        rw [← htab] at hturn
        refine TabSession.movesTo_settle hturn ?_ rfl ?_
        · rw [TurnOp.Releases, ← hk]
          exact hmatches
        · simp only [TabSession.finishActivePrompt]
          split <;> rfl
      · exact TabSession.movesTo_of_sameTurn hregular ⟨rfl, rfl, rfl⟩
    · split
      · exact tabMut fun _ hregular => TabSession.movesTo_close hregular app.texts
      · exact refl app

theorem settlePromptCancellation (app : App) (order : List String) (promptId : ℕ)
    (started : Bool) :
    MovesTo key ((TurnOp.settleCancellation order promptId started).Releases app key) app
      (app.settlePromptCancellation order promptId started) := by
  unfold App.settlePromptCancellation
  simp only
  split
  · exact refl app
  · next k hfind =>
    have hany := List.find?_some hfind
    obtain ⟨tab, hlookup, hturn⟩ := (Option.any_eq_true _ _).mp hany
    rw [decide_eq_true_eq] at hturn
    rw [← tabAt_of_lookup hlookup] at hturn
    refine tabMut fun _ _ => TabSession.movesTo_settle hturn rfl rfl ?_
    · simp only [TabSession.finishActivePrompt]
      split <;> rfl

theorem foldl (g : App → String → App) (hg : ∀ app k, MovesTo key released app (g app k))
    (keys : List String) (app : App) : MovesTo key released app (keys.foldl g app) := by
  induction keys generalizing app with
  | nil => exact refl app
  | cons k keys ih => exact trans (hg app k) (ih (g app k))

theorem cancelInFlight (keys : List String) (app : App) :
    MovesTo key released app (app.cancelInFlight keys) := by
  refine foldl _ (fun app k => ?_) keys app
  split
  · exact teardownTurnForTab app k true
  · exact refl app

theorem settleCancelling (keys : List String) (app : App) :
    MovesTo key (fun _ => True) app (app.settleCancelling keys) := by
  refine foldl _ (fun app k => ?_) keys app
  split
  · next promptId hturn =>
    obtain ⟨tab, hlookup, hturn⟩ := Option.map_eq_some_iff.mp hturn
    rw [← tabAt_of_lookup hlookup] at hturn
    exact tabMut fun _ _ => TabSession.movesTo_settle hturn trivial rfl rfl
  · exact refl app

theorem settleRetiredTransportPrompts (app : App) :
    MovesTo key ((TurnOp.settleRetired).Releases app key) app
      app.settleRetiredTransportPrompts :=
  (cancelInFlight _ app).trans (settleCancelling _ _)

theorem tabMut_of_bound (hturn : (f (app.tabAt k)).turn = (app.tabAt k).turn)
    (hkept : (f (app.tabAt k)).activePromptCancellation.map
        (fun active => (active.promptId, active.token)) =
      (app.tabAt k).activePromptCancellation.map fun active => (active.promptId, active.token))
    (hcompleted : (f (app.tabAt k)).completedTurns = (app.tabAt k).completedTurns) :
    MovesTo key released app (app.tabMut k f) :=
  tabMut fun _ hregular => TabSession.movesTo_of_eq hregular hturn hkept (by rw [hcompleted])

theorem attachSession (app : App) (k sessionId : String) (promptId : Option ℕ) :
    MovesTo key released app (app.attachSession k sessionId promptId) := by
  refine trans ?_ (tabMut_of_bound ?_ ?_ ?_)
  · exact of_eq rfl (List.Subset.refl _)
  · cases promptId <;> rfl
  · cases promptId with
    | none => rfl
    | some promptId =>
      simp only [TabSession.bindActivePromptSession, Option.map_map]
      refine congrArg (Option.map · _) (funext fun active => ?_)
      simp only [Function.comp_apply]
      split <;> rfl
  · cases promptId <;> rfl

theorem step (app : App) (op : TurnOp) (hop : ¬op.SubmitsTo key) :
    MovesTo key (op.Releases app key) app (op.step app) := by
  cases op with
  | submit k prompt token => exact tabMut fun hk => absurd hk hop
  | observeChunk order sessionId kind text => exact turnObserveChunk app order sessionId kind text
  | stageProposal sessionId promptId activeTarget decode proposalId =>
    exact validateAndStage app sessionId promptId activeTarget decode proposalId
  | commitProposal order proposalId => exact commitProposal app order proposalId
  | executeCard sessionId claimed dispatched =>
    exact turnExecuteCard app sessionId claimed dispatched
  | closeTerminalEvent order sessionId => exact turnCloseTerminalEvent app order sessionId
  | cancel k => exact teardownTurnForTab app k true
  | settleCancellation order promptId started =>
    exact settlePromptCancellation app order promptId started
  | settleRetired => exact settleRetiredTransportPrompts app
  | attach k sessionId promptId => exact attachSession app k sessionId promptId
  | rebind k sessionId loading target =>
    refine tabMut_of_bound rfl ?_ rfl
    simp only [TabSession.invalidateActivePromptAttachment, Option.map_map]
    rfl
  | advanceGeneration k => exact tabMut_of_sameTurn ⟨rfl, rfl, rfl⟩
  | select k choice button => exact tabMut_of_sameTurn ⟨rfl, rfl, rfl⟩
  | focus k => exact of_eq rfl (List.Subset.refl _)

end MovesTo

/-! ### Runs -/

/-- The app that a run reaches. -/
abbrev run (app : App) (ops : List TurnOp) : App := ops.foldl TurnOp.step app

theorem run_moves (ops : List TurnOp) (hops : ∀ op ∈ ops, ¬op.SubmitsTo key) (app : App) :
    MovesTo key (fun _ => True) app (app.run ops) := by
  induction ops generalizing app with
  | nil => exact MovesTo.refl app
  | cons op ops ih =>
    have hstep : MovesTo key (fun _ => True) app (op.step app) := by
      intro hregular
      obtain ⟨hregular', hmoves⟩ := MovesTo.step app op (hops op List.mem_cons_self) hregular
      exact ⟨hregular', Relation.ReflTransGen.mono
        (fun _ _ hmove => hmove.mono fun _ _ => trivial) _ _ hmoves⟩
    exact hstep.trans (ih (fun op' hop' => hops op' (List.mem_cons_of_mem op hop')) (op.step app))

theorem gate_submit (app : App) (key : String) (prompt : SubmittedPrompt) (token : ℕ) :
    ((app.turnSubmitPromptForTab key prompt token).tabAt key).Regular ∧
      (app.turnSubmitPromptForTab key prompt token).gate key = { app.gate key with
        phase := .inFlight prompt.id
        kept := some (prompt.id, token) } := by
  rw [gate, turnSubmitPromptForTab, tabAt_tabMut, if_pos rfl]
  refine ⟨TabSession.regular_of_not_surfaced fun prompt' outcome hsurfaced => ?_, rfl⟩
  cases hsurfaced

theorem run_invariant {P : Gate → Prop}
    (hP : ∀ g g', P g → Gate.Move (fun _ => True) g g' → P g') {ops : List TurnOp}
    (hops : ∀ op ∈ ops, ¬op.SubmitsTo key) {app : App} (hregular : (app.tabAt key).Regular)
    (h : P (app.gate key)) : P ((app.run ops).gate key) := by
  exact Gate.Moves.keep hP (run_moves ops hops app hregular).2 h

theorem run_named (ops : List TurnOp) {app : App} (hregular : (app.tabAt key).Regular)
    (h : (app.gate key).Named) :
    ((app.run ops).tabAt key).Regular ∧ ((app.run ops).gate key).Named := by
  induction ops generalizing app with
  | nil => exact ⟨hregular, h⟩
  | cons op ops ih =>
    by_cases hop : op.SubmitsTo key
    · cases op with
      | submit k prompt token =>
        have hk : k = key := hop
        subst hk
        obtain ⟨hregular', hgate⟩ := gate_submit app k prompt token
        refine ih hregular' ?_
        intro id hphase
        rw [TurnOp.step, hgate] at hphase ⊢
        rcases hphase with hphase | hphase
        · cases hphase
          exact ⟨token, rfl⟩
        · cases hphase
      | _ => exact absurd hop not_false
    · have hone : ∀ op' ∈ [op], ¬op'.SubmitsTo key := by
        intro op' hop'
        rwa [List.mem_singleton.mp hop']
      obtain ⟨hregular', -⟩ := run_moves [op] hone app hregular
      exact ih hregular' (run_invariant (fun _ _ => Gate.Named.move) hone hregular h)

/-! ### Cancelling -/

theorem exists_lookup_of_turn_ne_idle (h : (app.tabAt key).turn ≠ .idle) :
    app.tabSessions.lookup key = some (app.tabAt key) := by
  cases hlookup : app.tabSessions.lookup key with
  | none =>
    rw [tabAt, hlookup] at h
    exact absurd rfl h
  | some tab => rw [tabAt_of_lookup hlookup]

theorem tabAt_turnCancelForTab_of_ne (app : App) (hne : key ≠ k) :
    (app.turnCancelForTab k).tabAt key = app.tabAt key := by
  unfold turnCancelForTab teardownTurnForTab
  cases app.tabSessions.lookup k with
  | none => rfl
  | some tab =>
    simp only
    split
    · rfl
    · rw [tabAt_tabMut, if_neg hne]
      rfl

theorem turn_turnCancelForTab {id : ℕ} (hphase : (app.tabAt key).turn.phase = .inFlight id) :
    ((app.turnCancelForTab key).tabAt key).turn = .cancelling id := by
  obtain ⟨hflight, hnot, hid⟩ := TurnState.of_phase_inFlight hphase
  have hlookup := exists_lookup_of_turn_ne_idle (TurnState.ne_idle_of_isInFlight hflight)
  rw [turnCancelForTab, teardownTurnForTab_of_not_cancelling hlookup hnot, tabAt_tabMut, if_pos rfl]
  have htab : (app.cancelToken (app.tabAt key).reachedToken).tabAt key = app.tabAt key := rfl
  simp only [htab, TabSession.teardown, hflight, if_true, hid]

theorem mem_cancelledTokens_turnCancelForTab {id token : ℕ}
    (hphase : (app.tabAt key).turn.phase = .inFlight id ∨
      (app.tabAt key).turn.phase = .cancelling id)
    (hkept : (app.gate key).kept = some (id, token)) :
    token ∈ (app.turnCancelForTab key).cancelledTokens := by
  have hcancel : (app.tabAt key).cancelActivePrompt id = some token := by
    obtain ⟨active, hactive, heq⟩ := Option.map_eq_some_iff.mp hkept
    rw [TabSession.cancelActivePrompt, hactive, Option.filter_some,
      if_pos (by simp [(Prod.mk.inj heq).1]), Option.map_some, (Prod.mk.inj heq).2]
  rcases hphase with hphase | hphase
  · obtain ⟨hflight, hnot, hid⟩ := TurnState.of_phase_inFlight hphase
    have hlookup := exists_lookup_of_turn_ne_idle (TurnState.ne_idle_of_isInFlight hflight)
    have htoken : (app.tabAt key).reachedToken = some token := by
      rw [TabSession.reachedToken, if_pos hflight, hid, Option.bind_some, hcancel]
    rw [turnCancelForTab, teardownTurnForTab_of_not_cancelling hlookup hnot, htoken]
    exact List.mem_cons_self
  · have hturn := TurnState.eq_cancelling_of_phase hphase
    have hne : (app.tabAt key).turn ≠ .idle := by
      rw [hturn]
      intro h
      cases h
    rw [turnCancelForTab,
      teardownTurnForTab_of_cancelling (exists_lookup_of_turn_ne_idle hne) hturn, hcancel]
    exact List.mem_cons_self

end App

end IntelligentTerminal.Turns
