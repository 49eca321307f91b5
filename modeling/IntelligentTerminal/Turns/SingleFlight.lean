import IntelligentTerminal.Turns.TurnRuns

/-!
# One prompt at a time

The turn of a tab is held by one prompt at a time. A cancellation reaches the token of that prompt,
a cancelled prompt holds the turn until it is settled, and each prompt adds at most one completed
turn.
-/

namespace IntelligentTerminal.Turns

open Proposals (RecommendationSet RecommendationChoice ProposalError ProposalWire)

/-- Whether a prompt holds the turn: it is submitted, streaming, surfaced before the end, or being
cancelled. -/
def TurnState.Held (turn : TurnState) : Prop := turn.isInFlight ∨ turn.isCancelling

namespace App

variable {app : App} {key : String} {id : ℕ} {token n : ℕ} {mid : List TurnOp}

/-- A tab takes nothing: no prompt, and no chunk and no proposal of any session. -/
structure Refuses (app : App) (key : String) : Prop where
  prompt : (app.tabAt key).turn.acceptsNewPrompt = false
  chunk : ∀ order sessionId kind text,
    (app.turnObserveChunk order sessionId kind text).1.tabAt key = app.tabAt key ∧
      (app.currentTabForSession order sessionId = some key →
        (app.turnObserveChunk order sessionId kind text).2 = false)
  stage : ∀ sessionId promptId activeTarget decode proposalId,
    (app.validateAndStageTerminalActionProposal sessionId promptId activeTarget decode
        proposalId).1.tabAt key = app.tabAt key ∧
      (app.tabForSession sessionId = key →
        (app.validateAndStageTerminalActionProposal sessionId promptId activeTarget decode
          proposalId).2 ≠ .presented)
  commit : ∀ order proposalId,
    (((app.commitTerminalActionProposal order proposalId).1.tabAt key).turn =
        (app.tabAt key).turn ∧
      ((app.commitTerminalActionProposal order proposalId).1.tabAt key).activeDirectProposalId =
        (app.tabAt key).activeDirectProposalId) ∧
      ∀ key' pending, app.pendingProposal order proposalId = some (key', pending) →
        app.tabForSession pending.sessionId = key →
        (app.commitTerminalActionProposal order proposalId).2 = false

/-- What holds of a tab after a run. -/
structure SingleFlight (app : App) (ops : List TurnOp) (key : String) : Prop where
  /-- The prompt that holds the turn is named, and a cancellation reaches its token. -/
  named : ((app.run ops).tabAt key).turn.Held → ∃ active,
    ((app.run ops).tabAt key).activePromptCancellation = some active ∧
      ((app.run ops).tabAt key).turn.promptId = some active.promptId ∧
      active.token ∈ ((app.run ops).turnCancelForTab key).cancelledTokens
  /-- That prompt is the last one submitted, and the token is the one submitted with it. -/
  submitted : ∀ pre prompt token mid, ops = pre ++ TurnOp.submit key prompt token :: mid →
    (∀ op ∈ mid, ¬op.SubmitsTo key) → ((app.run ops).tabAt key).turn.Held →
      ((app.run ops).tabAt key).turn.promptId = some prompt.id ∧
        token ∈ ((app.run ops).turnCancelForTab key).cancelledTokens
  /-- A prompt in flight is cancelled by a cancellation. -/
  cancel : ((app.run ops).tabAt key).turn.isInFlight → ∃ id,
    ((app.run ops).tabAt key).turn.promptId = some id ∧
      (((app.run ops).turnCancelForTab key).tabAt key).turn = .cancelling id
  /-- A cancelled prompt holds the turn, and the tab takes nothing, until it is released. -/
  barrier : ∀ pre mid id, ops = pre ++ mid → ((app.run pre).tabAt key).turn = .cancelling id →
    Along TurnOp.step (fun app op => ¬op.Releases app key id) (app.run pre) mid →
      ((app.run ops).tabAt key).turn = .cancelling id ∧ (app.run ops).Refuses key
  /-- A prompt adds at most one completed turn. -/
  once : ∀ pre prompt token mid, ops = pre ++ TurnOp.submit key prompt token :: mid →
    (∀ op ∈ mid, ¬op.SubmitsTo key) →
      ((app.run ops).tabAt key).completedTurns.length =
          ((app.run pre).tabAt key).completedTurns.length ∨
        ((app.run ops).tabAt key).completedTurns.length =
          ((app.run pre).tabAt key).completedTurns.length + 1
  /-- A prompt that was cancelled in flight, or when the transport was gone, adds one. -/
  once_cancelled : ∀ pre prompt token m₁ op m₂,
    ops = pre ++ TurnOp.submit key prompt token :: (m₁ ++ op :: m₂) →
    (∀ op' ∈ m₁ ++ op :: m₂, ¬op'.SubmitsTo key) →
    ((app.run (pre ++ TurnOp.submit key prompt token :: m₁)).tabAt key).turn.isInFlight →
    (((op.step (app.run (pre ++ TurnOp.submit key prompt token :: m₁))).tabAt key).turn.isCancelling
      ∨ op = .settleRetired) →
      ((app.run ops).tabAt key).completedTurns.length =
        ((app.run pre).tabAt key).completedTurns.length + 1

/-! ### What a tab refuses while a prompt is cancelled -/

theorem lookup_of_cancelling (hturn : (app.tabAt key).turn = .cancelling id) :
    app.tabSessions.lookup key = some (app.tabAt key) := by
  refine exists_lookup_of_turn_ne_idle ?_
  rw [hturn]
  exact nofun

theorem observeChunk_of_cancelling {tab : TabSession} (hturn : tab.turn = .cancelling id)
    (kind : ChunkKind) (text : String) : tab.observeChunk kind text = (tab, false) := by
  unfold TabSession.observeChunk TabSession.acceptChunk
  simp only [hturn]
  rfl

theorem refuses_chunk (hturn : (app.tabAt key).turn = .cancelling id) (order : List String)
    (sessionId : String) (kind : ChunkKind) (text : String) :
    (app.turnObserveChunk order sessionId kind text).1.tabAt key = app.tabAt key ∧
      (app.currentTabForSession order sessionId = some key →
        (app.turnObserveChunk order sessionId kind text).2 = false) := by
  unfold turnObserveChunk
  cases hcurrent : app.currentTabForSession order sessionId with
  | none => exact ⟨rfl, nofun⟩
  | some k =>
    by_cases hk : k = key
    · subst hk
      simp only [lookup_of_cancelling hturn, observeChunk_of_cancelling hturn]
      refine ⟨?_, fun _ => trivial⟩
      rw [tabAt_tabMut, if_pos rfl]
    · cases hlookup : app.tabSessions.lookup k with
      | none => exact ⟨by simp only [hlookup], fun h => absurd (Option.some.inj h) hk⟩
      | some tab =>
        refine ⟨?_, fun h => absurd (Option.some.inj h) hk⟩
        simp only [hlookup]
        rw [tabAt_tabMut, if_neg fun h => hk h.symm]

theorem sessionTab_of_cancelling (hturn : (app.tabAt key).turn = .cancelling id)
    {sessionId : String} (hsession : app.tabForSession sessionId = key) :
    app.sessionTab sessionId = some (app.tabAt key) := by
  rw [sessionTab, hsession, lookup_of_cancelling hturn]
  rfl

theorem refuses_stage (hturn : (app.tabAt key).turn = .cancelling id) (sessionId : String)
    (promptId : ℕ) (activeTarget : Option String)
    (decode : Bool → Except ProposalError ProposalWire) (proposalId : String) :
    (app.validateAndStageTerminalActionProposal sessionId promptId activeTarget decode
        proposalId).1.tabAt key = app.tabAt key ∧
      (app.tabForSession sessionId = key →
        (app.validateAndStageTerminalActionProposal sessionId promptId activeTarget decode
          proposalId).2 ≠ .presented) := by
  by_cases hsession : app.tabForSession sessionId = key
  · unfold validateAndStageTerminalActionProposal
    simp only [sessionTab_of_cancelling hturn hsession, hturn]
    split_ifs
    · exact ⟨rfl, fun _ => nofun⟩
    · exact ⟨rfl, fun _ => nofun⟩
  · refine ⟨?_, fun h => absurd h hsession⟩
    unfold validateAndStageTerminalActionProposal
    simp only
    repeat' split
    all_goals first
      | rfl
      | rw [tabAt_tabMut, if_neg fun h => hsession h.symm]

theorem surfaceProposal_of_cancelling (hturn : (app.tabAt key).turn = .cancelling id)
    (pending : PendingTerminalActionProposal) :
    (app.surfaceProposal pending).1.tabAt key = app.tabAt key ∧
      (app.tabForSession pending.sessionId = key → (app.surfaceProposal pending).2 = false) := by
  by_cases hsession : app.tabForSession pending.sessionId = key
  · unfold surfaceProposal
    rw [sessionTab_of_cancelling hturn hsession, Option.map_some, hturn]
    exact ⟨rfl, fun _ => rfl⟩
  · refine ⟨?_, fun h => absurd h hsession⟩
    unfold surfaceProposal
    repeat' split
    all_goals first
      | rfl
      | rw [tabAt_tabMut, if_neg fun h => hsession h.symm]

theorem refuses_commit (hturn : (app.tabAt key).turn = .cancelling id) (order : List String)
    (proposalId : String) :
    (((app.commitTerminalActionProposal order proposalId).1.tabAt key).turn =
        (app.tabAt key).turn ∧
      ((app.commitTerminalActionProposal order proposalId).1.tabAt key).activeDirectProposalId =
        (app.tabAt key).activeDirectProposalId) ∧
      ∀ key' pending, app.pendingProposal order proposalId = some (key', pending) →
        app.tabForSession pending.sessionId = key →
        (app.commitTerminalActionProposal order proposalId).2 = false := by
  unfold commitTerminalActionProposal
  cases hpending : app.pendingProposal order proposalId with
  | none => exact ⟨⟨rfl, rfl⟩, nofun⟩
  | some found =>
    obtain ⟨k, pending⟩ := found
    simp only
    set taken := app.tabMut k fun tab => { tab with pendingTerminalActionProposal := none }
    have htaken : (taken.tabAt key).turn = (app.tabAt key).turn ∧
        (taken.tabAt key).activeDirectProposalId = (app.tabAt key).activeDirectProposalId := by
      rw [tabAt_tabMut]
      split_ifs with hk
      · rw [hk]
        exact ⟨rfl, rfl⟩
      · exact ⟨rfl, rfl⟩
    obtain ⟨hsame, hrefused⟩ := surfaceProposal_of_cancelling (htaken.1.trans hturn) pending
    rw [hsame]
    refine ⟨htaken, fun key' pending' heq hsession => ?_⟩
    obtain ⟨-, rfl⟩ := Prod.mk.inj (Option.some.inj heq)
    exact hrefused hsession

theorem refuses_of_cancelling (hturn : (app.tabAt key).turn = .cancelling id) :
    app.Refuses key where
  prompt := by
    rw [hturn]
    rfl
  chunk := refuses_chunk hturn
  stage := refuses_stage hturn
  commit := refuses_commit hturn

/-! ### The token of the prompt that holds a turn -/

theorem exists_phase_of_held {turn : TurnState} (h : turn.Held) :
    ∃ id, (turn.phase = .inFlight id ∨ turn.phase = .cancelling id) ∧ turn.promptId = some id := by
  rcases h with hflight | hcancelling
  · obtain ⟨id, hphase⟩ := TurnState.exists_phase_of_isInFlight hflight
    exact ⟨id, .inl hphase, (TurnState.of_phase_inFlight hphase).2.2⟩
  · cases turn with
    | cancelling id => exact ⟨id, .inr rfl, rfl⟩
    | idle => cases hcancelling
    | submitted => cases hcancelling
    | streaming => cases hcancelling
    | surfaced => cases hcancelling

theorem regular_of_idle (hidle : (app.tabAt key).turn = .idle) : (app.tabAt key).Regular := by
  refine TabSession.regular_of_free ?_
  rw [hidle]
  rfl

theorem named_of_idle (hidle : (app.tabAt key).turn = .idle) : (app.gate key).Named := by
  rintro id (hphase | hphase)
  · rw [gate, TabSession.gate, hidle] at hphase
    cases hphase
  · rw [gate, TabSession.gate, hidle] at hphase
    cases hphase

theorem named_of_gate {app : App} (hnamed : (app.gate key).Named)
    (hheld : (app.tabAt key).turn.Held) : ∃ active,
      (app.tabAt key).activePromptCancellation = some active ∧
        (app.tabAt key).turn.promptId = some active.promptId ∧
        active.token ∈ (app.turnCancelForTab key).cancelledTokens := by
  obtain ⟨id, hphase, hid⟩ := exists_phase_of_held hheld
  obtain ⟨token, hkept⟩ := hnamed id hphase
  have htoken := mem_cancelledTokens_turnCancelForTab hphase hkept
  obtain ⟨active, hactive, heq⟩ := Option.map_eq_some_iff.mp hkept
  obtain ⟨rfl, rfl⟩ := Prod.mk.inj heq
  exact ⟨active, hactive, hid, htoken⟩

/-! ### From a submission to the next one -/

theorem serves_run (app : App) (prompt : SubmittedPrompt) (token : ℕ)
    (hmid : ∀ op ∈ mid, ¬op.SubmitsTo key) :
    ((app.run (.submit key prompt token :: mid)).tabAt key).Regular ∧
      ((app.run (.submit key prompt token :: mid)).gate key).Serves prompt.id token
        (app.tabAt key).completedTurns.length := by
  obtain ⟨hregular, hgate⟩ := gate_submit app key prompt token
  obtain ⟨hregular', -⟩ := run_moves mid hmid _ hregular
  have hserves : ((app.turnSubmitPromptForTab key prompt token).gate key).Serves prompt.id token
      (app.tabAt key).completedTurns.length := by
    rw [hgate]
    exact .running rfl rfl rfl
  exact ⟨hregular', run_invariant (fun _ _ => Gate.Serves.move) hmid hregular hserves⟩

theorem submitted_of_serves (hserves : (app.gate key).Serves id token n)
    (hheld : (app.tabAt key).turn.Held) :
    (app.tabAt key).turn.promptId = some id ∧
      token ∈ (app.turnCancelForTab key).cancelledTokens := by
  obtain ⟨id', hphase, hid⟩ := exists_phase_of_held hheld
  cases hserves with
  | running h hkept =>
    have h : (app.tabAt key).turn.phase = .inFlight id := h
    exact ⟨(TurnState.of_phase_inFlight h).2.2,
      mem_cancelledTokens_turnCancelForTab (.inl h) hkept⟩
  | cancelled h hkept =>
    have h : (app.tabAt key).turn.phase = .cancelling id := h
    refine ⟨?_, mem_cancelledTokens_turnCancelForTab (.inr h) hkept⟩
    rw [TurnState.eq_cancelling_of_phase h]
    rfl
  | ended h =>
    have h : (app.tabAt key).turn.phase = .free := h
    rw [h] at hphase
    rcases hphase with hphase | hphase <;> cases hphase

/-! ### A cancelled prompt until it is released -/

theorem cancelling_run (henabled : Along TurnOp.step TurnOp.Enabled app mid)
    (hheld : Along TurnOp.step (fun app op => ¬op.Releases app key id) app mid)
    (hturn : (app.tabAt key).turn = .cancelling id) :
    ((app.run mid).tabAt key).turn = .cancelling id := by
  induction mid generalizing app with
  | nil => exact hturn
  | cons op mid ih =>
    refine ih henabled.2 hheld.2 ?_
    have hop : ¬op.SubmitsTo key := by
      intro hop
      cases op with
      | submit k prompt token =>
        have hk : k = key := hop
        have haccepts : (app.tabAt k).turn.acceptsNewPrompt = true := henabled.1
        rw [hk, hturn] at haccepts
        cases haccepts
      | _ => exact hop
    have hregular : (app.tabAt key).Regular := by
      refine TabSession.regular_of_not_surfaced fun prompt outcome hsurfaced => ?_
      rw [hturn] at hsurfaced
      cases hsurfaced
    obtain ⟨-, hmoves⟩ := MovesTo.step app op hop hregular
    have hphase : (app.gate key).phase = .cancelling id := by
      rw [gate, TabSession.gate, hturn]
      rfl
    have hkept : ((op.step app).gate key).phase = .cancelling id :=
      Gate.Moves.keep (P := fun g => g.phase = .cancelling id)
        (fun _ _ hphase hmove => hmove.cancelling hphase hheld.1) hmoves hphase
    exact TurnState.eq_cancelling_of_phase hkept

/-! ### The transport is gone -/

theorem spent_cancelInFlight {keys : List String} (hmem : key ∈ keys)
    (hregular : (app.tabAt key).Regular) (hserves : (app.gate key).Serves id token n)
    (hflight : (app.tabAt key).turn.isInFlight = true) :
    ((app.cancelInFlight keys).tabAt key).Regular ∧
      ((app.cancelInFlight keys).gate key).Spent n := by
  induction keys generalizing app with
  | nil => cases hmem
  | cons k keys ih =>
    have hteardown : MovesTo key (fun _ => True) app (app.turnCancelForTab k) :=
      MovesTo.teardownTurnForTab app k true
    obtain ⟨hregular', hmoves⟩ := hteardown hregular
    have hserves' := Gate.Moves.keep (fun _ _ => Gate.Serves.move) hmoves hserves
    by_cases hk : k = key
    · subst hk
      have hlookup := exists_lookup_of_turn_ne_idle (TurnState.ne_idle_of_isInFlight hflight)
      obtain ⟨id', hphase⟩ := TurnState.exists_phase_of_isInFlight hflight
      have hspent : ((app.turnCancelForTab k).gate k).Spent n := by
        refine hserves'.spent ⟨id', ?_⟩
        rw [gate, TabSession.gate, turn_turnCancelForTab hphase]
        rfl
      have hstep : app.cancelInFlight (k :: keys) =
          (app.turnCancelForTab k).cancelInFlight keys := by
        rw [cancelInFlight, List.foldl_cons, hlookup, Option.any_some, if_pos hflight]
        rfl
      have hrest : MovesTo k (fun _ => True) (app.turnCancelForTab k)
          ((app.turnCancelForTab k).cancelInFlight keys) := MovesTo.cancelInFlight keys _
      obtain ⟨hregular'', hmoves'⟩ := hrest hregular'
      rw [hstep]
      exact ⟨hregular'', Gate.Moves.keep (fun _ _ => Gate.Spent.move) hmoves' hspent⟩
    · have hmem' : key ∈ keys := List.mem_of_ne_of_mem (fun h => hk h.symm) hmem
      have hsame : ((app.turnCancelForTab k).tabAt key) = app.tabAt key :=
        tabAt_turnCancelForTab_of_ne app fun h => hk h.symm
      rw [cancelInFlight, List.foldl_cons]
      split_ifs with hany
      · refine ih hmem' hregular' hserves' ?_
        rw [hsame]
        exact hflight
      · exact ih hmem' hregular hserves hflight

theorem spent_settleRetiredTransportPrompts (hregular : (app.tabAt key).Regular)
    (hserves : (app.gate key).Serves id token n)
    (hflight : (app.tabAt key).turn.isInFlight = true) :
    (app.settleRetiredTransportPrompts.gate key).Spent n := by
  have hlookup := exists_lookup_of_turn_ne_idle (TurnState.ne_idle_of_isInFlight hflight)
  have hmem : key ∈ app.tabSessions.keys := by
    rw [← AList.mem_keys, ← AList.lookup_isSome, hlookup]
    rfl
  obtain ⟨hregular', hspent⟩ := spent_cancelInFlight hmem hregular hserves hflight
  have hsettle : MovesTo key (fun _ => True) _ app.settleRetiredTransportPrompts :=
    MovesTo.settleCancelling app.tabSessions.keys (app.cancelInFlight app.tabSessions.keys)
  obtain ⟨-, hmoves⟩ := hsettle hregular'
  exact Gate.Moves.keep (fun _ _ => Gate.Spent.move) hmoves hspent

/-! ### Every run -/

theorem entries_of_cancelled (app : App) (prompt : SubmittedPrompt) (token : ℕ)
    {m₁ m₂ : List TurnOp} {op : TurnOp} (hmid : ∀ op' ∈ m₁ ++ op :: m₂, ¬op'.SubmitsTo key)
    (hflight : ((app.run (.submit key prompt token :: m₁)).tabAt key).turn.isInFlight = true)
    (hop : ((op.step (app.run (.submit key prompt token :: m₁))).tabAt key).turn.isCancelling =
      true ∨ op = .settleRetired) :
    ((app.run (.submit key prompt token :: (m₁ ++ op :: m₂))).tabAt key).completedTurns.length =
      (app.tabAt key).completedTurns.length + 1 := by
  have hm₁ : ∀ op' ∈ m₁, ¬op'.SubmitsTo key := fun op' hop' =>
    hmid op' (List.mem_append_left _ hop')
  have hm₁op : ∀ op' ∈ m₁ ++ [op], ¬op'.SubmitsTo key := by
    intro op' hop'
    refine hmid op' ?_
    rw [List.append_cons]
    exact List.mem_append_left _ hop'
  have hm₂ : ∀ op' ∈ m₂, ¬op'.SubmitsTo key := fun op' hop' =>
    hmid op' (List.mem_append_right _ (List.mem_cons_of_mem _ hop'))
  obtain ⟨hregular, hserves⟩ := serves_run app prompt token hm₁
  obtain ⟨hregular', hserves'⟩ := serves_run app prompt token hm₁op
  have hrun : app.run (.submit key prompt token :: (m₁ ++ [op])) =
      op.step (app.run (.submit key prompt token :: m₁)) := by
    rw [run, run, ← List.cons_append, List.foldl_append]
    rfl
  have hspent : ((op.step (app.run (.submit key prompt token :: m₁))).gate key).Spent
      (app.tabAt key).completedTurns.length := by
    rcases hop with hcancelling | rfl
    · rw [← hrun] at hcancelling ⊢
      obtain ⟨id, hphase, -⟩ := exists_phase_of_held (.inr hcancelling)
      refine hserves'.spent ⟨id, ?_⟩
      rcases hphase with hphase | hphase
      · rw [(TurnState.of_phase_inFlight hphase).2.1] at hcancelling
        cases hcancelling
      · exact hphase
    · exact spent_settleRetiredTransportPrompts hregular hserves hflight
  have hfinal : app.run (.submit key prompt token :: (m₁ ++ op :: m₂)) =
      (op.step (app.run (.submit key prompt token :: m₁))).run m₂ := by
    rw [← hrun, run, run, run, ← List.foldl_append, List.cons_append, List.append_assoc]
    rfl
  rw [hrun] at hregular'
  rw [hfinal]
  exact (run_invariant (fun _ _ => Gate.Spent.move) hm₂ hregular' hspent).entries

end App

/-- A tab has one prompt at a time. -/
theorem turn_single_flight {app : App} {key : String} (hidle : (app.tabAt key).turn = .idle)
    {ops : List TurnOp} (henabled : Along TurnOp.step TurnOp.Enabled app ops) :
    app.SingleFlight ops key where
  named := App.named_of_gate
    (App.run_named ops (App.regular_of_idle hidle) (App.named_of_idle hidle)).2
  submitted pre prompt token mid heq hmid hheld := by
    subst heq
    rw [App.run, List.foldl_append] at hheld ⊢
    exact App.submitted_of_serves (App.serves_run _ prompt token hmid).2 hheld
  cancel hflight := by
    obtain ⟨id, hphase⟩ := TurnState.exists_phase_of_isInFlight hflight
    exact ⟨id, (TurnState.of_phase_inFlight hphase).2.2, App.turn_turnCancelForTab hphase⟩
  barrier pre mid id heq hturn hheld := by
    subst heq
    have hturn' := App.cancelling_run (Along.append.mp henabled).2 hheld hturn
    rw [App.run, List.foldl_append]
    exact ⟨hturn', App.refuses_of_cancelling hturn'⟩
  once pre prompt token mid heq hmid := by
    subst heq
    rw [App.run, List.foldl_append]
    exact (App.serves_run _ prompt token hmid).2.entries
  once_cancelled pre prompt token m₁ op m₂ heq hmid hflight hop := by
    subst heq
    rw [App.run, List.foldl_append] at hflight hop ⊢
    exact App.entries_of_cancelled _ prompt token hmid hflight hop

/-- A prompt is submitted, answered, cancelled and settled, and the next one is submitted. -/
theorem turn_single_flight_cancelled :
    let texts : Texts := {
      turnCanceled := "canceled"
      autofixPromptLabel := "fix"
      toolInsert := "insert"
      toolRun := "run"
      connectionLost := "connection lost" }
    let prompt : ℕ → SubmittedPrompt := fun id => {
      id, text := "list the files", context := { targetPaneId := none }, autofix := none }
    App.SingleFlight { texts } [.submit "0" (prompt 1) 7, .attach "0" "s" (some 1),
      .observeChunk ["0"] "s" .message "ls", .cancel "0", .settleCancellation ["0"] 1 true,
      .submit "0" (prompt 2) 8] "0" :=
  turn_single_flight rfl ⟨rfl, trivial, trivial, trivial, trivial, rfl, trivial⟩

end IntelligentTerminal.Turns
