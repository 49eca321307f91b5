import IntelligentTerminal.Data.Run
import IntelligentTerminal.Turns.TurnApp
import Mathlib.Logic.Relation

/-!
# Single flight

What matters of a turn is whether a prompt holds it: it is free, a prompt is in flight, or a prompt
is being cancelled. With the token that is kept for the prompt and the number of completed turns
this is a gate. Every call but a submission moves the gate of a tab in one of five ways, and the
gate of a cancelled prompt opens only when the prompt is settled.
-/

namespace IntelligentTerminal.Turns

open Proposals (RecommendationSet RecommendationChoice ProposalError ProposalWire)

/-! ### Gates -/

/-- Whether a prompt holds a turn. -/
inductive Phase
  | free
  | inFlight (id : ℕ)
  | cancelling (id : ℕ)
deriving DecidableEq

/-- Whether a prompt holds the turn. -/
def TurnState.phase : TurnState → Phase
  | idle | surfaced _ _ false => .free
  | submitted prompt | streaming prompt | surfaced prompt _ true => .inFlight prompt.id
  | cancelling promptId => .cancelling promptId

namespace TurnState

variable {turn : TurnState} {id : ℕ}

theorem of_phase_inFlight (h : turn.phase = .inFlight id) :
    turn.isInFlight = true ∧ turn.isCancelling = false ∧ turn.promptId = some id := by
  cases turn with
  | idle => cases h
  | cancelling => cases h
  | submitted prompt =>
    cases h
    exact ⟨rfl, rfl, rfl⟩
  | streaming prompt =>
    cases h
    exact ⟨rfl, rfl, rfl⟩
  | surfaced prompt outcome endPending =>
    cases endPending with
    | false => cases h
    | true =>
      cases h
      exact ⟨rfl, rfl, rfl⟩

theorem eq_cancelling_of_phase (h : turn.phase = .cancelling id) : turn = .cancelling id := by
  cases turn with
  | idle => cases h
  | cancelling =>
    cases h
    rfl
  | submitted => cases h
  | streaming => cases h
  | surfaced prompt outcome endPending => cases endPending <;> cases h

theorem exists_phase_of_isInFlight (h : turn.isInFlight = true) :
    ∃ id, turn.phase = .inFlight id := by
  cases turn with
  | idle => cases h
  | cancelling => cases h
  | submitted prompt => exact ⟨prompt.id, rfl⟩
  | streaming prompt => exact ⟨prompt.id, rfl⟩
  | surfaced prompt outcome endPending =>
    cases endPending with
    | false => cases h
    | true => exact ⟨prompt.id, rfl⟩

theorem ne_idle_of_isInFlight (h : turn.isInFlight = true) : turn ≠ .idle := by
  rintro rfl
  cases h

theorem phase_free_of_not (hflight : turn.isInFlight ≠ true) (hnot : turn.isCancelling = false) :
    turn.phase = .free := by
  cases turn with
  | idle => rfl
  | cancelling => cases hnot
  | submitted => exact absurd rfl hflight
  | streaming => exact absurd rfl hflight
  | surfaced prompt outcome endPending =>
    cases endPending with
    | false => rfl
    | true => exact absurd rfl hflight

end TurnState

/-- What matters of the turn of a tab: who holds it, the prompt and the token that are kept, how
many turns are completed, and the tokens that were cancelled. -/
structure Gate where
  phase : Phase
  kept : Option (ℕ × ℕ)
  entries : ℕ
  cancelled : List ℕ

/-- How a gate moves. Only a prompt that may be released is settled. -/
inductive Gate.Move (released : ℕ → Prop) : Gate → Gate → Prop
  | keep {g : Gate} (cancelled : List ℕ) (h : g.cancelled ⊆ cancelled) :
      Move released g { g with cancelled }
  | finish {g : Gate} {id : ℕ} (kept : Option (ℕ × ℕ)) (entries : ℕ) (h : g.phase = .inFlight id)
      (hentries : entries = g.entries ∨ entries = g.entries + 1) :
      Move released g { g with phase := .free, kept, entries }
  | cancel {g : Gate} {id : ℕ} (cancelled : List ℕ) (h : g.phase = .inFlight id)
      (hsubset : g.cancelled ⊆ cancelled)
      (htoken : ∀ token, g.kept = some (id, token) → token ∈ cancelled) :
      Move released g { g with phase := .cancelling id, entries := g.entries + 1, cancelled }
  | settle {g : Gate} {id : ℕ} (kept : Option (ℕ × ℕ)) (h : g.phase = .cancelling id)
      (hreleased : released id) : Move released g { g with phase := .free, kept }
  | dismiss {g : Gate} (kept : Option (ℕ × ℕ)) (h : g.phase = .free) :
      Move released g { g with kept }

/-- Several moves of a gate. -/
abbrev Gate.Moves (released : ℕ → Prop) : Gate → Gate → Prop :=
  Relation.ReflTransGen (Gate.Move released)

/-- A prompt that was submitted with `token` after `n` turns, and is not followed by another one. -/
inductive Gate.Serves (id token n : ℕ) (g : Gate) : Prop
  | running (h : g.phase = .inFlight id) (hkept : g.kept = some (id, token)) (hn : g.entries = n)
  | cancelled (h : g.phase = .cancelling id) (hkept : g.kept = some (id, token))
      (hn : g.entries = n + 1) (htoken : token ∈ g.cancelled)
  | ended (h : g.phase = .free) (hn : g.entries = n ∨ g.entries = n + 1)

/-- A prompt that was cancelled in flight after `n` turns, and is not followed by another one. -/
structure Gate.Spent (n : ℕ) (g : Gate) : Prop where
  phase : ∀ id, g.phase ≠ .inFlight id
  entries : g.entries = n + 1

/-- The prompt that holds a gate is the one whose token is kept. -/
def Gate.Named (g : Gate) : Prop :=
  ∀ id, g.phase = .inFlight id ∨ g.phase = .cancelling id → ∃ token, g.kept = some (id, token)

namespace Gate

variable {released : ℕ → Prop} {id token n : ℕ} {g g' : Gate}

theorem Serves.move (h : g.Serves id token n) (hmove : Move released g g') :
    g'.Serves id token n := by
  cases hmove with
  | keep cancelled hsubset =>
    cases h with
    | running h hkept hn => exact .running h hkept hn
    | cancelled h hkept hn htoken => exact .cancelled h hkept hn (hsubset htoken)
    | ended h hn => exact .ended h hn
  | finish kept entries hphase hentries =>
    cases h with
    | running _ _ hn => exact .ended rfl (hn ▸ hentries)
    | cancelled h => rw [h] at hphase; cases hphase
    | ended h => rw [h] at hphase; cases hphase
  | cancel cancelled hphase hsubset htoken =>
    cases h with
    | running h hkept hn =>
      rw [h] at hphase
      cases hphase
      exact .cancelled rfl hkept (congrArg (· + 1) hn) (htoken token hkept)
    | cancelled h => rw [h] at hphase; cases hphase
    | ended h => rw [h] at hphase; cases hphase
  | settle kept hphase =>
    cases h with
    | running h => rw [h] at hphase; cases hphase
    | cancelled _ _ hn => exact .ended rfl (.inr hn)
    | ended h => rw [h] at hphase; cases hphase
  | dismiss kept hphase =>
    cases h with
    | running h => rw [h] at hphase; cases hphase
    | cancelled h => rw [h] at hphase; cases hphase
    | ended h hn => exact .ended h hn

theorem Named.move (h : g.Named) (hmove : Move released g g') : g'.Named := by
  intro id hphase
  cases hmove with
  | keep => exact h id hphase
  | finish => rcases hphase with hphase | hphase <;> cases hphase
  | cancel _ hflight =>
    rcases hphase with hphase | hphase
    · cases hphase
    · cases hphase
      exact h _ (.inl hflight)
  | settle => rcases hphase with hphase | hphase <;> cases hphase
  | dismiss _ hfree =>
    rcases hphase with hphase | hphase
    · rw [hphase] at hfree; cases hfree
    · rw [hphase] at hfree; cases hfree

theorem Spent.move (h : g.Spent n) (hmove : Move released g g') : g'.Spent n := by
  cases hmove with
  | keep => exact ⟨h.phase, h.entries⟩
  | finish _ _ hphase => exact absurd hphase (h.phase _)
  | cancel _ hphase => exact absurd hphase (h.phase _)
  | settle => exact ⟨fun _ hphase => (nomatch hphase), h.entries⟩
  | dismiss => exact ⟨h.phase, h.entries⟩

theorem Move.mono {released' : ℕ → Prop} (hmove : Move released g g')
    (h : ∀ id, released id → released' id) : Move released' g g' := by
  cases hmove with
  | keep cancelled hsubset => exact .keep cancelled hsubset
  | finish kept entries hphase hentries => exact .finish kept entries hphase hentries
  | cancel cancelled hphase hsubset htoken => exact .cancel cancelled hphase hsubset htoken
  | settle kept hphase hreleased => exact .settle kept hphase (h _ hreleased)
  | dismiss kept hphase => exact .dismiss kept hphase

theorem Move.cancelling (hmove : Move released g g') (h : g.phase = .cancelling id)
    (hheld : ¬released id) : g'.phase = .cancelling id := by
  cases hmove with
  | keep => exact h
  | finish _ _ hphase => rw [h] at hphase; cases hphase
  | cancel _ hphase => rw [h] at hphase; cases hphase
  | settle _ hphase hreleased =>
    rw [h] at hphase
    cases hphase
    exact absurd hreleased hheld
  | dismiss _ hphase => rw [h] at hphase; cases hphase

theorem Serves.spent (h : g.Serves id token n) (hphase : ∃ id, g.phase = .cancelling id) :
    g.Spent n := by
  obtain ⟨id', hphase⟩ := hphase
  cases h with
  | running h => rw [hphase] at h; cases h
  | cancelled h _ hn =>
    refine ⟨fun _ hflight => ?_, hn⟩
    rw [h] at hflight
    cases hflight
  | ended h => rw [hphase] at h; cases h

theorem Serves.entries (h : g.Serves id token n) : g.entries = n ∨ g.entries = n + 1 := by
  cases h with
  | running _ _ hn => exact .inl hn
  | cancelled _ _ hn => exact .inr hn
  | ended _ hn => exact hn

theorem Moves.keep {P : Gate → Prop} (hP : ∀ g g', P g → Move released g g' → P g')
    (hmoves : Moves released g g') (h : P g) : P g' := by
  induction hmoves with
  | refl => exact h
  | tail _ hmove ih => exact hP _ _ ih hmove

end Gate

/-! ### The gate of a tab -/

namespace TabSession

/-- The gate of a tab, when these tokens are cancelled. -/
def gate (tab : TabSession) (cancelled : List ℕ) : Gate where
  phase := tab.turn.phase
  kept := tab.activePromptCancellation.map fun active => (active.promptId, active.token)
  entries := tab.completedTurns.length
  cancelled := cancelled

/-- Between two calls a turn that waits for the end shows a card or did so. -/
def Regular (tab : TabSession) : Prop :=
  ∀ prompt outcome, tab.turn = .surfaced prompt outcome true →
    (∃ set, outcome = .recommendation set) ∨ ∃ summary, outcome = .resolvedRecommendation summary

/-- A function of a tab that moves the gate, with no regard to the tokens. -/
def MovesTo (released : ℕ → Prop) (tab tab' : TabSession) : Prop :=
  tab'.Regular ∧ ∀ cancelled, Gate.Move released (tab.gate cancelled) (tab'.gate cancelled)

variable {released : ℕ → Prop} {tab tab' : TabSession}
  {prompt : SubmittedPrompt} {outcome : TurnOutcome} {id : ℕ}

theorem movesTo_of_eq (h : tab.Regular) (hturn : tab'.turn = tab.turn)
    (hkept : tab'.activePromptCancellation.map (fun active => (active.promptId, active.token)) =
      tab.activePromptCancellation.map fun active => (active.promptId, active.token))
    (hentries : tab'.completedTurns.length = tab.completedTurns.length) :
    tab.MovesTo released tab' := by
  refine ⟨fun prompt outcome hsurfaced => h prompt outcome (hturn ▸ hsurfaced), fun cancelled => ?_⟩
  have heq : tab'.gate cancelled = { tab.gate cancelled with cancelled } := by
    simp only [gate, hturn, hkept, hentries]
  rw [heq]
  exact .keep cancelled (List.Subset.refl _)

/-! ### What the functions of a tab leave alone -/

/-- What no function of the transcript changes. -/
structure SameTurn (tab tab' : TabSession) : Prop where
  turn : tab'.turn = tab.turn
  kept : tab'.activePromptCancellation = tab.activePromptCancellation
  completed : tab'.completedTurns = tab.completedTurns

theorem SameTurn.trans {tab'' : TabSession} (h : SameTurn tab tab') (h' : SameTurn tab' tab'') :
    SameTurn tab tab'' :=
  ⟨h'.turn.trans h.turn, h'.kept.trans h.kept, h'.completed.trans h.completed⟩

section Frames

variable (tab : TabSession)

theorem sameTurn_finishThought : SameTurn tab tab.finishThought := by
  unfold finishThought
  split <;> exact ⟨rfl, rfl, rfl⟩

theorem sameTurn_appendAgentChunk (text : String) : SameTurn tab (tab.appendAgentChunk text) := by
  unfold appendAgentChunk
  split <;> exact ⟨rfl, rfl, rfl⟩

theorem sameTurn_appendThoughtChunk (text : String) :
    SameTurn tab (tab.appendThoughtChunk text) := by
  unfold appendThoughtChunk
  split
  · exact sameTurn_finishThought tab
  · cases hindex : tab.streamingThoughtMessageIndex with
    | none => exact ⟨rfl, rfl, rfl⟩
    | some index => exact ⟨rfl, rfl, rfl⟩

theorem sameTurn_takeCurrentTurnDetails : SameTurn tab tab.takeCurrentTurnDetails :=
  (sameTurn_finishThought tab).trans ⟨rfl, rfl, rfl⟩

theorem length_completedTurns_resolveLastTurn (old new : String) :
    (tab.resolveLastTurn old new).completedTurns.length = tab.completedTurns.length := by
  unfold resolveLastTurn
  cases hlast : tab.completedTurns.getLast? with
  | none => rfl
  | some last =>
    have hne : tab.completedTurns ≠ [] := by
      rintro hnil
      rw [hnil] at hlast
      cases hlast
    have hpos := List.length_pos_iff.mpr hne
    simp only [List.length_append, List.length_dropLast, List.length_singleton]
    omega

end Frames

theorem pushed_takeCurrentTurnDetails (tab : TabSession) (turn : CompletedTurn) :
    (tab.takeCurrentTurnDetails.pushCompletedTurn turn).turn = tab.turn ∧
      (tab.takeCurrentTurnDetails.pushCompletedTurn turn).activePromptCancellation =
        tab.activePromptCancellation ∧
      (tab.takeCurrentTurnDetails.pushCompletedTurn turn).completedTurns.length =
        tab.completedTurns.length + 1 := by
  have hsame := sameTurn_takeCurrentTurnDetails tab
  refine ⟨hsame.turn, hsame.kept, ?_⟩
  rw [pushCompletedTurn, List.length_append, hsame.completed]
  rfl

/-! ### Chunks and proposals -/

theorem movesTo_of_sameTurn (h : tab.Regular) (hsame : SameTurn tab tab') :
    tab.MovesTo released tab' :=
  movesTo_of_eq h hsame.turn (by rw [hsame.kept]) (by rw [hsame.completed])

theorem movesTo_of_inFlight (hphase : tab.turn.phase = .inFlight id)
    (hphase' : tab'.turn.phase = .inFlight id) (hregular : tab'.Regular)
    (hkept : tab'.activePromptCancellation = tab.activePromptCancellation)
    (hcompleted : tab'.completedTurns = tab.completedTurns) : tab.MovesTo released tab' := by
  refine ⟨hregular, fun cancelled => ?_⟩
  have heq : tab'.gate cancelled = { tab.gate cancelled with cancelled } := by
    simp only [gate, hphase, hphase', hkept, hcompleted]
  rw [heq]
  exact .keep cancelled (List.Subset.refl _)

theorem regular_of_turn_eq (h : tab.Regular) (hturn : tab'.turn = tab.turn) : tab'.Regular :=
  fun prompt outcome hsurfaced => h prompt outcome (hturn ▸ hsurfaced)

theorem regular_of_not_surfaced (h : ∀ prompt outcome, tab.turn ≠ .surfaced prompt outcome true) :
    tab.Regular :=
  fun prompt outcome hsurfaced => absurd hsurfaced (h prompt outcome)

theorem movesTo_streaming (hturn : tab.turn = .submitted prompt)
    (hsame : SameTurn { tab with turn := .streaming prompt } tab') :
    tab.MovesTo released tab' := by
  refine movesTo_of_inFlight (by rw [hturn]; rfl) (by rw [hsame.turn]; rfl) ?_ hsame.kept
    hsame.completed
  refine regular_of_not_surfaced fun prompt' outcome hsurfaced => ?_
  rw [hsame.turn] at hsurfaced
  cases hsurfaced

theorem movesTo_acceptChunk (h : tab.Regular) (kind : ChunkKind) (text : String) :
    tab.MovesTo released (tab.acceptChunk kind text).1 := by
  unfold acceptChunk
  split
  · next hturn => exact movesTo_streaming hturn (sameTurn_appendAgentChunk _ text)
  · next hturn => exact movesTo_streaming hturn (sameTurn_appendThoughtChunk _ text)
  · refine movesTo_of_sameTurn h (SameTurn.trans ?_ (sameTurn_appendAgentChunk _ text))
    split
    · exact sameTurn_finishThought tab
    · exact ⟨rfl, rfl, rfl⟩
  · exact movesTo_of_sameTurn h (sameTurn_appendThoughtChunk tab text)
  · split
    · exact movesTo_of_sameTurn h (sameTurn_appendAgentChunk tab text)
    · split
      · exact movesTo_of_sameTurn h (sameTurn_appendAgentChunk tab text)
      · exact movesTo_of_sameTurn h ⟨rfl, rfl, rfl⟩
  all_goals exact movesTo_of_sameTurn h ⟨rfl, rfl, rfl⟩

theorem movesTo_observeChunk (h : tab.Regular) (kind : ChunkKind) (text : String) :
    tab.MovesTo released (tab.observeChunk kind text).1 := by
  have hmoves : tab.MovesTo released (tab.acceptChunk kind text).1 := movesTo_acceptChunk h kind text
  unfold observeChunk
  split
  · exact movesTo_of_sameTurn h ⟨rfl, rfl, rfl⟩
  · simp only
    split
    · exact ⟨regular_of_turn_eq hmoves.1 rfl, hmoves.2⟩
    · exact hmoves

theorem movesTo_surfaceRecommendation (h : tab.Regular) (set : RecommendationSet)
    (hturn : tab.turn.prompt = none ∨
      ∃ prompt, tab.turn = .submitted prompt ∨ tab.turn = .streaming prompt) :
    tab.MovesTo released (tab.surfaceRecommendation set) := by
  unfold surfaceRecommendation
  cases hprompt : tab.turn.prompt with
  | none => exact movesTo_of_sameTurn h ⟨rfl, rfl, rfl⟩
  | some prompt =>
    have hphase : tab.turn.phase = .inFlight prompt.id := by
      rcases hturn with hnone | ⟨prompt', hturn | hturn⟩
      · rw [hnone] at hprompt
        cases hprompt
      · rw [hturn] at hprompt ⊢
        cases hprompt
        rfl
      · rw [hturn] at hprompt ⊢
        cases hprompt
        rfl
    refine movesTo_of_inFlight hphase rfl ?_ (sameTurn_finishThought _).kept
      (sameTurn_finishThought _).completed
    rintro prompt' outcome hsurfaced
    cases hsurfaced
    exact .inl ⟨set, rfl⟩

/-! ### The end of a turn -/

theorem regular_of_free (hfree : tab.turn.phase = .free) : tab.Regular := by
  refine regular_of_not_surfaced fun prompt outcome hsurfaced => ?_
  rw [hsurfaced] at hfree
  cases hfree

theorem movesTo_finish (hphase : tab.turn.phase = .inFlight id)
    (hfree : tab'.turn.phase = .free)
    (hentries : tab'.completedTurns.length = tab.completedTurns.length ∨
      tab'.completedTurns.length = tab.completedTurns.length + 1) : tab.MovesTo released tab' := by
  refine ⟨regular_of_free hfree, fun cancelled => ?_⟩
  have heq : tab'.gate cancelled = { tab.gate cancelled with
      phase := .free
      kept := (tab'.gate cancelled).kept
      entries := tab'.completedTurns.length } := by
    simp only [gate, hfree]
  rw [heq]
  exact .finish _ _ hphase hentries

theorem movesTo_dismiss (hphase : tab.turn.phase = .free) (hfree : tab'.turn.phase = .free)
    (hentries : tab'.completedTurns.length = tab.completedTurns.length) :
    tab.MovesTo released tab' := by
  refine ⟨regular_of_free hfree, fun cancelled => ?_⟩
  have heq : tab'.gate cancelled = { tab.gate cancelled with
      kept := (tab'.gate cancelled).kept } := by
    simp only [gate, hfree, hphase, hentries]
  rw [heq]
  exact .dismiss _ hphase

theorem movesTo_free (hcancelling : tab.turn.isCancelling = false)
    (hfree : tab'.turn.phase = .free)
    (hentries : tab'.completedTurns.length = tab.completedTurns.length) :
    tab.MovesTo released tab' := by
  cases hphase : tab.turn.phase with
  | free => exact movesTo_dismiss hphase hfree hentries
  | inFlight id => exact movesTo_finish hphase hfree (.inl hentries)
  | cancelling id =>
    rw [TurnState.eq_cancelling_of_phase hphase] at hcancelling
    cases hcancelling

theorem releaseEndPending_of_surfaced
    (hturn : tab.turn = .surfaced prompt outcome true) :
    tab.releaseEndPending.turn.phase = .free ∧
      tab.releaseEndPending.completedTurns = tab.completedTurns := by
  unfold releaseEndPending
  rw [hturn]
  exact ⟨rfl, rfl⟩

theorem movesTo_release (tab' : TabSession) (hphase : tab.turn.phase = .inFlight id)
    (hturn : tab'.turn = .surfaced prompt outcome true)
    (hentries : tab'.completedTurns.length = tab.completedTurns.length ∨
      tab'.completedTurns.length = tab.completedTurns.length + 1) :
    tab.MovesTo released tab'.releaseEndPending ∧
      tab.MovesTo released tab'.releaseEndPending.finishThought := by
  obtain ⟨hfree, hcompleted⟩ := releaseEndPending_of_surfaced hturn
  have hsame := sameTurn_finishThought tab'.releaseEndPending
  constructor
  · exact movesTo_finish hphase hfree (by rwa [hcompleted])
  · exact movesTo_finish hphase (by rw [hsame.turn]; exact hfree)
      (by rwa [hsame.completed, hcompleted])

theorem commitRecommendationHistory_of_surfaced (texts : Texts) (summary : String) {pending : Bool}
    (hturn : tab.turn = .surfaced prompt outcome pending) :
    (tab.commitRecommendationHistory texts summary).turn = .surfaced prompt outcome pending ∧
      (tab.commitRecommendationHistory texts summary).completedTurns.length =
        tab.completedTurns.length + 1 := by
  have hprompt : tab.turn.prompt = some prompt := by
    rw [hturn]
    rfl
  rw [commitRecommendationHistory, hprompt]
  obtain ⟨hsame, -, hlength⟩ := pushed_takeCurrentTurnDetails tab {
    prompt := prompt.label texts
    details := tab.currentTurnDetails ++ [.agent summary]
    expanded := true
    trailingMarker := none }
  exact ⟨hsame.trans hturn, hlength⟩

theorem movesTo_closeFinalizeAutofixText (texts : Texts)
    (hphase : tab.turn.phase = .inFlight prompt.id) :
    tab.MovesTo released (tab.closeFinalizeAutofixText texts prompt).finishThought := by
  unfold closeFinalizeAutofixText
  split
  · refine (movesTo_release (tab.surfaceExplain texts prompt) hphase rfl (.inr ?_)).2
    simp only [surfaceExplain]
    rw [(sameTurn_finishThought _).completed]
    exact (pushed_takeCurrentTurnDetails tab _).2.2
  · simp only
    refine movesTo_finish hphase (by rw [(sameTurn_finishThought _).turn]; rfl) ?_
    rw [(sameTurn_finishThought _).completed]
    split
    · left
      exact congrArg List.length (sameTurn_takeCurrentTurnDetails tab).completed
    · right
      exact (pushed_takeCurrentTurnDetails tab _).2.2

theorem movesTo_closeFinalizeChat
    (hphase : tab.turn.phase = .inFlight prompt.id) :
    tab.MovesTo released (tab.closeFinalizeChat prompt).finishThought :=
  (movesTo_release { tab.takeCurrentTurnDetails.pushCompletedTurn _ with
    turn := .surfaced prompt .chatTurn true } hphase rfl
    (.inr (pushed_takeCurrentTurnDetails tab _).2.2)).2

theorem movesTo_close (h : tab.Regular) (texts : Texts) :
    tab.MovesTo released (tab.close texts) := by
  unfold close
  split
  · exact movesTo_of_sameTurn h ⟨rfl, rfl, rfl⟩
  · next hcancelling =>
    rw [Bool.not_eq_true] at hcancelling
    split
    · refine movesTo_free hcancelling rfl ?_
      simp only [dropCurrentMessages]
      split
      · exact congrArg List.length (sameTurn_finishThought tab).completed
      · exact congrArg List.length (sameTurn_finishThought tab).completed
    · simp only
      have hmeant : SameTurn tab
          (if tab.turn = .idle then tab else { tab with hasMeaningfulConversation := true }) := by
        split <;> exact ⟨rfl, rfl, rfl⟩
      generalize (if tab.turn = .idle then tab else { tab with hasMeaningfulConversation := true }) =
        tab₁ at hmeant
      suffices hclose : tab₁.MovesTo released _ by
        refine ⟨hclose.1, fun cancelled => ?_⟩
        have heq : tab₁.gate cancelled = tab.gate cancelled := by
          simp only [gate, hmeant.turn, hmeant.kept, hmeant.completed]
        rw [← heq]
        exact hclose.2 cancelled
      have hregular : tab₁.Regular := regular_of_turn_eq h hmeant.turn
      split
      · next prompt set hturn =>
        obtain ⟨hcommitted, hlength⟩ := commitRecommendationHistory_of_surfaced texts
          (Proposals.formatRecommendationsForChat set none) hturn
        exact (movesTo_release _ (by rw [hturn]; rfl) hcommitted (.inr hlength)).2
      · next prompt summary hturn =>
        obtain ⟨-, hlength⟩ := commitRecommendationHistory_of_surfaced texts summary hturn
        exact (movesTo_release { tab₁.commitRecommendationHistory texts summary with
          turn := .surfaced prompt .empty true } (by rw [hturn]; rfl) rfl (.inr hlength)).2
      · next hturn => exact (movesTo_release _ (by rw [hturn]; rfl) hturn (.inl rfl)).2
      · next prompt hturn =>
        have hphase : tab₁.turn.phase = .inFlight prompt.id := by rw [hturn]; rfl
        exact (movesTo_release { tab₁ with turn := .surfaced prompt .empty true } hphase rfl
          (.inl rfl)).2
      · next prompt hturn =>
        have hphase : tab₁.turn.phase = .inFlight prompt.id := by rw [hturn]; rfl
        split
        · exact movesTo_closeFinalizeAutofixText texts hphase
        · exact movesTo_closeFinalizeChat hphase
      all_goals exact movesTo_of_sameTurn hregular ⟨rfl, rfl, rfl⟩

theorem movesTo_settle (hturn : tab.turn = .cancelling id) (hreleased : released id)
    (hfree : tab'.turn = .idle) (hcompleted : tab'.completedTurns = tab.completedTurns) :
    tab.MovesTo released tab' := by
  refine ⟨regular_of_free (by rw [hfree]; rfl), fun cancelled => ?_⟩
  have heq : tab'.gate cancelled = { tab.gate cancelled with
      phase := .free
      kept := (tab'.gate cancelled).kept } := by
    simp only [gate, hfree, hcompleted]
    rfl
  rw [heq]
  exact .settle _ (by rw [gate, hturn]; rfl) hreleased

/-! ### Cancelling and executing -/

/-- The token that a cancellation of the turn reaches. -/
def reachedToken (tab : TabSession) : Option ℕ :=
  if tab.turn.isInFlight then tab.turn.promptId.bind tab.cancelActivePrompt else none

theorem commitCancelled_of_inFlight (h : tab.Regular) (texts : Texts) (userCancelled : Bool)
    (hflight : tab.turn.isInFlight = true) :
    (tab.commitCancelled texts userCancelled).activePromptCancellation =
        tab.activePromptCancellation ∧
      (tab.commitCancelled texts userCancelled).completedTurns.length =
        tab.completedTurns.length + 1 := by
  unfold commitCancelled
  cases hturn : tab.turn with
  | idle => rw [hturn] at hflight; cases hflight
  | cancelling => rw [hturn] at hflight; cases hflight
  | submitted prompt => exact (pushed_takeCurrentTurnDetails tab _).2
  | streaming prompt => exact (pushed_takeCurrentTurnDetails tab _).2
  | surfaced prompt outcome pending =>
    rw [hturn] at hflight
    cases pending with
    | false => cases hflight
    | true =>
      rcases h prompt outcome hturn with ⟨set, rfl⟩ | ⟨summary, rfl⟩
      · exact (pushed_takeCurrentTurnDetails tab _).2
      · exact (pushed_takeCurrentTurnDetails tab _).2

theorem length_commitCancelled_of_free (texts : Texts) (userCancelled : Bool)
    (hfree : tab.turn.phase = .free) :
    (tab.commitCancelled texts userCancelled).completedTurns.length =
      tab.completedTurns.length := by
  unfold commitCancelled
  cases hturn : tab.turn with
  | idle => rfl
  | cancelling => rfl
  | submitted => rw [hturn] at hfree; cases hfree
  | streaming => rw [hturn] at hfree; cases hfree
  | surfaced prompt outcome pending =>
    cases pending with
    | true => rw [hturn] at hfree; cases hfree
    | false =>
      cases outcome with
      | recommendation => exact length_completedTurns_resolveLastTurn tab _ _
      | resolvedRecommendation => rfl
      | chatTurn => rfl
      | empty => rfl

theorem move_teardown (released : ℕ → Prop) (h : tab.Regular) (hcancelling : tab.turn.isCancelling = false)
    (texts : Texts) (userCancelled : Bool) :
    (tab.teardown texts userCancelled).Regular ∧ ∀ cancelled,
      Gate.Move released (tab.gate cancelled)
        ((tab.teardown texts userCancelled).gate (tab.reachedToken.toList ++ cancelled)) := by
  have hfinish : ∀ tab₁ : TabSession, tab₁.finishThought.completedTurns = tab₁.completedTurns :=
    fun tab₁ => (sameTurn_finishThought tab₁).completed
  have hkept : ∀ tab₁ : TabSession,
      tab₁.finishThought.activePromptCancellation = tab₁.activePromptCancellation :=
    fun tab₁ => (sameTurn_finishThought tab₁).kept
  by_cases hflight : tab.turn.isInFlight = true
  · obtain ⟨id, hphase⟩ := TurnState.exists_phase_of_isInFlight hflight
    obtain ⟨-, -, hid⟩ := TurnState.of_phase_inFlight hphase
    have hregular : { tab with autofixGeneration := tab.autofixGeneration + 1 }.Regular :=
      regular_of_turn_eq h rfl
    obtain ⟨hsame, hlength⟩ := commitCancelled_of_inFlight hregular texts userCancelled hflight
    refine ⟨?_, fun cancelled => ?_⟩
    · refine regular_of_not_surfaced fun prompt outcome hsurfaced => ?_
      simp only [teardown, hflight, if_true, hid] at hsurfaced
      cases hsurfaced
    · have heq : (tab.teardown texts userCancelled).gate (tab.reachedToken.toList ++ cancelled) =
          { tab.gate cancelled with
            phase := .cancelling id
            entries := (tab.gate cancelled).entries + 1
            cancelled := tab.reachedToken.toList ++ cancelled } := by
        simp only [gate, teardown, hflight, if_true, hid, Option.bind_some, hfinish, hkept, hsame,
          hlength]
        rfl
      rw [heq]
      refine .cancel _ hphase (List.subset_append_right _ _) fun token hactive => ?_
      obtain ⟨active, hsome, heq⟩ := Option.map_eq_some_iff.mp hactive
      have htoken : tab.reachedToken = some token := by
        rw [reachedToken, if_pos hflight, hid, Option.bind_some, cancelActivePrompt, hsome,
          Option.filter_some, if_pos (by simp [(Prod.mk.inj heq).1]), Option.map_some,
          (Prod.mk.inj heq).2]
      rw [htoken]
      exact List.mem_cons_self
  · have hfree := TurnState.phase_free_of_not hflight hcancelling
    rw [reachedToken, if_neg hflight]
    refine movesTo_dismiss hfree ?_ ?_
    · simp only [teardown, hflight]
      rfl
    · simp only [teardown, hfinish]
      exact length_commitCancelled_of_free texts userCancelled hfree

theorem movesTo_resolveCard (h : tab.Regular) (old executed : String) :
    tab.MovesTo released (tab.resolveCard old executed) := by
  unfold resolveCard
  split
  · next prompt outcome pending hturn =>
    simp only
    cases pending with
    | true =>
      have hphase : tab.turn.phase = .inFlight prompt.id := by
        rw [hturn]
        rfl
      refine movesTo_of_inFlight hphase rfl ?_ rfl rfl
      rintro prompt' outcome' hsurfaced
      cases hsurfaced
      exact .inr ⟨executed, rfl⟩
    | false =>
      refine movesTo_dismiss (by rw [hturn]; rfl) rfl ?_
      exact length_completedTurns_resolveLastTurn _ _ _
  · exact movesTo_of_sameTurn h ⟨rfl, rfl, rfl⟩

theorem movesTo_executed (h : tab.Regular) (promptId : ℕ) (old executed : String) :
    tab.MovesTo released
      ({ tab with pendingQueueAction := some promptId }.resolveCard old executed) := by
  have hregular : { tab with pendingQueueAction := some promptId }.Regular :=
    regular_of_turn_eq h rfl
  exact movesTo_resolveCard hregular old executed

end TabSession

end IntelligentTerminal.Turns
