import IntelligentTerminal.Vt.StateMachine

/-!
# Controls inside a DCS introducer

A device control string begins with an introducer: parameters, intermediates and a final character,
at which the engine is asked for a handler. Controls inside the introducer are ignored. In
`_EventDcsParam` the test for parameters is not an alternative to the tests for controls, so that a
control behind a parameter is ignored first and then taken for the final character.

Source: `src/terminal/parser/stateMachine.cpp`, lines 1652-1791.
-/

namespace IntelligentTerminal.Vt

open Buffer (WChar)

/-! ### Introducers -/

/-- The characters that are ignored: C0 controls but CAN, SUB and ESC, and DEL. -/
def isIgnoredControl (wch : WChar) : Bool := isC0Code wch || isDelete wch

/-- The characters of parameters. -/
def isDcsParameter (wch : WChar) : Bool := isNumericParamValue wch || isParameterDelimiter wch

/-- The final characters. -/
def isDcsFinal (wch : WChar) : Bool :=
  0x40 ≤ wch && !isDelete wch && !isC1ControlCharacter wch

/-- An introducer, behind `ESC P`. -/
structure IsIntroducer (parameters intermediates : List WChar) (final : WChar) : Prop where
  parameters : ∀ wch ∈ parameters, isDcsParameter wch
  intermediates : ∀ wch ∈ intermediates, isIntermediate wch
  final : isDcsFinal final

/-- A control stands in front of all parameters, or behind an intermediate. -/
def ControlsOutsideParameters (w : List WChar) : Prop :=
  ∀ u wch v, w = u ++ wch :: v → isIgnoredControl wch →
    (∀ x ∈ u, isIgnoredControl x) ∨ ∃ x ∈ u, isIntermediate x

/-! ### Recording -/

section Record

variable {σ κ : Type}

/-- The strings that an engine has been asked to handle. -/
abbrev DcsRecord := List (VTID × VTParameters)

/-- The engine next to its record. -/
def recordLens : HostLens σ κ (σ × DcsRecord) κ where
  get h := { h with engine := h.engine.1 }
  set h h' := { h with engine := (h.engine, h'.engine.2) }

/-- An engine that records the strings that it is asked to handle. -/
def recordDcs (e : IStateMachineEngine σ κ) : IStateMachineEngine (σ × DcsRecord) κ :=
  { e.lift recordLens with
    actionDcsDispatch := fun id parameters h =>
      let (h, handler) := (e.lift recordLens).actionDcsDispatch id parameters h
      ({ h with engine := (h.engine.1, h.engine.2 ++ [(id, parameters)]) }, handler) }

/-- What has been recorded. -/
def dispatched (m : StateMachine (σ × DcsRecord) κ) : DcsRecord := m.host.engine.2

end Record

/-! ### Classes of characters -/

section Classes

variable {wch : WChar}

theorem StateMachine.IsPlain.of_control (h : isIgnoredControl wch) : StateMachine.IsPlain wch := by
  constructor <;> grind [isIgnoredControl, isC0Code, isDelete, isC1ControlCharacter,
    StateMachine.isFromAnywhereChar, isEscape, esc, can, sub]

theorem StateMachine.IsPlain.of_parameter (h : isDcsParameter wch) : StateMachine.IsPlain wch := by
  constructor <;> grind [isDcsParameter, isNumericParamValue, isParameterDelimiter,
    isC1ControlCharacter, StateMachine.isFromAnywhereChar, isEscape, esc, can, sub]

theorem StateMachine.IsPlain.of_intermediate (h : isIntermediate wch) :
    StateMachine.IsPlain wch := by
  constructor <;> grind [isIntermediate, isC1ControlCharacter, StateMachine.isFromAnywhereChar,
    isEscape, esc, can, sub]

theorem StateMachine.IsPlain.of_final (h : isDcsFinal wch) : StateMachine.IsPlain wch := by
  constructor <;> grind [isDcsFinal, isDelete, isC1ControlCharacter,
    StateMachine.isFromAnywhereChar, isEscape, esc, can, sub]

theorem notControl_of_parameter (h : isDcsParameter wch) :
    isC0Code wch = false ∧ isDelete wch = false := by
  constructor <;> grind [isDcsParameter, isNumericParamValue, isParameterDelimiter, isC0Code,
    isDelete]

theorem notControl_of_intermediate (h : isIntermediate wch) :
    isC0Code wch = false ∧ isDelete wch = false := by
  constructor <;> grind [isIntermediate, isC0Code, isDelete]

theorem notParameter_of_intermediate (h : isIntermediate wch) :
    isDcsParameter wch = false ∧ isIntermediateInvalid wch = false := by
  constructor <;> grind [isIntermediate, isDcsParameter, isNumericParamValue, isParameterDelimiter,
    isIntermediateInvalid, isSubParameterDelimiter, isCsiPrivateMarker]

theorem notCollected_of_final (h : isDcsFinal wch) :
    isC0Code wch = false ∧ isDelete wch = false ∧ isIntermediate wch = false ∧
      isDcsParameter wch = false ∧ isIntermediateInvalid wch = false := by
  refine ⟨?_, ?_, ?_, ?_, ?_⟩ <;> grind [isDcsFinal, isC0Code, isDelete, isIntermediate,
    isDcsParameter, isNumericParamValue, isParameterDelimiter, isIntermediateInvalid,
    isSubParameterDelimiter, isCsiPrivateMarker]

theorem bound_of_control (h : isIgnoredControl wch) : wch ≤ 0x1F ∨ wch = 0x7F := by
  grind [isIgnoredControl, isC0Code, isDelete]

theorem notCollected_of_control (h : isIgnoredControl wch) :
    isIntermediate wch = false ∧ isDcsParameter wch = false ∧
      isIntermediateInvalid wch = false := by
  have hbound := bound_of_control h
  refine ⟨?_, ?_, ?_⟩ <;> grind [isIntermediate, isDcsParameter, isNumericParamValue,
    isParameterDelimiter, isIntermediateInvalid, isSubParameterDelimiter, isCsiPrivateMarker]

theorem notInvalid_of_intermediateInvalid (h : isIntermediateInvalid wch = false) :
    isSubParameterDelimiter wch = false ∧ isParameterInvalid wch = false := by
  constructor <;> grind [isIntermediateInvalid, isParameterInvalid]

end Classes

namespace StateMachine

/-! ### One character of an introducer -/

section Step

variable {σ κ : Type} {e : IStateMachineEngine σ κ}
  {callback : κ → StateMachine σ κ → Option (StateMachine σ κ)} {m : StateMachine σ κ} {wch : WChar}

theorem processCharacter_control (hm : m.state = .dcsEntry ∨ m.state = .dcsIntermediate)
    (h : isIgnoredControl wch) : m.processCharacter e callback wch = some m := by
  rw [processCharacter_of_isPlain (.of_control h)]
  have hcontrol : isC0Code wch = true ∨ isDelete wch = true := by
    simpa [isIgnoredControl] using h
  rcases hm with hm | hm <;> rcases hcontrol with hc0 | hdelete
  · simp [event, hm, eventDcsEntry, hc0, actionIgnore]
  · simp [event, hm, eventDcsEntry, hdelete, actionIgnore]
  · simp [event, hm, eventDcsIntermediate, hc0, actionIgnore]
  · simp [event, hm, eventDcsIntermediate, hdelete, actionIgnore]

theorem processCharacter_parameter (hm : m.state = .dcsEntry ∨ m.state = .dcsParam)
    (h : isDcsParameter wch) :
    m.processCharacter e callback wch = some ((m.actionParam wch).enter .dcsParam) := by
  rw [processCharacter_of_isPlain (.of_parameter h)]
  obtain ⟨hc0, hdelete⟩ := notControl_of_parameter h
  have hsub : isSubParameterDelimiter wch = false := by
    grind [isDcsParameter, isNumericParamValue, isParameterDelimiter, isSubParameterDelimiter]
  rw [isDcsParameter] at h
  rcases hm with hm | hm
  · simp [event, hm, eventDcsEntry, hc0, hdelete, hsub, h]
  · have henter : (m.actionParam wch).enter .dcsParam = m.actionParam wch := by
      rw [← actionParam_enter, ← hm]
      rfl
    simp [event, hm, eventDcsParam, hc0, hdelete, h, henter]

theorem processCharacter_intermediate
    (hm : m.state = .dcsEntry ∨ m.state = .dcsParam ∨ m.state = .dcsIntermediate)
    (h : isIntermediate wch) :
    m.processCharacter e callback wch = some ((m.actionCollect wch).enter .dcsIntermediate) := by
  rw [processCharacter_of_isPlain (.of_intermediate h)]
  obtain ⟨hc0, hdelete⟩ := notControl_of_intermediate h
  obtain ⟨hparam, hinvalid⟩ := notParameter_of_intermediate h
  obtain ⟨hsub, -⟩ := notInvalid_of_intermediateInvalid hinvalid
  rw [isDcsParameter] at hparam
  rcases hm with hm | hm | hm
  · simp [event, hm, eventDcsEntry, hc0, hdelete, hsub, hparam, h]
  · simp [event, hm, eventDcsParam, hc0, hdelete, hparam, h]
  · have henter : (m.actionCollect wch).enter .dcsIntermediate = m.actionCollect wch := by
      rw [← hm]
      rfl
    simp [event, hm, eventDcsIntermediate, hc0, hdelete, h, henter]

theorem processCharacter_final
    (hm : m.state = .dcsEntry ∨ m.state = .dcsParam ∨ m.state = .dcsIntermediate)
    (h : isDcsFinal wch) :
    m.processCharacter e callback wch = some (m.actionDcsDispatch e wch) := by
  rw [processCharacter_of_isPlain (.of_final h)]
  obtain ⟨hc0, hdelete, hinter, hparam, hinvalid⟩ := notCollected_of_final h
  obtain ⟨hsub, hprivate⟩ := notInvalid_of_intermediateInvalid hinvalid
  rw [isDcsParameter] at hparam
  rcases hm with hm | hm | hm
  · simp [event, hm, eventDcsEntry, hc0, hdelete, hsub, hparam, hinter]
  · simp [event, hm, eventDcsParam, hc0, hdelete, hsub, hprivate, hparam, hinter]
  · simp [event, hm, eventDcsIntermediate, hc0, hdelete, hinvalid, hinter]

theorem processCharacter_control_dcsParam (hm : m.state = .dcsParam) (h : isIgnoredControl wch) :
    m.processCharacter e callback wch = some (m.actionDcsDispatch e wch) := by
  rw [processCharacter_of_isPlain (.of_control h)]
  obtain ⟨hinter, hparam, hinvalid⟩ := notCollected_of_control h
  obtain ⟨hsub, hprivate⟩ := notInvalid_of_intermediateInvalid hinvalid
  rw [isDcsParameter] at hparam
  simp [event, hm, eventDcsParam, actionIgnore, hsub, hprivate, hparam, hinter]

end Step

/-! ### Introducers without controls -/

section Introducer

variable {σ κ : Type} {e : IStateMachineEngine σ κ}
  {callback : κ → StateMachine σ κ → Option (StateMachine σ κ)} {m : StateMachine σ κ}

/-- The state in front of the final character. -/
def introducerState (parameters intermediates : List WChar) : VTStates :=
  if intermediates ≠ [] then .dcsIntermediate
  else if parameters ≠ [] then .dcsParam
  else .dcsEntry

/-- The machine in front of the final character. -/
def introduced (m : StateMachine σ κ) (parameters intermediates : List WChar) : StateMachine σ κ :=
  (intermediates.foldl actionCollect (parameters.foldl actionParam m)).enter
    (introducerState parameters intermediates)

theorem introduced_parameter (m : StateMachine σ κ) (parameters : List WChar) (wch : WChar) :
    ((m.introduced parameters []).actionParam wch).enter .dcsParam =
      m.introduced (parameters ++ [wch]) [] := by
  rw [introduced, introduced, actionParam_enter, List.foldl_append]
  simp [introducerState, enter]

theorem introduced_intermediate (m : StateMachine σ κ) (parameters intermediates : List WChar)
    (wch : WChar) :
    ((m.introduced parameters intermediates).actionCollect wch).enter .dcsIntermediate =
      m.introduced parameters (intermediates ++ [wch]) := by
  rw [introduced, introduced, List.foldl_append]
  simp [introducerState, enter, actionCollect]

theorem processCharacters_introducer (hm : m.state = .dcsEntry) (w : List WChar) :
    ∀ parameters intermediates : List WChar, (∀ wch ∈ parameters, isDcsParameter wch) →
      (∀ wch ∈ intermediates, isIntermediate wch) →
      w.filter (fun wch => !isIgnoredControl wch) = parameters ++ intermediates →
      ControlsOutsideParameters w →
      processCharacters e callback w m = some (m.introduced parameters intermediates) := by
  induction w using List.reverseRecOn with
  | nil =>
    intro parameters intermediates _ _ hfilter _
    obtain ⟨rfl, rfl⟩ := List.append_eq_nil_iff.mp hfilter.symm
    simp [processCharacters, introduced, introducerState, enter, ← hm]
  | append_singleton w wch ih =>
    intro parameters intermediates hparameters hintermediates hfilter houtside
    have hprefix : ControlsOutsideParameters w := fun u c v hsplit =>
      houtside u c (v ++ [wch]) (by rw [hsplit, List.append_assoc, List.cons_append])
    rw [processCharacters_append]
    by_cases hcontrol : isIgnoredControl wch = true
    · have hw : w.filter (fun wch => !isIgnoredControl wch) = parameters ++ intermediates := by
        rw [← hfilter, List.filter_append]
        simp [hcontrol]
      rw [ih parameters intermediates hparameters hintermediates hw hprefix, Option.bind_some,
        processCharacters_singleton]
      refine processCharacter_control ?_ hcontrol
      rcases houtside w wch [] rfl hcontrol with hall | ⟨x, hx, hinter⟩
      · left
        have hnil : w.filter (fun wch => !isIgnoredControl wch) = [] := by
          rw [List.filter_eq_nil_iff]
          intro x hx
          simp [hall x hx]
        obtain ⟨rfl, rfl⟩ := List.append_eq_nil_iff.mp (hw.symm.trans hnil)
        rfl
      · right
        have hmem : x ∈ parameters ++ intermediates := by
          rw [← hw, List.mem_filter]
          obtain ⟨hc0, hdelete⟩ := notControl_of_intermediate hinter
          simp [hx, isIgnoredControl, hc0, hdelete]
        have hne : intermediates ≠ [] := by
          rintro rfl
          rw [List.append_nil] at hmem
          have hparam := hparameters x hmem
          rw [(notParameter_of_intermediate hinter).1] at hparam
          cases hparam
        simp [introduced, introducerState, enter, hne]
    · replace hfilter : w.filter (fun wch => !isIgnoredControl wch) ++ [wch] =
          parameters ++ intermediates := by
        rw [← hfilter, List.filter_append]
        simp [hcontrol]
      rcases List.eq_nil_or_concat intermediates with rfl | ⟨front, last, rfl⟩
      · rw [List.append_nil] at hfilter
        obtain ⟨front, rfl⟩ : ∃ front, parameters = front ++ [wch] := ⟨_, hfilter.symm⟩
        have hfront : w.filter (fun wch => !isIgnoredControl wch) = front ++ [] := by
          rw [List.append_nil]
          exact List.append_cancel_right hfilter
        rw [ih front [] (fun x hx => hparameters x (List.mem_append_left _ hx)) (by simp) hfront
          hprefix, Option.bind_some, processCharacters_singleton,
          processCharacter_parameter ?_ (hparameters wch (by simp)), introduced_parameter]
        by_cases hfront : front = [] <;> simp [introduced, introducerState, enter, hfront]
      · rw [List.concat_eq_append, ← List.append_assoc] at hfilter
        obtain ⟨hfront, hlast⟩ := List.append_inj' hfilter rfl
        obtain rfl : wch = last := by simpa using hlast
        rw [List.concat_eq_append] at hintermediates ⊢
        rw [ih parameters front hparameters
          (fun x hx => hintermediates x (List.mem_append_left _ hx)) hfront hprefix,
          Option.bind_some, processCharacters_singleton,
          processCharacter_intermediate ?_ (hintermediates wch (by simp)),
          introduced_intermediate]
        by_cases hparam : parameters = [] <;> by_cases hfront : front = [] <;>
          simp [introduced, introducerState, enter, hparam, hfront]

theorem host_introduced (m : StateMachine σ κ) (parameters intermediates : List WChar) :
    (m.introduced parameters intermediates).host = m.host := by
  have hcollect (m : StateMachine σ κ) : (intermediates.foldl actionCollect m).host = m.host := by
    induction intermediates generalizing m with
    | nil => rfl
    | cons wch intermediates ih => exact ih (m.actionCollect wch)
  have hparam (m : StateMachine σ κ) : (parameters.foldl actionParam m).host = m.host := by
    induction parameters generalizing m with
    | nil => rfl
    | cons wch parameters ih => exact (ih (m.actionParam wch)).trans (m.actionParam_host wch)
  exact (hcollect _).trans (hparam m)

theorem identifier_introduced (m : StateMachine σ κ) (parameters intermediates : List WChar) :
    (m.introduced parameters intermediates).identifier =
      intermediates.foldl VTIDBuilder.addIntermediate m.identifier := by
  have hcollect (m : StateMachine σ κ) : (intermediates.foldl actionCollect m).identifier =
      intermediates.foldl VTIDBuilder.addIntermediate m.identifier := by
    induction intermediates generalizing m with
    | nil => rfl
    | cons wch intermediates ih => exact ih (m.actionCollect wch)
  have hparam (m : StateMachine σ κ) :
      (parameters.foldl actionParam m).identifier = m.identifier := by
    induction parameters generalizing m with
    | nil => rfl
    | cons wch parameters ih =>
      exact (ih (m.actionParam wch)).trans (m.actionParam_identifier wch)
  rw [← hparam m]
  exact hcollect _

theorem vtParameters_introduced (m : StateMachine σ κ) (parameters intermediates : List WChar) :
    (m.introduced parameters intermediates).vtParameters =
      (parameters.foldl actionParam m).vtParameters := by
  have hcollect (m : StateMachine σ κ) :
      (intermediates.foldl actionCollect m).vtParameters = m.vtParameters := by
    induction intermediates generalizing m with
    | nil => rfl
    | cons wch intermediates ih => exact ih (m.actionCollect wch)
  exact hcollect _

theorem identifier_of_entry {m₀ : StateMachine σ κ}
    (hentry : processCharacters e callback [esc, 0x50] m = some m₀) (hm₀ : m₀.state = .dcsEntry) :
    m₀.identifier = {} := by
  obtain ⟨m₁, rfl⟩ := exists_eventEscape ⟨rfl, rfl, rfl⟩ rfl hentry
  have hevent : (m₁.enterCleared .escape).eventEscape e 0x50 =
      if m₁.host.ansi then (m₁.enterCleared .escape).enterCleared .dcsEntry
      else ((m₁.enterCleared .escape).actionVt52EscDispatch e 0x50).enterGround := rfl
  rw [hevent] at hm₀ ⊢
  split_ifs at hm₀ ⊢
  · rfl
  · cases hm₀

end Introducer

/-! ### Behind the final character -/

section Dispatched

variable {σ κ : Type} (e : IStateMachineEngine σ κ)
  (callback : κ → StateMachine (σ × DcsRecord) κ → Option (StateMachine (σ × DcsRecord) κ))
  {m : StateMachine (σ × DcsRecord) κ}

/-- The string has been dispatched, to a handler that records nothing. -/
structure HasDispatched (m : StateMachine (σ × DcsRecord) κ) : Prop where
  state : m.state = .dcsPassThrough ∨ m.state = .dcsIgnore
  handler : ∀ handler, m.dcsStringHandler = some handler →
    ∀ wch h, (handler wch h).1.engine.2 = h.engine.2

theorem hasDispatched_actionDcsDispatch (m : StateMachine (σ × DcsRecord) κ) (wch : WChar) :
    HasDispatched (m.actionDcsDispatch (recordDcs e) wch) ∧
      dispatched (m.actionDcsDispatch (recordDcs e) wch) =
        dispatched m ++ [(m.identifier.finalize wch, m.vtParameters)] := by
  obtain ⟨⟨host, handler⟩, hcall⟩ : ∃ result, result = e.actionDcsDispatch
      (m.identifier.finalize wch) m.vtParameters (recordLens.get m.host) := ⟨_, rfl⟩
  have hrecord : (recordDcs e).actionDcsDispatch (m.identifier.finalize wch) m.vtParameters m.host =
      ({ recordLens.set host m.host with
          engine := (host.engine,
            dispatched m ++ [(m.identifier.finalize wch, m.vtParameters)]) },
        handler.map fun handler wch => recordLens.lift (handler wch)) := by
    simp only [recordDcs, IStateMachineEngine.lift, HostLens.lift, ← hcall]
    rfl
  rw [actionDcsDispatch, hrecord]
  cases handler with
  | none => exact ⟨⟨.inr rfl, by rintro _ ⟨⟩⟩, rfl⟩
  | some handler =>
    refine ⟨⟨.inl rfl, ?_⟩, rfl⟩
    rintro _ ⟨⟩ c h
    rfl

theorem HasDispatched.processCharacter (h : HasDispatched m) {wch : WChar} (hwch : IsPlain wch) :
    ∃ m', m.processCharacter (recordDcs e) callback wch = some m' ∧ HasDispatched m' ∧
      dispatched m' = dispatched m := by
  rw [processCharacter_of_isPlain hwch]
  rcases h.state with hm | hm
  · have hevent : m.event (recordDcs e) callback wch = some (m.eventDcsPassThrough wch) := by
      simp [event, hm]
    refine ⟨m.eventDcsPassThrough wch, hevent, ?_⟩
    rw [eventDcsPassThrough]
    split_ifs
    · cases hhandler : m.dcsStringHandler with
      | none =>
        simp only [callDcsStringHandler, hhandler]
        exact ⟨⟨.inr rfl, h.handler⟩, rfl⟩
      | some handler =>
        have hkeeps := h.handler handler hhandler wch m.host
        simp only [callDcsStringHandler, hhandler]
        split_ifs
        · exact ⟨⟨.inr rfl, fun f hf => h.handler f (hhandler.trans hf)⟩, hkeeps⟩
        · exact ⟨⟨.inl hm, fun f hf => h.handler f (hhandler.trans hf)⟩, hkeeps⟩
    · exact ⟨h, rfl⟩
  · exact ⟨m, by simp [event, hm, eventDcsIgnore, actionIgnore], h, rfl⟩

theorem HasDispatched.processCharacters {w : List WChar} (hw : ∀ wch ∈ w, IsPlain wch)
    (h : HasDispatched m) :
    ∃ m', StateMachine.processCharacters (recordDcs e) callback w m = some m' ∧
      dispatched m' = dispatched m := by
  induction w generalizing m with
  | nil => exact ⟨m, rfl, rfl⟩
  | cons wch w ih =>
    obtain ⟨m₁, hstep, h₁, heq₁⟩ := h.processCharacter e callback (hw wch List.mem_cons_self)
    obtain ⟨m₂, hrun, heq₂⟩ := ih (fun x hx => hw x (List.mem_cons_of_mem _ hx)) h₁
    exact ⟨m₂, by rw [StateMachine.processCharacters, hstep, Option.bind_some, hrun],
      heq₂.trans heq₁⟩

end Dispatched

end StateMachine

/-! ### Dispatching -/

theorem exists_first_of_not_outside {w : List WChar} (h : ¬ ControlsOutsideParameters w) :
    ∃ u wch v, w = u ++ wch :: v ∧ isIgnoredControl wch ∧ (∃ x ∈ u, ¬ isIgnoredControl x) ∧
      (∀ x ∈ u, ¬ isIntermediate x) ∧ ControlsOutsideParameters u := by
  induction w using List.reverseRecOn with
  | nil =>
    refine absurd (fun u wch v hsplit => ?_) h
    simp at hsplit
  | append_singleton w last ih =>
    by_cases hw : ControlsOutsideParameters w
    · rw [ControlsOutsideParameters] at h
      push Not at h
      obtain ⟨u, wch, v, hsplit, hcontrol, hbehind, hfront⟩ := h
      refine ⟨u, wch, v, hsplit, hcontrol, hbehind, hfront, ?_⟩
      intro u' c v' hu hc
      rcases List.eq_nil_or_concat v with rfl | ⟨front, x, rfl⟩
      · obtain ⟨rfl, -⟩ := List.append_inj' hsplit rfl
        exact hw u' c v' hu hc
      · have hsplit' : w ++ [last] = (u ++ wch :: front) ++ [x] := by
          rw [hsplit, List.concat_eq_append, List.append_assoc, List.cons_append]
        obtain ⟨rfl, -⟩ := List.append_inj' hsplit' rfl
        refine hw u' c (v' ++ wch :: front) ?_ hc
        rw [hu, List.append_assoc, List.cons_append]
    · obtain ⟨u, wch, v, rfl, hcontrol, hrest⟩ := ih hw
      exact ⟨u, wch, v ++ [last], by rw [List.append_assoc, List.cons_append], hcontrol, hrest⟩

theorem controlsOutsideParameters_of_forall {w : List WChar}
    (h : ∀ wch ∈ w, isIgnoredControl wch = false) : ControlsOutsideParameters w := by
  intro u wch v hsplit hcontrol
  have hwch := h wch (by rw [hsplit]; exact List.mem_append_right _ List.mem_cons_self)
  rw [hwch] at hcontrol
  cases hcontrol

section Dispatch

open StateMachine

variable {σ κ : Type} (e : IStateMachineEngine σ κ)
  (callback : κ → StateMachine (σ × DcsRecord) κ → Option (StateMachine (σ × DcsRecord) κ))
  {m : StateMachine (σ × DcsRecord) κ} {parameters intermediates : List WChar} {final : WChar}
  {w : List WChar}

theorem IsIntroducer.filter (h : IsIntroducer parameters intermediates final) :
    (parameters ++ intermediates).filter (fun wch => !isIgnoredControl wch) =
      parameters ++ intermediates := by
  rw [List.filter_eq_self]
  intro wch hwch
  rcases List.mem_append.mp hwch with hparam | hinter
  · obtain ⟨hc0, hdelete⟩ := notControl_of_parameter (h.parameters wch hparam)
    simp [isIgnoredControl, hc0, hdelete]
  · obtain ⟨hc0, hdelete⟩ := notControl_of_intermediate (h.intermediates wch hinter)
    simp [isIgnoredControl, hc0, hdelete]

theorem dispatched_introduced (m : StateMachine (σ × DcsRecord) κ)
    (parameters intermediates : List WChar) :
    dispatched (m.introduced parameters intermediates) = dispatched m := by
  rw [dispatched, host_introduced, dispatched]

theorem dispatched_of_outside (hm : m.state = .dcsEntry)
    (h : IsIntroducer parameters intermediates final)
    (hw : w.filter (fun wch => !isIgnoredControl wch) = parameters ++ intermediates)
    (houtside : ControlsOutsideParameters w) :
    (processCharacters (recordDcs e) callback (w ++ [final]) m).map dispatched =
      some (dispatched m ++ [((intermediates.foldl VTIDBuilder.addIntermediate
        m.identifier).finalize final, (parameters.foldl actionParam m).vtParameters)]) := by
  rw [processCharacters_append,
    processCharacters_introducer hm w parameters intermediates h.parameters h.intermediates hw
      houtside, Option.bind_some, processCharacters_singleton]
  rw [processCharacter_final ?_ h.final, Option.map_some,
    (hasDispatched_actionDcsDispatch e _ final).2, dispatched_introduced, identifier_introduced,
    vtParameters_introduced]
  by_cases hinter : intermediates = [] <;> by_cases hparam : parameters = [] <;>
    simp [introduced, introducerState, enter, hinter, hparam]

theorem dispatched_of_not_outside (hm : m.state = .dcsEntry)
    (h : IsIntroducer parameters intermediates final)
    (hw : w.filter (fun wch => !isIgnoredControl wch) = parameters ++ intermediates)
    (houtside : ¬ ControlsOutsideParameters w) :
    ∃ entry, (processCharacters (recordDcs e) callback w m).map dispatched =
      some (dispatched m ++ [entry]) := by
  obtain ⟨u, control, v, rfl, hcontrol, ⟨x, hx, hxcontrol⟩, hinter, hu⟩ :=
    exists_first_of_not_outside houtside
  have hmem : ∀ wch ∈ u.filter (fun wch => !isIgnoredControl wch),
      wch ∈ parameters ++ intermediates := by
    intro wch hwch
    rw [← hw, List.filter_append]
    exact List.mem_append_left _ hwch
  have hparameters : ∀ wch ∈ u.filter (fun wch => !isIgnoredControl wch), isDcsParameter wch := by
    intro wch hwch
    rcases List.mem_append.mp (hmem wch hwch) with hparam | hmem
    · exact h.parameters wch hparam
    · exact absurd (h.intermediates wch hmem) (hinter wch (List.mem_of_mem_filter hwch))
  have hne : u.filter (fun wch => !isIgnoredControl wch) ≠ [] :=
    List.ne_nil_of_mem (List.mem_filter.mpr ⟨hx, by simpa using hxcontrol⟩)
  have hplain : ∀ wch ∈ v, IsPlain wch := by
    intro wch hv
    by_cases hc : isIgnoredControl wch = true
    · exact .of_control hc
    · have hcollected : wch ∈ parameters ++ intermediates := by
        rw [← hw, List.mem_filter]
        exact ⟨List.mem_append_right _ (List.mem_cons_of_mem _ hv), by simpa using hc⟩
      rcases List.mem_append.mp hcollected with hparam | hinter
      · exact .of_parameter (h.parameters wch hparam)
      · exact .of_intermediate (h.intermediates wch hinter)
  have hstate : (m.introduced (u.filter fun wch => !isIgnoredControl wch) []).state =
      .dcsParam := by
    simp only [introduced, introducerState, enter, ne_eq, not_true_eq_false, if_false, hne,
      not_false_eq_true, if_true]
  obtain ⟨hdone, hrecord⟩ := hasDispatched_actionDcsDispatch e
    (m.introduced (u.filter fun wch => !isIgnoredControl wch) []) control
  obtain ⟨m', hrun, heq⟩ := hdone.processCharacters e callback hplain
  have hsplit : processCharacters (recordDcs e) callback (u ++ control :: v) m = some m' := by
    rw [processCharacters_append,
      processCharacters_introducer hm u _ [] hparameters (by simp) (by simp) hu, Option.bind_some,
      processCharacters, processCharacter_control_dcsParam hstate hcontrol, Option.bind_some, hrun]
  rw [dispatched_introduced] at hrecord
  rw [hsplit, Option.map_some, heq, hrecord]
  exact ⟨_, rfl⟩

/-- The introducer with the text `w` behind `ESC P` is dispatched once, at its final character. -/
def DispatchedAtFinal (m m₀ : StateMachine (σ × DcsRecord) κ) (w : List WChar) (final : WChar)
    (entry : VTID × VTParameters) : Prop :=
  (processCharacters (recordDcs e) callback (esc :: 0x50 :: w) m).map dispatched =
      some (dispatched m₀) ∧
    (processCharacters (recordDcs e) callback (esc :: 0x50 :: w ++ [final]) m).map dispatched =
      some (dispatched m₀ ++ [entry])

/-- An introducer is dispatched at its final character with its identifier and its parameters. With
controls inside, it is dispatched in the same way exactly if none of them stands directly behind the
parameters. -/
theorem dcs_dispatch_iff {m₀ : StateMachine (σ × DcsRecord) κ}
    (hentry : processCharacters (recordDcs e) callback [esc, 0x50] m = some m₀)
    (hm₀ : m₀.state = .dcsEntry) (h : IsIntroducer parameters intermediates final)
    {w : List WChar}
    (hw : w.filter (fun wch => !isIgnoredControl wch) = parameters ++ intermediates) :
    let entry := ((intermediates.foldl VTIDBuilder.addIntermediate {}).finalize final,
      (parameters.foldl actionParam m₀).vtParameters)
    DispatchedAtFinal e callback m m₀ (parameters ++ intermediates) final entry ∧
      (DispatchedAtFinal e callback m m₀ w final entry ↔ ControlsOutsideParameters w) := by
  intro entry
  have hid := identifier_of_entry hentry hm₀
  have hbehind (text : List WChar) :
      processCharacters (recordDcs e) callback (esc :: 0x50 :: text) m =
        processCharacters (recordDcs e) callback text m₀ := by
    have hsplit := processCharacters_append (recordDcs e) callback m [esc, 0x50] text
    rw [hentry, Option.bind_some] at hsplit
    exact hsplit
  have hunchanged (text : List WChar)
      (htext : text.filter (fun wch => !isIgnoredControl wch) = parameters ++ intermediates)
      (houtside : ControlsOutsideParameters text) :
      DispatchedAtFinal e callback m m₀ text final entry := by
    constructor
    · rw [hbehind, processCharacters_introducer hm₀ text _ _ h.parameters h.intermediates htext
        houtside, Option.map_some, dispatched_introduced]
    · rw [List.cons_append, List.cons_append, hbehind,
        dispatched_of_outside e callback hm₀ h htext houtside, hid]
  refine ⟨hunchanged _ h.filter ?_, fun hdispatched => ?_, hunchanged w hw⟩
  · refine controlsOutsideParameters_of_forall fun wch hwch => ?_
    rw [← h.filter, List.mem_filter] at hwch
    simpa using hwch.2
  · by_contra houtside
    obtain ⟨other, hother⟩ := dispatched_of_not_outside e callback hm₀ h hw houtside
    have hsame := hdispatched.1
    rw [hbehind, hother, Option.some_inj] at hsame
    simp at hsame

end Dispatch

section Example

open StateMachine

/-- The machine of the engine that does nothing, next to an empty record. -/
def idleMachine : StateMachine (Unit × DcsRecord) Empty := { host := { engine := ((), []) } }

/-- `ESC P NUL 1 $ q` is dispatched like `ESC P 1 $ q`. -/
theorem dcs_dispatch_nul :
    DispatchedAtFinal idleEngine nofun idleMachine (idleMachine.enterCleared .dcsEntry)
      [0x00, 0x31, 0x24] 0x71 (0x7124, { params := [some 1] }) := by
  have hentry : processCharacters (recordDcs idleEngine) nofun [esc, 0x50] idleMachine =
      some (idleMachine.enterCleared .dcsEntry) := by
    simp [processCharacters, processCharacter, processNonC1, event, eventEscape, idleMachine,
      enterCleared, enter, actionClear, actionInterrupt, isC1ControlCharacter, isFromAnywhereChar,
      isEscape, isC0Code, isDelete, isIntermediate, isCsiIndicator, isOscIndicator,
      isSs3Indicator, isDcsIndicator, esc, can, sub]
  have hintroducer : IsIntroducer [0x31] [0x24] 0x71 :=
    ⟨by simp [isDcsParameter, isNumericParamValue], by simp [isIntermediate], rfl⟩
  refine (dcs_dispatch_iff idleEngine nofun hentry rfl hintroducer
    (by decide +kernel)).2.mpr fun u wch v hsplit hcontrol => ?_
  rcases u with _ | ⟨x, u⟩
  · simp
  · have hmem : wch ∈ [0x31, 0x24] := by
      rw [List.cons_append, List.cons.injEq] at hsplit
      rw [hsplit.2]
      simp
    have hcollected : isIgnoredControl wch = false := by
      simp only [List.mem_cons, List.not_mem_nil, or_false] at hmem
      rcases hmem with rfl | rfl <;> rfl
    rw [hcollected] at hcontrol
    cases hcontrol

/-- `ESC P 1 LF q` is dispatched at the `LF`. -/
theorem dcs_dispatch_lf_parameter :
    (processCharacters (recordDcs idleEngine) nofun
        [esc, 0x50, 0x31, 0x0A, 0x71] idleMachine).map dispatched =
      some [(0x0A, { params := [some 1] })] ∧
    (processCharacters (recordDcs idleEngine) nofun
        [esc, 0x50, 0x31, 0x71] idleMachine).map dispatched =
      some [(0x71, { params := [some 1] })] := by
  constructor <;> decide +kernel

end Example

end IntelligentTerminal.Vt
