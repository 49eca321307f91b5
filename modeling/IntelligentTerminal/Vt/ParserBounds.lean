import IntelligentTerminal.Macros.Invocation

/-!
# What the parser stores is bounded

Whatever is fed to the parser, and whatever the engine is, the parameters stay within the limits of
the parser, and no range leaves the sub parameters. A device control string has a handler for as
long as it is passed on.

Source: `src/terminal/parser/stateMachine.cpp`, lines 478-700 and 1180-2168;
`src/terminal/adapter/DispatchTypes.hpp`, lines 10-105.
-/

namespace IntelligentTerminal.Vt

open IntelligentTerminal.Buffer (WChar)

/-- How much the parser keeps of the sequence that it is in. -/
structure Stored where
  state : VTStates
  idShift : ℕ
  parameters : ℕ
  subParameters : ℕ
  ranges : List (UInt8 × UInt8)
  counter : ℕ
  hasHandler : Bool

/-- The states in which there are no parameters, and that of the two parameters of `VT52`. -/
def VTStates.isEarly : VTStates → Bool
  | .escape | .escapeIntermediate | .vt52Param => true
  | _ => false

namespace Stored

/-- The limits of the parser. -/
structure Bounded (s : Stored) : Prop where
  idShift : s.idShift < 56
  parameters : s.parameters ≤ maxParameterCount
  subParameters : s.subParameters ≤ maxSubParameterCount * (s.parameters - 1) + s.counter
  counter : s.counter ≤ maxSubParameterCount
  length_ranges : s.ranges.length ≤ s.parameters
  ranges : ∀ r ∈ s.ranges, r.1.toNat ≤ r.2.toNat ∧ r.2.toNat ≤ s.subParameters
  early : s.state.isEarly → s.parameters ≤ 1
  handler : s.state = .dcsPassThrough → s.hasHandler

namespace Bounded

variable {s : Stored}

theorem subParameters_le (h : s.Bounded) :
    s.subParameters ≤ maxSubParameterCount * maxParameterCount := by
  have hparameters := h.parameters
  have hsub := h.subParameters
  have hcounter := h.counter
  unfold maxParameterCount maxSubParameterCount at *
  omega

theorem push (h : s.Bounded) (hlate : s.state.isEarly = false)
    (hlt : s.parameters < maxParameterCount) {counter : ℕ} (hcounter : counter ≤ maxSubParameterCount)
    (hsub : s.subParameters ≤ maxSubParameterCount * s.parameters + counter) :
    Bounded { s with
      parameters := s.parameters + 1
      ranges := s.ranges ++ [(s.subParameters.toUInt8, s.subParameters.toUInt8)]
      counter } := by
  have hstart : s.subParameters.toUInt8.toNat = s.subParameters := by
    have hle := h.subParameters_le
    unfold maxSubParameterCount maxParameterCount at hle
    rw [Nat.toUInt8_eq, UInt8.toNat_ofNat']
    omega
  refine { h with
    parameters := hlt
    subParameters := hsub
    counter := hcounter
    length_ranges := ?_
    ranges := fun r hr => ?_
    early := fun hearly => absurd (hlate.symm.trans hearly) Bool.false_ne_true }
  · rw [List.length_append]
    exact Nat.succ_le_succ h.length_ranges
  · rcases List.mem_append.mp hr with hr | hr
    · exact h.ranges r hr
    · obtain rfl := List.mem_singleton.mp hr
      exact ⟨le_rfl, hstart.le⟩

theorem pushSub (h : s.Bounded) (hlt : s.counter < maxSubParameterCount) :
    Bounded { s with
      subParameters := s.subParameters + 1
      ranges := s.ranges.modifyLast fun r => (r.1, r.2 + 1)
      counter := s.counter + 1 } := by
  have hsub := h.subParameters
  have hle : s.subParameters < 255 := by
    have hparameters := h.parameters
    unfold maxParameterCount maxSubParameterCount at *
    omega
  rcases List.eq_nil_or_concat s.ranges with hnil | ⟨init, last, hconcat⟩
  · rw [hnil]
    exact { h with
      subParameters := Nat.succ_le_succ hsub
      counter := hlt
      length_ranges := Nat.zero_le _
      ranges := fun r hr => absurd hr List.not_mem_nil }
  · rw [List.concat_eq_append] at hconcat
    rw [hconcat, List.modifyLast_concat]
    have hranges := h.ranges
    have hlength := h.length_ranges
    rw [hconcat] at hranges hlength
    have hlast := hranges last (by simp)
    have hnext : (last.2 + 1).toNat = last.2.toNat + 1 := by
      rw [UInt8.toNat_add, UInt8.toNat_one]
      exact Nat.mod_eq_of_lt (by omega)
    refine { h with
      subParameters := Nat.succ_le_succ hsub
      counter := hlt
      length_ranges := by simpa using hlength
      ranges := fun r hr => ?_ }
    rcases List.mem_append.mp hr with hr | hr
    · have := hranges r (List.mem_append_left _ hr)
      exact ⟨this.1, this.2.trans (Nat.le_succ _)⟩
    · obtain rfl := List.mem_singleton.mp hr
      dsimp only
      omega

end Bounded

end Stored

theorem length_modifyLast {α : Type*} (f : α → α) (l : List α) :
    (l.modifyLast f).length = l.length := by
  rcases List.eq_nil_or_concat l with rfl | ⟨init, last, rfl⟩
  · rfl
  · rw [List.concat_eq_append, List.modifyLast_concat, List.length_append, List.length_append]
    rfl

namespace StateMachine

variable {σ κ : Type} {e : IStateMachineEngine σ κ}
  {callback : κ → StateMachine σ κ → Option (StateMachine σ κ)} {m m' : StateMachine σ κ}

def stored (m : StateMachine σ κ) : Stored where
  state := m.state
  idShift := m.identifier.idShift
  parameters := m.parameters.length
  subParameters := m.subParameters.length
  ranges := m.subParameterRanges
  counter := m.subParameterCounter.toNat
  hasHandler := m.dcsStringHandler.isSome

/-- The parser is within its limits. -/
abbrev Bounded (m : StateMachine σ κ) : Prop := m.stored.Bounded

theorem stored_safeExecute (action : Action σ κ) : (m.safeExecute e action).stored = m.stored := by
  rw [safeExecute]
  dsimp only
  split_ifs
  · rw [flushToTerminal]
    cases m.cachedSequence <;> rfl
  · rfl

theorem stored_enterGround (action : Action σ κ) :
    (m.safeExecute e action).enterGround.stored = { m.stored with state := .ground } :=
  congrArg (fun s : Stored => { s with state := .ground }) (stored_safeExecute action)

namespace Bounded

/-! ### Actions -/

theorem safeExecute (h : m.Bounded) (action : Action σ κ) : (m.safeExecute e action).Bounded :=
  (congrArg Stored.Bounded (stored_safeExecute action)).mpr h

theorem enterCleared (m : StateMachine σ κ) {state : VTStates}
    (hstate : state ≠ .dcsPassThrough := by decide) :
    (m.enterCleared state).Bounded where
  idShift := Nat.zero_lt_succ _
  parameters := Nat.zero_le _
  subParameters := Nat.zero_le _
  counter := Nat.zero_le _
  length_ranges := le_rfl
  ranges _ hr := absurd hr List.not_mem_nil
  early _ := Nat.zero_le _
  handler hdcs := absurd hdcs hstate

theorem enter (h : m.Bounded) {state : VTStates}
    (hearly : state.isEarly → m.state.isEarly := by exact fun h => absurd h Bool.false_ne_true)
    (hstate : state ≠ .dcsPassThrough := by decide) :
    (m.enter state).Bounded :=
  { h with
    early := fun hlate => h.early (hearly hlate)
    handler := fun hdcs => absurd hdcs hstate }

theorem enterUncached (h : m.Bounded) {state : VTStates}
    (hearly : state.isEarly = false := by rfl) (hstate : state ≠ .dcsPassThrough := by decide) :
    (m.enterUncached state).Bounded :=
  h.enter (fun hlate => absurd (hearly.symm.trans hlate) Bool.false_ne_true) hstate

theorem enterGround (h : m.Bounded) : m.enterGround.Bounded := h.enterUncached

theorem actionCollect (h : m.Bounded) (wch : WChar) : (m.actionCollect wch).Bounded := by
  refine { h with idShift := ?_ }
  have hshift : m.identifier.idShift < 56 := h.idShift
  change (m.identifier.addIntermediate wch).idShift < 56
  rw [VTIDBuilder.addIntermediate]
  split_ifs
  · exact hshift
  · dsimp only
    omega

theorem pushFirstParameter (h : m.Bounded) (hlate : m.state.isEarly = false) :
    m.pushFirstParameter.Bounded := by
  rw [StateMachine.pushFirstParameter]
  split_ifs with hnil
  · have hsub : m.subParameters.length ≤ maxSubParameterCount * (m.parameters.length - 1) +
        m.subParameterCounter.toNat := h.subParameters
    rw [hnil] at hsub ⊢
    have hpush := h.push hlate ((congrArg List.length hnil).trans_lt (by decide)) h.counter
      (hsub.trans (Nat.add_le_add_right (Nat.zero_le _) _))
    rwa [show m.stored.parameters = 0 from congrArg List.length hnil] at hpush
  · exact h

theorem actionParam (h : m.Bounded) (hlate : m.state.isEarly = false) (wch : WChar) :
    (m.actionParam wch).Bounded := by
  have hpush := h.pushFirstParameter hlate
  have hstate : m.pushFirstParameter.state.isEarly = false := by
    obtain ⟨parameters, ranges, heq⟩ := m.exists_pushFirstParameter
    rwa [heq]
  have hpos := List.length_pos_of_ne_nil m.pushFirstParameter_ne
  rw [StateMachine.actionParam]
  generalize m.pushFirstParameter = p at hpush hstate hpos ⊢
  dsimp only
  split_ifs with hoverflow hdelimiter hcount
  · exact h
  · exact hpush
  · have hsub : p.subParameters.length ≤
        maxSubParameterCount * (p.parameters.length - 1) + p.subParameterCounter.toNat :=
      hpush.subParameters
    have hcounter : p.subParameterCounter.toNat ≤ maxSubParameterCount := hpush.counter
    refine cast ?_ (hpush.push hstate (Nat.lt_of_not_le hcount) (Nat.zero_le _) ?_)
    · simp only [Bounded, stored, List.length_append, List.length_singleton, UInt8.toNat_zero]
    · change p.subParameters.length ≤ maxSubParameterCount * p.parameters.length + 0
      unfold maxSubParameterCount at *
      omega
  · simpa only [Bounded, stored, length_modifyLast] using hpush

theorem actionSubParam (h : m.Bounded) (hlate : m.state.isEarly = false) (wch : WChar) :
    (m.actionSubParam wch).Bounded := by
  have hpush := h.pushFirstParameter hlate
  rw [StateMachine.actionSubParam]
  generalize m.pushFirstParameter = p at hpush ⊢
  dsimp only
  split_ifs with hoverflow hdelimiter hcount
  · exact h
  · exact hpush
  · have hlt : p.subParameterCounter.toNat < maxSubParameterCount := Nat.lt_of_not_le hcount
    have hnext : (p.subParameterCounter + 1).toNat = p.subParameterCounter.toNat + 1 := by
      rw [UInt8.toNat_add]
      unfold maxSubParameterCount at hlt
      exact Nat.mod_eq_of_lt (by rw [UInt8.toNat_one]; omega)
    have hsub := hpush.pushSub hlt
    simpa only [Bounded, stored, List.length_append, List.length_singleton, hnext] using hsub
  · simpa only [Bounded, stored, length_modifyLast] using hpush

theorem callDcsStringHandler (h : m.Bounded) (wch : WChar) :
    (m.callDcsStringHandler wch).1.Bounded := by
  rw [StateMachine.callDcsStringHandler]
  split <;> exact h

theorem interrupted (h : m.Bounded) :
    Stored.Bounded { m.actionInterrupt.stored with state := .ground } := by
  have hground {m : StateMachine σ κ} (h : m.Bounded) : m.enterGround.Bounded := h.enterGround
  rw [actionInterrupt]
  split_ifs
  · exact { hground (h.callDcsStringHandler esc) with handler := nofun }
  · exact hground h

theorem actionDcsDispatch (h : m.Bounded) (wch : WChar) : (m.actionDcsDispatch e wch).Bounded := by
  have hground : m.enterGround.Bounded := h.enterGround
  rw [StateMachine.actionDcsDispatch]
  dsimp only
  split_ifs with hhandler
  · exact { hground with
      early := nofun
      handler := fun _ => hhandler }
  · exact { hground with
      early := nofun
      handler := nofun }

end Bounded

/-! ### Events -/

def IfAny (result : Option (StateMachine σ κ)) : Prop := ∀ m' ∈ result, m'.Bounded

theorem Bounded.ifAny (h : m.Bounded) : IfAny (some m) := fun _ hm' => Option.some.inj hm' ▸ h

/-- The callbacks keep to the limits. -/
def Keeps (callback : κ → StateMachine σ κ → Option (StateMachine σ κ)) : Prop :=
  ∀ call m, m.Bounded → IfAny (callback call m)

namespace Bounded

theorem completeCsi (h : m.Bounded) (hcallback : Keeps callback) (wch : WChar) :
    IfAny (m.completeCsi e callback wch) := by
  have hground : (m.actionCsiDispatch e wch).enterGround.Bounded := (h.safeExecute _).enterGround
  rw [StateMachine.completeCsi, executeCsiCompleteCallback]
  split
  · intro m' hm'
    obtain ⟨m₁, hm₁, rfl⟩ := Option.map_eq_some_iff.mp hm'
    exact hcallback _ _ (by exact hground) m₁ hm₁
  · exact hground.ifAny

theorem eventEscape (h : m.Bounded) (hstate : m.state = .escape) (wch : WChar) :
    (m.eventEscape e wch).Bounded := by
  have hearly (state : VTStates) (_ : state.isEarly) : m.state.isEarly := congrArg _ hstate
  rw [StateMachine.eventEscape]
  split_ifs
  all_goals first
    | exact h.safeExecute _
    | exact (h.safeExecute _).enterGround
    | exact h
    | exact (h.actionCollect wch).enter (hearly _)
    | exact enterCleared m
    | exact h.enter (hearly _)
    | exact show (m.enterUncached .sosPmApcString).Bounded from h.enterUncached

theorem eventVt52Param (h : m.Bounded) (hstate : m.state = .vt52Param) (wch : WChar) :
    (m.eventVt52Param e wch).Bounded := by
  have hle : m.parameters.length ≤ 1 := h.early (congrArg VTStates.isEarly hstate)
  have hpush (state : VTStates) (hlast : state.isEarly → m.parameters.length + 1 ≤ 1)
      (hdcs : state ≠ .dcsPassThrough) :
      Stored.Bounded { m.stored with state, parameters := m.parameters.length + 1 } :=
    { h with
      parameters := (Nat.succ_le_succ hle).trans (by decide)
      subParameters := h.subParameters.trans
        (Nat.add_le_add_right (Nat.mul_le_mul_left _ (Nat.sub_le_sub_right (Nat.le_succ _) _)) _)
      length_ranges := h.length_ranges.trans (Nat.le_succ _)
      early := hlast
      handler := fun hstate => absurd hstate hdcs }
  rw [StateMachine.eventVt52Param]
  dsimp only
  split_ifs with hc0 hdelete htwo
  · exact h.safeExecute _
  · exact h
  · rw [Bounded, actionVt52EscDispatch, stored_enterGround]
    refine cast ?_ (hpush .ground nofun nofun)
    simp only [stored, List.length_append, List.length_singleton]
  · rw [List.length_append, List.length_singleton] at htwo
    refine cast ?_ (hpush .vt52Param (fun _ => by omega) nofun)
    simp only [Bounded, stored, hstate, List.length_append, List.length_singleton]

theorem event (h : m.Bounded) (hcallback : Keeps callback) (wch : WChar) :
    IfAny (m.event e callback wch) := by
  have hexecute (action) : (m.safeExecute e action).Bounded := h.safeExecute action
  have hcomplete := h.completeCsi (e := e) hcallback wch
  have hlate (hstate : m.state.isEarly = false) := And.intro (h.actionParam hstate wch)
    (h.actionSubParam hstate wch)
  rw [StateMachine.event]
  cases hstate : m.state
  case escape => exact (h.eventEscape hstate wch).ifAny
  case vt52Param => exact (h.eventVt52Param hstate wch).ifAny
  case oscTermination =>
    refine Bounded.ifAny ?_
    rw [eventOscTermination]
    split_ifs
    · exact (hexecute _).enterGround
    · exact (enterCleared m).eventEscape rfl wch
  case dcsPassThrough =>
    refine Bounded.ifAny ?_
    rw [eventDcsPassThrough]
    dsimp only
    split_ifs
    · exact (h.callDcsStringHandler wch).enterUncached
    · exact h.callDcsStringHandler wch
    · exact h
  case csiEntry | csiIntermediate | csiParam | csiSubParam =>
    obtain ⟨hparam, hsub⟩ := hlate (by rw [hstate]; rfl)
    simp only [eventCsiEntry, eventCsiIntermediate, eventCsiParam, eventCsiSubParam]
    split_ifs
    all_goals first
      | exact hcomplete
      | exact (hexecute _).ifAny
      | exact h.ifAny
      | exact hparam.ifAny
      | exact hsub.ifAny
      | exact ((h.actionCollect wch).enter).ifAny
      | exact (h.actionCollect wch).ifAny
      | exact (hparam.enter).ifAny
      | exact (hsub.enter).ifAny
      | exact (h.enter).ifAny
  case dcsEntry | dcsIntermediate | dcsParam =>
    obtain ⟨hparam, -⟩ := hlate (by rw [hstate]; rfl)
    refine Bounded.ifAny ?_
    simp only [eventDcsEntry, eventDcsIntermediate, eventDcsParam, actionIgnore, ite_self]
    split_ifs
    all_goals first
      | exact h
      | exact h.enterUncached
      | exact hparam
      | exact hparam.enter
      | exact h.actionCollect wch
      | exact (h.actionCollect wch).enter
      | exact h.actionDcsDispatch wch
  all_goals
    refine Bounded.ifAny ?_
    first
      | exact h
      | simp only [eventGround, eventEscapeIntermediate, eventCsiIgnore, eventOscParam,
          eventOscString, eventSs3Entry, eventSs3Param]
        split_ifs
  all_goals first
    | exact h
    | exact hexecute _
    | exact (hexecute _).enterGround
    | exact h.enterGround
    | exact h.actionCollect wch
    | exact h.enter fun _ => congrArg VTStates.isEarly hstate
    | exact h.enter
    | exact (hlate (by rw [hstate]; rfl)).1
    | exact (hlate (by rw [hstate]; rfl)).1.enter

theorem processNonC1 (h : m.Bounded) (hcallback : Keeps callback) (wch : WChar) :
    IfAny (m.processNonC1 e callback wch) := by
  rw [StateMachine.processNonC1]
  split_ifs
  · refine Bounded.ifAny ?_
    rw [Bounded, actionExecute, stored_enterGround]
    exact h.interrupted
  · exact (enterCleared _).ifAny
  · exact h.event hcallback wch

theorem processCharacter (h : m.Bounded) (hcallback : Keeps callback) (wch : WChar) :
    IfAny (m.processCharacter e callback wch) := by
  rw [StateMachine.processCharacter]
  split_ifs
  · intro m' hm'
    obtain ⟨m₁, hm₁, hm'⟩ := Option.bind_eq_some_iff.mp hm'
    exact (h.processNonC1 hcallback esc m₁ hm₁).processNonC1 hcallback _ m' hm'
  · exact h.ifAny
  · exact h.processNonC1 hcallback wch

theorem processCharacters (h : m.Bounded) (hcallback : Keeps callback) (chars : List WChar) :
    IfAny (processCharacters e callback chars m) := by
  induction chars generalizing m with
  | nil => exact h.ifAny
  | cons wch chars ih =>
    intro m' hm'
    obtain ⟨m₁, hm₁, hm'⟩ := Option.bind_eq_some_iff.mp hm'
    exact ih (h.processCharacter hcallback wch m₁ hm₁) m' hm'

theorem processLoop (h : m.Bounded) (hcallback : Keeps callback) (string : StringView σ κ)
    (vtStart : Bool) (i : ℕ) : IfAny (processLoop e callback string vtStart i m) := by
  fun_induction StateMachine.processLoop e callback string vtStart i m with
  | case1 i m hi m₁ ih =>
    intro m' hm'
    obtain ⟨m₂, hm₂, hm'⟩ := Option.bind_eq_some_iff.mp hm'
    exact ih m₂ (Bounded.processCharacter (m := m₁) h hcallback _ m₂ hm₂) m' hm'
  | case2 vtStart i m hi hlabel n m₁ hrun ih => exact ih (Bounded.safeExecute (m := m₁) h _)
  | case3 vtStart i m hi hlabel n m₁ hrun ih => exact ih h
  | case4 => exact h.ifAny

theorem processUnfinished (h : m.Bounded) : (m.processUnfinished e).Bounded := by
  rw [StateMachine.processUnfinished]
  dsimp only
  split_ifs
  · exact h
  · exact (h.enterGround.safeExecute _).enterGround
  · exact ((enterCleared _).safeExecute _).enterGround
  · exact h
  · exact h

theorem processString (h : m.Bounded) (hcallback : Keeps callback) (string : StringView σ κ) :
    IfAny (m.processString e callback string) := by
  intro m' hm'
  obtain ⟨m₁, hm₁, rfl⟩ := Option.map_eq_some_iff.mp hm'
  exact (Bounded.processLoop (m := { m with currentString := string, runOffset := 0, runSize := 0 })
    h hcallback string _ 0 m₁ hm₁).processUnfinished

end Bounded

theorem keeps_invokeMacro {τ : Type} (e : IStateMachineEngine τ Empty) (fuel : ℕ) :
    Keeps (Macros.invokeMacro e fuel) := by
  induction fuel with
  | zero => exact fun _ _ _ _ hm' => nomatch hm'
  | succ fuel ih =>
    intro call m h
    rw [Macros.invokeMacro]
    dsimp only
    split_ifs
    · intro m' hm'
      obtain ⟨m₁, hm₁, rfl⟩ := Option.map_eq_some_iff.mp hm'
      exact Bounded.processString (m := Macros.begun m call.buffer _) h ih _ m₁ hm₁
    · exact h.ifAny
    · exact h.ifAny

theorem parser_bounded (e : IStateMachineEngine σ κ)
    (callback : κ → StateMachine σ κ → Option (StateMachine σ κ)) (hcallback : Keeps callback)
    (host : Host σ κ) (isEngineForInput : Bool) (strings : List (StringView σ κ))
    (chars : List WChar) {m m' : StateMachine σ κ}
    (hstrings : strings.foldlM (fun m string => m.processString e callback string)
      { host, isEngineForInput } = some m)
    (hchars : processCharacters e callback chars m = some m') : m'.Bounded := by
  have hstart : Bounded ({ host, isEngineForInput } : StateMachine σ κ) :=
    show Bounded (StateMachine.enterCleared { host, isEngineForInput } .ground) from
      Bounded.enterCleared _
  generalize ({ host, isEngineForInput } : StateMachine σ κ) = m₀ at hstrings hstart
  refine Bounded.processCharacters ?_ hcallback chars m' hchars
  clear hchars
  induction strings generalizing m₀ with
  | nil =>
    obtain rfl := Option.some.inj hstrings
    exact hstart
  | cons string strings ih =>
    obtain ⟨m₁, hm₁, hstrings⟩ := Option.bind_eq_some_iff.mp hstrings
    exact ih _ hstrings (hstart.processString hcallback string m₁ hm₁)

theorem parser_bounded_subParameter : ∃ m' : Macros.Terminal Unit,
    processCharacters (Macros.outputEngine idleEngine) (Macros.invokeMacro idleEngine 17)
      [esc, 0x5B, 0x34, 0x3A, 0x33] { host := { engine := { rest := () } } } = some m' ∧
    m'.stored.ranges = [(0, 1)] ∧ m'.Bounded :=
  ⟨_, rfl, rfl, parser_bounded (Macros.outputEngine idleEngine) _ (keeps_invokeMacro idleEngine 17)
    { engine := { rest := () } } false [] [esc, 0x5B, 0x34, 0x3A, 0x33] rfl rfl⟩

end StateMachine

end IntelligentTerminal.Vt
