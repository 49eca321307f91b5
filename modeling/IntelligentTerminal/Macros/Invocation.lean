import IntelligentTerminal.Macros.MacroBuffer
import IntelligentTerminal.Vt.StateMachine

/-!
# Invoking a macro

A macro is invoked when the control sequence that asks for it is complete: the dispatcher registers
a callback, which the state machine runs after it has entered the ground state, and which feeds the
macro to the state machine again. The callback keeps the buffer of the macros alive, so that a hard
reset within a macro only fills the macros with `NUL` and gives the buffer up.

What the engine does besides is a parameter, an engine that cannot register a callback. The depth of
the calls is modelled by the number of nested invocations that are still allowed to the recursion,
and `none` is the result of one more.

Source: `src/terminal/adapter/MacroBuffer.cpp`, lines 35-75;
`src/terminal/adapter/adaptDispatch.cpp`, lines 3125-3130 and 4084-4125;
`src/terminal/parser/OutputStateMachineEngine.cpp`, lines 237-239, 410-417, 669-671 and 733-735;
`src/terminal/parser/stateMachine.cpp`, lines 1977-2097 and 2188-2207.
-/

namespace IntelligentTerminal.Macros

open Buffer (WChar)

open Vt

/-! ### The engine -/

/-- The callback that `InvokeMacro` registers: the captured buffer and macro. -/
structure MacroCall where
  buffer : ℕ
  macroId : ℕ

/-- The part of `AdaptDispatch` that holds the macros, and the rest of the engine. The buffers are
those that have ever been made, by their address; `invocations` is what has been fed to the state
machine, the depth and the length of each macro, and nothing reads it. -/
structure Adapter (τ : Type) where
  rest : τ
  buffers : ℕ → MacroBuffer := fun _ => .new
  nextBuffer : ℕ := 0
  macroBuffer : Option ℕ := none
  invocations : List (ℕ × ℕ) := []

namespace Adapter

variable {τ : Type}

/-- A change of one buffer. -/
def setBuffer (a : Adapter τ) (p : ℕ) (b : MacroBuffer) : Adapter τ :=
  { a with buffers := Function.update a.buffers p b }

/-- `_macroBuffer = std::make_shared<MacroBuffer>()`, if there is none. -/
def makeBuffer (a : Adapter τ) : Adapter τ :=
  if a.macroBuffer.isNone then
    { a.setBuffer a.nextBuffer .new with
      macroBuffer := some a.nextBuffer
      nextBuffer := a.nextBuffer + 1 }
  else a

/-- The end of `AdaptDispatch::HardReset`. -/
def releaseMacros (a : Adapter τ) : Adapter τ :=
  match a.macroBuffer with
  | some p => { a.setBuffer p (a.buffers p).clearMacrosIfInUse with macroBuffer := none }
  | none => a

end Adapter

section Engine

variable {τ : Type}

/-- What the engine can reach. -/
abbrev AdapterHost (τ : Type) := Host (Adapter τ) MacroCall

/-- The rest of the engine next to the macros. -/
def restLens : HostLens τ Empty (Adapter τ) MacroCall where
  get h :=
    { h with
      engine := h.engine.rest
      onCsiCompleteCallback := none }
  set r h :=
    { r with
      engine := { h.engine with rest := r.engine }
      onCsiCompleteCallback := h.onCsiCompleteCallback }

/-- `DispatchTypes::MacroDeleteControl` of a parameter. -/
def macroDeleteControl (parameter : VTParameter) : MacroDeleteControl :=
  match parameter.getD 0 with
  | 0 => .deleteId
  | 1 => .deleteAll
  | value => .other value

/-- `DispatchTypes::MacroEncoding` of a parameter. -/
def macroEncoding (parameter : VTParameter) : MacroEncoding :=
  match parameter.getD 0 with
  | 0 => .text
  | 1 => .hexPair
  | value => .other value

/-- The handler that `DefineMacro` returns. The buffer is not released before the next escape
sequence, and by then the handler is gone. -/
def parseMacro : StringHandler (Adapter τ) MacroCall := fun ch h =>
  match h.engine.macroBuffer with
  | some p =>
    let (ok, b) := (h.engine.buffers p).parseDefinition ch
    ({ h with engine := h.engine.setBuffer p b }, ok)
  | none => (h, false)

/-- `AdaptDispatch::DefineMacro`. -/
def defineMacro (macroId : ℕ) (deleteControl : MacroDeleteControl) (encoding : MacroEncoding)
    (h : AdapterHost τ) : AdapterHost τ × Option (StringHandler (Adapter τ) MacroCall) :=
  let a := h.engine.makeBuffer
  let p := a.macroBuffer.getD 0
  let (ok, b) := (a.buffers p).initParser macroId deleteControl encoding
  ({ h with engine := a.setBuffer p b }, if ok then some parseMacro else none)

/-- `AdaptDispatch::InvokeMacro`. -/
def registerMacro (macroId : ℕ) (h : AdapterHost τ) : AdapterHost τ :=
  match h.engine.macroBuffer with
  | some buffer => { h with onCsiCompleteCallback := some { buffer, macroId } }
  | none => h

/-- `RIS_ResetToInitialState`, `VTID("c")`. -/
def risId : VTID := 0x63

/-- `DECINVM_InvokeMacro`, `VTID("*z")`. -/
def decinvmId : VTID := 0x7A2A

/-- `DECDMAC_DefineMacro`, `VTID("!z")`. -/
def decdmacId : VTID := 0x7A21

/-- The engine for the output: the sequences for macros, and what `e` does for each sequence. -/
def outputEngine (e : IStateMachineEngine τ Empty) :
    IStateMachineEngine (Adapter τ) MacroCall :=
  { e.lift restLens with
    actionEscDispatch := fun id h =>
      let (h, ok) := (e.lift restLens).actionEscDispatch id h
      if id = risId ∧ ok.isSome then ({ h with engine := h.engine.releaseMacros }, ok) else (h, ok)
    actionCsiDispatch := fun id parameters h =>
      let (h, ok) := (e.lift restLens).actionCsiDispatch id parameters h
      -- No sub parameters are accepted in this sequence.
      if id = decinvmId ∧ parameters.subParams = [] then
        (registerMacro ((parameters.at_ 0).getD 0) h, ok)
      else (h, ok)
    actionDcsDispatch := fun id parameters h =>
      let (h, handler) := (e.lift restLens).actionDcsDispatch id parameters h
      if id = decdmacId then
        defineMacro ((parameters.at_ 0).getD 0) (macroDeleteControl (parameters.at_ 1))
          (macroEncoding (parameters.at_ 2)) h
      else (h, handler) }

end Engine

/-! ### Invocations -/

section Invoke

variable {τ : Type}

/-- The machine for the output. -/
abbrev Terminal (τ : Type) := StateMachine (Adapter τ) MacroCall

namespace MacroBuffer

/-- The conditions of `MacroBuffer::InvokeMacro`. -/
def CanInvoke (b : MacroBuffer) (macroId : Fin 64) : Prop :=
  b.invokedDepth < 16 ∧ (b.macros macroId).length < sizeT (maxSpace - b.invokedSequenceLength)

instance (b : MacroBuffer) (macroId : Fin 64) : Decidable (b.CanInvoke macroId) :=
  inferInstanceAs (Decidable (_ ∧ _))

end MacroBuffer

/-- A change of one buffer of the terminal. -/
def setBuffer (m : Terminal τ) (p : ℕ) (b : MacroBuffer) : Terminal τ :=
  { m with host := { m.host with engine := m.host.engine.setBuffer p b } }

/-- `macroSequence`: the memory of the macro. -/
def macroSequence (m : Terminal τ) (buffer : ℕ) (macroId : Fin 64) :
    StringView (Adapter τ) MacroCall where
  size := ((m.host.engine.buffers buffer).macros macroId).length
  chars h := (h.engine.buffers buffer).macros macroId

/-- The part of `MacroBuffer::InvokeMacro` in front of `ProcessString`, with the record. -/
def begun (m : Terminal τ) (buffer : ℕ) (macroId : Fin 64) : Terminal τ :=
  let b := m.host.engine.buffers buffer
  let m := setBuffer m buffer (b.beginInvoke macroId)
  { m with
    host := { m.host with
      engine := { m.host.engine with
        invocations :=
          m.host.engine.invocations ++ [(b.invokedDepth + 1, (b.macros macroId).length)] } } }

/-- The end of `MacroBuffer::InvokeMacro`. -/
def ended (m : Terminal τ) (buffer : ℕ) : Terminal τ :=
  setBuffer m buffer (m.host.engine.buffers buffer).endInvoke

/-- `MacroBuffer::InvokeMacro`, with all the invocations that it leads to. -/
def invokeMacro (e : IStateMachineEngine τ Empty) :
    ℕ → MacroCall → Terminal τ → Option (Terminal τ)
  | 0, _, _ => none
  | fuel + 1, call, m =>
    if h : call.macroId < 64 then
      let macroId : Fin 64 := ⟨call.macroId, h⟩
      if (m.host.engine.buffers call.buffer).CanInvoke macroId then
        ((begun m call.buffer macroId).processString (outputEngine e) (invokeMacro e fuel)
          (macroSequence m call.buffer macroId)).map fun m => ended m call.buffer
      else some m
    else some m

end Invoke

/-! ### What changes the macros -/

section Steady

variable {τ : Type} {e : IStateMachineEngine τ Empty} {m m' : Terminal τ}
  {part part' : Option MacroCall × Adapter Unit} {a : Adapter Unit}

/-- What only the sequences for macros change. -/
def macroPart (h : AdapterHost τ) : Option MacroCall × Adapter Unit :=
  (h.onCsiCompleteCallback, { h.engine with rest := () })

/-- A handler that does not change the macros. -/
def IsRest (handler : Option (StringHandler (Adapter τ) MacroCall)) : Prop :=
  ∀ f ∈ handler, ∀ wch h, macroPart (f wch h).1 = macroPart h

theorem defineMacro_of_inUse {h : AdapterHost τ} {p : ℕ} (hbuffer : h.engine.macroBuffer = some p)
    (hdepth : (h.engine.buffers p).invokedDepth ≠ 0) (macroId : ℕ)
    (deleteControl : MacroDeleteControl) (encoding : MacroEncoding) :
    defineMacro macroId deleteControl encoding h = (h, none) := by
  have hmake : h.engine.makeBuffer = h.engine := by
    simp [Adapter.makeBuffer, hbuffer]
  have hrefuse : (h.engine.buffers p).initParser macroId deleteControl encoding =
      (false, h.engine.buffers p) := by
    exact dif_neg fun hid => hdepth hid.2
  have hset : h.engine.setBuffer p (h.engine.buffers p) = h.engine := by
    rw [Adapter.setBuffer, Function.update_eq_self]
  rw [defineMacro, hmake, hbuffer, Option.getD_some, hrefuse]
  simp only [hset, Bool.false_eq_true, if_false]

/-- The machine for the output, with a part of its host. -/
structure Steady (part : Option MacroCall × Adapter Unit) (m : Terminal τ) : Prop where
  part : macroPart m.host = part
  output : m.isEngineForInput = false
  handler : m.state = .dcsPassThrough → IsRest m.dcsStringHandler

namespace Steady

theorem of_eq (h : Steady part m) (hpart : macroPart m'.host = macroPart m.host)
    (hinput : m'.isEngineForInput = m.isEngineForInput) (hstate : m'.state = m.state)
    (hhandler : m'.dcsStringHandler = m.dcsStringHandler) : Steady part m' where
  part := hpart.trans h.part
  output := hinput.trans h.output
  handler hdcs := hhandler ▸ h.handler (hstate ▸ hdcs)

theorem of_ne (h : Steady part m) (hpart : macroPart m'.host = macroPart m.host)
    (hinput : m'.isEngineForInput = m.isEngineForInput) (hstate : m'.state ≠ .dcsPassThrough) :
    Steady part m' where
  part := hpart.trans h.part
  output := hinput.trans h.output
  handler hdcs := absurd hdcs hstate

theorem flushToTerminal (h : Steady part m) :
    Steady part (m.flushToTerminal (outputEngine e)) := by
  unfold StateMachine.flushToTerminal
  cases m.cachedSequence with
  | none => exact h.of_eq rfl rfl rfl rfl
  | some cachedSequence => exact h.of_eq rfl rfl rfl rfl

theorem safeExecute {action : Action (Adapter τ) MacroCall} (h : Steady part m)
    (haction : macroPart (action m.host).1 = part') :
    Steady part' (m.safeExecute (outputEngine e) action) := by
  have hm : Steady part' { m with host := (action m.host).1 } :=
    ⟨haction, h.output, h.handler⟩
  unfold StateMachine.safeExecute
  dsimp only
  split_ifs
  · exact hm.flushToTerminal
  · exact hm

variable {state : VTStates}

theorem enter (h : Steady part m) (hstate : state ≠ .dcsPassThrough) :
    Steady part (m.enter state) :=
  h.of_ne rfl rfl hstate

theorem enterUncached (h : Steady part m) (hstate : state ≠ .dcsPassThrough) :
    Steady part (m.enterUncached state) :=
  h.of_ne rfl rfl hstate

theorem enterGround (h : Steady part m) : Steady part m.enterGround :=
  h.enterUncached nofun

theorem enterCleared (h : Steady part m) (hstate : state ≠ .dcsPassThrough) :
    Steady part (m.enterCleared state) :=
  h.of_ne rfl rfl hstate

theorem actionExecute (h : Steady part m) (wch : WChar) :
    Steady part (m.actionExecute (outputEngine e) wch) :=
  h.safeExecute h.part

theorem actionPrint (h : Steady part m) (wch : WChar) :
    Steady part (m.actionPrint (outputEngine e) wch) :=
  h.safeExecute h.part

theorem actionPrintString (h : Steady part m) (string : List WChar) :
    Steady part (m.actionPrintString (outputEngine e) string) :=
  h.safeExecute h.part

theorem actionVt52EscDispatch (h : Steady part m) (wch : WChar) :
    Steady part (m.actionVt52EscDispatch (outputEngine e) wch) :=
  h.safeExecute h.part

theorem actionOscDispatch (h : Steady part m) :
    Steady part (m.actionOscDispatch (outputEngine e)) :=
  h.safeExecute h.part

theorem actionSs3Dispatch (h : Steady part m) (wch : WChar) :
    Steady part (m.actionSs3Dispatch (outputEngine e) wch) :=
  h.safeExecute h.part

theorem actionCollect (h : Steady part m) (wch : WChar) : Steady part (m.actionCollect wch) :=
  h.of_eq rfl rfl rfl rfl

theorem pushFirstParameter (h : Steady part m) : Steady part m.pushFirstParameter := by
  obtain ⟨parameters, subParameterRanges, hpush⟩ := m.exists_pushFirstParameter
  rw [hpush]
  exact h.of_eq rfl rfl rfl rfl

theorem actionParam (h : Steady part m) (wch : WChar) : Steady part (m.actionParam wch) := by
  unfold StateMachine.actionParam
  dsimp only
  split_ifs
  · exact h
  · exact h.pushFirstParameter.of_eq rfl rfl rfl rfl
  · exact h.pushFirstParameter.of_eq rfl rfl rfl rfl
  · exact h.pushFirstParameter.of_eq rfl rfl rfl rfl

theorem actionSubParam (h : Steady part m) (wch : WChar) :
    Steady part (m.actionSubParam wch) := by
  unfold StateMachine.actionSubParam
  dsimp only
  split_ifs
  · exact h
  · exact h.pushFirstParameter.of_eq rfl rfl rfl rfl
  · exact h.pushFirstParameter.of_eq rfl rfl rfl rfl
  · exact h.pushFirstParameter.of_eq rfl rfl rfl rfl

theorem callDcsStringHandler (h : Steady part m) (hstate : m.state = .dcsPassThrough)
    (wch : WChar) : Steady part (m.callDcsStringHandler wch).1 := by
  unfold StateMachine.callDcsStringHandler
  split
  · next f hf => exact h.of_eq (h.handler hstate f hf wch _) rfl rfl rfl
  · exact h

theorem actionInterrupt (h : Steady part m) : Steady part m.actionInterrupt := by
  unfold StateMachine.actionInterrupt
  split_ifs with hstate
  · have hcall := h.callDcsStringHandler hstate esc
    exact ⟨hcall.part, hcall.output, fun _ => nofun⟩
  · exact h

theorem actionDcsDispatch (h : Steady part m) {p : ℕ} (hbuffer : part.2.macroBuffer = some p)
    (hdepth : (part.2.buffers p).invokedDepth ≠ 0) (wch : WChar) :
    Steady part (m.actionDcsDispatch (outputEngine e) wch) := by
  unfold StateMachine.actionDcsDispatch outputEngine
  by_cases hid : m.identifier.finalize wch = decdmacId
  · simp only [hid, if_true]
    set h' : AdapterHost τ :=
      ((e.lift restLens).actionDcsDispatch decdmacId m.vtParameters m.host).1 with hh'
    have hpart : macroPart h' = part := h.part
    rw [defineMacro_of_inUse (p := p) (by rw [← hbuffer, ← hpart]; rfl)
      (by rwa [← hpart] at hdepth)]
    exact ⟨hpart, h.output, nofun⟩
  · simp only [hid, if_false]
    split_ifs
    · refine ⟨h.part, h.output, fun _ f hf wch h' => ?_⟩
      obtain ⟨rest, -, rfl⟩ := Option.mem_map.mp hf
      rfl
    · exact ⟨h.part, h.output, nofun⟩

end Steady

/-- What an escape sequence leads to: it leaves the macros alone, or gives the buffer up. -/
def Escaped (part : Option MacroCall × Adapter Unit) (m : Terminal τ) : Prop :=
  Steady part m ∨ Steady (part.1, part.2.releaseMacros) m ∧ m.state = .ground

theorem macroPart_releaseMacros (h : AdapterHost τ) :
    macroPart { h with engine := h.engine.releaseMacros } =
      ((macroPart h).1, (macroPart h).2.releaseMacros) := by
  rcases h with ⟨⟨rest, buffers, nextBuffer, _ | p, invocations⟩, _, _, _, _⟩ <;> rfl

namespace Steady

theorem actionEscDispatch (h : Steady part m) (wch : WChar) :
    Escaped part (m.actionEscDispatch (outputEngine e) wch).enterGround := by
  let result := (e.lift restLens).actionEscDispatch (m.identifier.finalize wch) m.host
  by_cases hris : m.identifier.finalize wch = risId ∧ result.2.isSome
  · refine .inr ⟨(h.safeExecute ?_).enterGround, rfl⟩
    rw [outputEngine]
    dsimp only
    rw [if_pos hris, macroPart_releaseMacros]
    exact congrArg (fun part => (part.1, part.2.releaseMacros)) h.part
  · refine .inl (h.safeExecute ?_).enterGround
    rw [outputEngine]
    dsimp only
    rw [if_neg hris]
    exact h.part

/-! #### Events -/

theorem eventGround (h : Steady part m) (wch : WChar) :
    Steady part (m.eventGround (outputEngine e) wch) := by
  unfold StateMachine.eventGround
  split_ifs
  · exact h.actionExecute wch
  · exact h.actionPrint wch

theorem eventEscape (h : Steady part m) (wch : WChar) :
    Escaped part (m.eventEscape (outputEngine e) wch) := by
  unfold StateMachine.eventEscape
  simp only [h.output, Bool.and_false, Bool.false_eq_true, if_false]
  split_ifs
  · exact .inl (h.actionExecute wch)
  · exact .inl h
  · exact .inl ((h.actionCollect wch).enter nofun)
  · exact .inl (h.enterCleared nofun)
  · exact .inl (h.enter nofun)
  · exact .inl (h.enterCleared nofun)
  · exact .inl (h.of_ne rfl rfl nofun)
  · exact h.actionEscDispatch wch
  · exact .inl (h.enter nofun)
  · exact .inl (h.actionVt52EscDispatch wch).enterGround

theorem eventEscapeIntermediate (h : Steady part m) (wch : WChar) :
    Escaped part (m.eventEscapeIntermediate (outputEngine e) wch) := by
  unfold StateMachine.eventEscapeIntermediate
  split_ifs
  · exact .inl (h.actionExecute wch)
  · exact .inl (h.actionCollect wch)
  · exact .inl h
  · exact h.actionEscDispatch wch
  · exact .inl (h.enter nofun)
  · exact .inl (h.actionVt52EscDispatch wch).enterGround

theorem eventCsiIgnore (h : Steady part m) (wch : WChar) :
    Steady part (m.eventCsiIgnore (outputEngine e) wch) := by
  unfold StateMachine.eventCsiIgnore
  split_ifs
  · exact h.actionExecute wch
  · exact h
  · exact h
  · exact h
  · exact h.enterGround

theorem eventOscParam (h : Steady part m) (wch : WChar) :
    Steady part (m.eventOscParam (outputEngine e) wch) := by
  unfold StateMachine.eventOscParam
  split_ifs
  · exact h.actionOscDispatch.enterGround
  · exact h.enter nofun
  · exact h.of_eq rfl rfl rfl rfl
  · exact h.enter nofun
  · exact h

theorem eventOscString (h : Steady part m) (wch : WChar) :
    Steady part (m.eventOscString (outputEngine e) wch) := by
  unfold StateMachine.eventOscString
  split_ifs
  · exact h.actionOscDispatch.enterGround
  · exact h.enter nofun
  · exact h
  · exact h.of_eq rfl rfl rfl rfl

theorem eventOscTermination (h : Steady part m) (wch : WChar) :
    Escaped part (m.eventOscTermination (outputEngine e) wch) := by
  unfold StateMachine.eventOscTermination
  split_ifs
  · exact .inl h.actionOscDispatch.enterGround
  · have hcleared : Steady part (m.enterCleared .escape) := h.enterCleared nofun
    exact hcleared.eventEscape wch

theorem eventSs3Entry (h : Steady part m) (wch : WChar) :
    Steady part (m.eventSs3Entry (outputEngine e) wch) := by
  unfold StateMachine.eventSs3Entry
  split_ifs
  · exact h.actionExecute wch
  · exact h
  · exact h.enter nofun
  · exact (h.actionParam wch).enter nofun
  · exact (h.actionSs3Dispatch wch).enterGround

theorem eventSs3Param (h : Steady part m) (wch : WChar) :
    Steady part (m.eventSs3Param (outputEngine e) wch) := by
  unfold StateMachine.eventSs3Param
  split_ifs
  · exact h.actionExecute wch
  · exact h
  · exact h.actionParam wch
  · exact h.enter nofun
  · exact (h.actionSs3Dispatch wch).enterGround

theorem eventVt52Param (h : Steady part m) (wch : WChar) :
    Steady part (m.eventVt52Param (outputEngine e) wch) := by
  have hpush : Steady part { m with parameters := m.parameters ++ [some wch.toNat] } :=
    h.of_eq rfl rfl rfl rfl
  unfold StateMachine.eventVt52Param
  dsimp only
  split_ifs
  · exact h.actionExecute wch
  · exact h
  · exact (hpush.actionVt52EscDispatch 0x59).enterGround
  · exact hpush

theorem eventDcsEntry (h : Steady part m) {p : ℕ} (hbuffer : part.2.macroBuffer = some p)
    (hdepth : (part.2.buffers p).invokedDepth ≠ 0) (wch : WChar) :
    Steady part (m.eventDcsEntry (outputEngine e) wch) := by
  unfold StateMachine.eventDcsEntry
  split_ifs
  · exact h
  · exact h
  · exact h.enterUncached nofun
  · exact (h.actionParam wch).enter nofun
  · exact (h.actionCollect wch).enter nofun
  · exact h.actionDcsDispatch hbuffer hdepth wch

theorem eventDcsIntermediate (h : Steady part m) {p : ℕ} (hbuffer : part.2.macroBuffer = some p)
    (hdepth : (part.2.buffers p).invokedDepth ≠ 0) (wch : WChar) :
    Steady part (m.eventDcsIntermediate (outputEngine e) wch) := by
  unfold StateMachine.eventDcsIntermediate
  split_ifs
  · exact h
  · exact h
  · exact h.actionCollect wch
  · exact h.enterUncached nofun
  · exact h.actionDcsDispatch hbuffer hdepth wch

theorem eventDcsParam (h : Steady part m) {p : ℕ} (hbuffer : part.2.macroBuffer = some p)
    (hdepth : (part.2.buffers p).invokedDepth ≠ 0) (wch : WChar) :
    Steady part (m.eventDcsParam (outputEngine e) wch) := by
  unfold StateMachine.eventDcsParam
  simp only [StateMachine.actionIgnore, ite_self]
  split_ifs
  · exact h.actionParam wch
  · exact (h.actionCollect wch).enter nofun
  · exact h.enterUncached nofun
  · exact h.actionDcsDispatch hbuffer hdepth wch

theorem eventDcsPassThrough (h : Steady part m) (hstate : m.state = .dcsPassThrough)
    (wch : WChar) : Steady part (m.eventDcsPassThrough wch) := by
  unfold StateMachine.eventDcsPassThrough
  dsimp only
  split_ifs
  · exact (h.callDcsStringHandler hstate wch).enterUncached nofun
  · exact h.callDcsStringHandler hstate wch
  · exact h

end Steady

end Steady

/-! ### What a character leads to -/

section Effect

variable {τ : Type} {e : IStateMachineEngine τ Empty} {m : Terminal τ} {a : Adapter Unit}

/-- What runs an invocation. -/
abbrev Callback (τ : Type) := MacroCall → Terminal τ → Option (Terminal τ)

/-- What a character leads to within an invocation: it leaves the macros alone, it gives the buffer
up, or it registers an invocation that follows at once. -/
inductive Effect (a : Adapter Unit) (f : Callback τ → Option (Terminal τ)) : Prop
  | steady (m : Terminal τ) (result : ∀ callback, f callback = some m)
      (hm : Steady (none, a) m)
  | released (m : Terminal τ) (result : ∀ callback, f callback = some m)
      (hm : Steady (none, a.releaseMacros) m) (hstate : m.state = .ground)
  | invoked (p macroId : ℕ) (m : Terminal τ) (hbuffer : a.macroBuffer = some p)
      (result : ∀ callback, f callback = m.executeCsiCompleteCallback callback)
      (hm : Steady (some ⟨p, macroId⟩, a) m)

theorem Steady.effect (h : Steady (none, a) m) : Effect a fun _ => some m :=
  .steady m (fun _ => rfl) h

theorem Escaped.effect (h : Escaped (none, a) m) : Effect a fun _ => some m := by
  obtain h | ⟨h, hstate⟩ := h
  · exact h.effect
  · exact .released m (fun _ => rfl) h hstate

theorem registerMacro_cases (macroId : ℕ) (h : AdapterHost τ) :
    registerMacro macroId h = h ∨
    ∃ p, h.engine.macroBuffer = some p ∧
      registerMacro macroId h = { h with onCsiCompleteCallback := some ⟨p, macroId⟩ } := by
  unfold registerMacro
  split
  · next p hp => exact .inr ⟨p, hp, rfl⟩
  · exact .inl rfl

theorem macroPart_actionCsiDispatch (id : VTID) (parameters : VTParameters) (h : AdapterHost τ) :
    macroPart ((outputEngine e).actionCsiDispatch id parameters h).1 = macroPart h ∨
    ∃ p macroId, h.engine.macroBuffer = some p ∧
      macroPart ((outputEngine e).actionCsiDispatch id parameters h).1 =
        (some ⟨p, macroId⟩, (macroPart h).2) := by
  let rest := ((e.lift restLens).actionCsiDispatch id parameters h).1
  rw [outputEngine]
  dsimp only
  split_ifs
  · obtain hregister | ⟨p, hp, hregister⟩ :=
      registerMacro_cases ((parameters.at_ 0).getD 0) rest
    · left
      change macroPart (registerMacro _ rest) = macroPart h
      rw [hregister]
      rfl
    · right
      refine ⟨p, (parameters.at_ 0).getD 0, hp, ?_⟩
      change macroPart (registerMacro _ rest) = _
      rw [hregister]
      rfl
  · exact .inl rfl

theorem executeCsiCompleteCallback_none {callback : Callback τ}
    (h : m.host.onCsiCompleteCallback = none) :
    m.executeCsiCompleteCallback callback = some m := by
  rw [StateMachine.executeCsiCompleteCallback, h]

namespace Steady

theorem completeCsi (h : Steady (none, a) m) (wch : WChar) :
    Effect a fun callback => m.completeCsi (outputEngine e) callback wch := by
  have hbuffer : m.host.engine.macroBuffer = a.macroBuffer :=
    congrArg (fun part => part.2.macroBuffer) h.part
  obtain hpart | ⟨p, macroId, hp, hpart⟩ := macroPart_actionCsiDispatch (e := e)
    (m.identifier.finalize wch) m.vtParametersWithSubParameters m.host
  · have hm := (h.safeExecute (e := e) (hpart.trans h.part)).enterGround
    exact .steady _ (fun _ => executeCsiCompleteCallback_none (congrArg Prod.fst hm.part)) hm
  · rw [h.part] at hpart
    exact .invoked p macroId _ (hbuffer ▸ hp) (fun _ => rfl) (h.safeExecute hpart).enterGround

theorem eventCsiEntry (h : Steady (none, a) m) (wch : WChar) :
    Effect a fun callback => m.eventCsiEntry (outputEngine e) callback wch := by
  unfold StateMachine.eventCsiEntry
  split_ifs
  · exact (h.actionExecute wch).effect
  · exact h.effect
  · exact effect ((h.actionCollect wch).enter nofun)
  · exact effect ((h.actionParam wch).enter nofun)
  · exact effect ((h.actionSubParam wch).enter nofun)
  · exact effect ((h.actionCollect wch).enter nofun)
  · exact h.completeCsi wch

theorem eventCsiIntermediate (h : Steady (none, a) m) (wch : WChar) :
    Effect a fun callback => m.eventCsiIntermediate (outputEngine e) callback wch := by
  unfold StateMachine.eventCsiIntermediate
  split_ifs
  · exact (h.actionExecute wch).effect
  · exact (h.actionCollect wch).effect
  · exact h.effect
  · exact effect (h.enter nofun)
  · exact h.completeCsi wch

theorem eventCsiParam (h : Steady (none, a) m) (wch : WChar) :
    Effect a fun callback => m.eventCsiParam (outputEngine e) callback wch := by
  unfold StateMachine.eventCsiParam
  split_ifs
  · exact (h.actionExecute wch).effect
  · exact h.effect
  · exact (h.actionParam wch).effect
  · exact effect ((h.actionSubParam wch).enter nofun)
  · exact effect ((h.actionCollect wch).enter nofun)
  · exact effect (h.enter nofun)
  · exact h.completeCsi wch

theorem eventCsiSubParam (h : Steady (none, a) m) (wch : WChar) :
    Effect a fun callback => m.eventCsiSubParam (outputEngine e) callback wch := by
  unfold StateMachine.eventCsiSubParam
  split_ifs
  · exact (h.actionExecute wch).effect
  · exact h.effect
  · exact (h.actionSubParam wch).effect
  · exact effect ((h.actionParam wch).enter nofun)
  · exact effect ((h.actionCollect wch).enter nofun)
  · exact effect (h.enter nofun)
  · exact h.completeCsi wch

theorem event (h : Steady (none, a) m) {p : ℕ} (hbuffer : a.macroBuffer = some p)
    (hdepth : (a.buffers p).invokedDepth ≠ 0) (wch : WChar) :
    Effect a fun callback => m.event (outputEngine e) callback wch := by
  unfold StateMachine.event
  cases hstate : m.state with
  | ground => exact (h.eventGround wch).effect
  | escape => exact (h.eventEscape wch).effect
  | escapeIntermediate => exact (h.eventEscapeIntermediate wch).effect
  | csiEntry => exact h.eventCsiEntry wch
  | csiIntermediate => exact h.eventCsiIntermediate wch
  | csiIgnore => exact (h.eventCsiIgnore wch).effect
  | csiParam => exact h.eventCsiParam wch
  | csiSubParam => exact h.eventCsiSubParam wch
  | oscParam => exact (h.eventOscParam wch).effect
  | oscString => exact (h.eventOscString wch).effect
  | oscTermination => exact (h.eventOscTermination wch).effect
  | ss3Entry => exact (h.eventSs3Entry wch).effect
  | ss3Param => exact (h.eventSs3Param wch).effect
  | vt52Param => exact (h.eventVt52Param wch).effect
  | dcsEntry => exact (h.eventDcsEntry hbuffer hdepth wch).effect
  | dcsIgnore => exact h.effect
  | dcsIntermediate => exact (h.eventDcsIntermediate hbuffer hdepth wch).effect
  | dcsParam => exact (h.eventDcsParam hbuffer hdepth wch).effect
  | dcsPassThrough => exact (h.eventDcsPassThrough hstate wch).effect
  | sosPmApcString => exact h.effect

theorem processNonC1 (h : Steady (none, a) m) {p : ℕ} (hbuffer : a.macroBuffer = some p)
    (hdepth : (a.buffers p).invokedDepth ≠ 0) (wch : WChar) :
    Effect a fun callback => m.processNonC1 (outputEngine e) callback wch := by
  unfold StateMachine.processNonC1
  split_ifs
  · exact (h.actionInterrupt.actionExecute wch).enterGround.effect
  · exact effect (h.actionInterrupt.enterCleared nofun)
  · exact h.event hbuffer hdepth wch

theorem processNonC1_esc (h : Steady (none, a) m) :
    ∃ m', (∀ callback, m.processNonC1 (outputEngine e) callback Vt.esc = some m') ∧
      Steady (none, a) m' := by
  by_cases hosc : m.state = .oscString ∨ m.state = .oscParam
  · exact ⟨_, fun callback => StateMachine.processNonC1_esc_of_osc _ callback hosc, h.enter nofun⟩
  · exact ⟨_, fun callback => StateMachine.processNonC1_esc _ callback hosc,
      h.actionInterrupt.enterCleared nofun⟩

theorem processCharacter (h : Steady (none, a) m) {p : ℕ} (hbuffer : a.macroBuffer = some p)
    (hdepth : (a.buffers p).invokedDepth ≠ 0) (wch : WChar) :
    Effect a fun callback => m.processCharacter (outputEngine e) callback wch := by
  unfold StateMachine.processCharacter
  split_ifs
  · obtain ⟨m', hm', h'⟩ := h.processNonC1_esc (e := e)
    simp only [hm', Option.bind_some]
    exact h'.processNonC1 hbuffer hdepth _
  · exact h.effect
  · exact h.processNonC1 hbuffer hdepth wch

end Steady

end Effect

/-! ### Inside an invocation -/

section Inside

variable {τ : Type} {e : IStateMachineEngine τ Empty} {m m' : Terminal τ} {a a' a'' : Adapter Unit}
  {p d : ℕ} {C : Callback τ → Prop} {id : Fin 64}
  {string : StringView (Adapter τ) MacroCall} {fuel macroId : ℕ}

/-- The machine in the middle of `d` invocations of macros of the buffer at `p`. The buffer is the
one in use, or a hard reset has given it up, and then all macros are `NUL`. -/
structure Inside (p d : ℕ) (a : Adapter Unit) (m : Terminal τ) : Prop where
  steady : Steady (none, a) m
  depth : (a.buffers p).invokedDepth = d
  used : (a.buffers p).invokedSequenceLength < maxSpace
  phase : a.macroBuffer = some p ∨
    a.macroBuffer = none ∧ m.state = .ground ∧ ∀ id, ∀ ch ∈ (a.buffers p).macros id, ch = 0

/-- From `a` to `a'` macros have been fed to the machine, and their length is accounted for. -/
def Feeds (p : ℕ) (a a' : Adapter Unit) : Prop :=
  ∃ nested : List (ℕ × ℕ),
    a'.invocations = a.invocations ++ nested ∧
    (∀ x ∈ nested, x.1 ≤ 16) ∧
    (a'.buffers p).invokedSequenceLength =
      (a.buffers p).invokedSequenceLength + (nested.map Prod.snd).sum

/-- With each of the callbacks a step ends, in the same way, inside the same invocations. -/
def Leads (C : Callback τ → Prop) (p d : ℕ) (a : Adapter Unit)
    (f : Callback τ → Option (Terminal τ)) : Prop :=
  ∃ m' a', (∀ callback, C callback → f callback = some m') ∧ Inside p d a' m' ∧ Feeds p a a'

/-- Each of the callbacks runs a nested invocation to its end. -/
def Runs (C : Callback τ → Prop) (p d : ℕ) : Prop :=
  ∀ macroId m a, Inside p d a m → Leads C p d a fun callback => callback ⟨p, macroId⟩ m

theorem Feeds.of_eq (hinvocations : a'.invocations = a.invocations)
    (hlength : (a'.buffers p).invokedSequenceLength = (a.buffers p).invokedSequenceLength) :
    Feeds p a a' :=
  ⟨[], by simp [hinvocations], nofun, by simp [hlength]⟩

theorem Feeds.trans (h : Feeds p a a') (h' : Feeds p a' a'') : Feeds p a a'' := by
  obtain ⟨first, hfirst, hdepth, hlength⟩ := h
  obtain ⟨second, hsecond, hdepth', hlength'⟩ := h'
  refine ⟨first ++ second, by rw [hsecond, hfirst, List.append_assoc], ?_, ?_⟩
  · intro x hx
    exact (List.mem_append.mp hx).elim (hdepth x) (hdepth' x)
  · rw [hlength', hlength, List.map_append, List.sum_append, Nat.add_assoc]

namespace Leads

variable {f : Callback τ → Option (Terminal τ)}

theorem of_inside (hm : Inside p d a m) (h : ∀ callback, f callback = some m) :
    Leads C p d a f :=
  ⟨m, a, fun callback _ => h callback, hm, .of_eq rfl rfl⟩

theorem bind {g : Callback τ → Terminal τ → Option (Terminal τ)} (hf : Leads C p d a f)
    (hg : ∀ m' a', Inside p d a' m' → Leads C p d a' fun callback => g callback m') :
    Leads C p d a fun callback => (f callback).bind (g callback) := by
  obtain ⟨m', a', hresult, hm', hfeeds⟩ := hf
  obtain ⟨m'', a'', hresult', hm'', hfeeds'⟩ := hg m' a' hm'
  refine ⟨m'', a'', fun callback hcallback => ?_, hm'', hfeeds.trans hfeeds'⟩
  dsimp only
  rw [hresult callback hcallback, Option.bind_some]
  exact hresult' callback hcallback

theorem map {g : Terminal τ → Terminal τ} (hf : Leads C p d a f)
    (hg : ∀ m' a', Inside p d a' m' → Inside p d a' (g m')) :
    Leads C p d a fun callback => (f callback).map g := by
  obtain ⟨m', a', hresult, hm', hfeeds⟩ := hf
  refine ⟨g m', a', fun callback hcallback => ?_, hg m' a' hm', hfeeds⟩
  dsimp only
  rw [hresult callback hcallback, Option.map_some]

end Leads

theorem Inside.congr (h : Inside p d a m) (hm' : Steady (none, a) m')
    (hstate : m'.state = m.state) : Inside p d a m' :=
  ⟨hm', h.depth, h.used, hstate ▸ h.phase⟩

theorem inside_releaseMacros (h : Inside p d a m) (hd : d ≠ 0) (hbuffer : a.macroBuffer = some p)
    (hm' : Steady (none, a.releaseMacros) m') (hstate : m'.state = .ground) :
    Inside p d a.releaseMacros m' ∧ Feeds p a a.releaseMacros := by
  have hrelease : a.releaseMacros =
      { a.setBuffer p (a.buffers p).clearMacrosIfInUse with macroBuffer := none } := by
    rw [Adapter.releaseMacros, hbuffer]
  have hclear : (a.buffers p).clearMacrosIfInUse =
      { a.buffers p with
        macros := fun id => List.replicate ((a.buffers p).macros id).length 0 } :=
    if_pos (Nat.pos_of_ne_zero (h.depth ▸ hd))
  have hnew : a.releaseMacros.buffers p = (a.buffers p).clearMacrosIfInUse := by
    rw [hrelease]
    exact Function.update_self _ _ _
  rw [hclear] at hnew
  refine ⟨⟨hm', ?_, ?_, .inr ⟨?_, hstate, fun id ch hch => ?_⟩⟩, .of_eq ?_ ?_⟩
  · rw [hnew]
    exact h.depth
  · rw [hnew]
    exact h.used
  · rw [hrelease]
  · rw [hnew] at hch
    exact List.eq_of_mem_replicate hch
  · rw [hrelease]
    rfl
  · rw [hnew]

theorem safeExecute_state (action : Action (Adapter τ) MacroCall) :
    (m.safeExecute (outputEngine e) action).state = m.state := by
  have hflush (m : Terminal τ) : (m.flushToTerminal (outputEngine e)).state = m.state := by
    unfold StateMachine.flushToTerminal
    cases m.cachedSequence <;> rfl
  unfold StateMachine.safeExecute
  dsimp only
  split_ifs
  · exact hflush _
  · rfl

theorem processCharacter_nul {callback : Callback τ} (hstate : m.state = .ground) :
    m.processCharacter (outputEngine e) callback 0 =
      some (m.actionExecute (outputEngine e) 0) := by
  rw [StateMachine.processCharacter_of_isPlain ⟨rfl, rfl, rfl⟩, StateMachine.event, hstate]
  rfl

theorem Inside.processCharacter (h : Inside p d a m) (hd : d ≠ 0) (hC : Runs C p d) {wch : WChar}
    (hnul : a.macroBuffer = none → wch = 0) :
    Leads C p d a fun callback => m.processCharacter (outputEngine e) callback wch := by
  obtain hbuffer | ⟨hnone, hground, hmacros⟩ := h.phase
  · have hdepth : (a.buffers p).invokedDepth ≠ 0 := h.depth ▸ hd
    obtain ⟨m', hresult, hm'⟩ | ⟨m', hresult, hm', hstate⟩ | ⟨q, macroId, m', hq, hresult, hm'⟩ :=
      h.steady.processCharacter (e := e) hbuffer hdepth wch
    · exact .of_inside ⟨hm', h.depth, h.used, .inl hbuffer⟩ hresult
    · obtain ⟨hinside, hfeeds⟩ := inside_releaseMacros h hd hbuffer hm' hstate
      exact ⟨m', _, fun callback _ => hresult callback, hinside, hfeeds⟩
    · obtain rfl := Option.some_inj.mp (hbuffer.symm.trans hq)
      let m₀ : Terminal τ := { m' with host := { m'.host with onCsiCompleteCallback := none } }
      have hm₀ : Inside p d a m₀ :=
        ⟨⟨congrArg (fun part => (none, part.2)) hm'.part, hm'.output, hm'.handler⟩, h.depth,
          h.used, .inl hbuffer⟩
      have hrun := (hC macroId m₀ a hm₀).map (g := fun m'' =>
        { m'' with
          currentString := m'.currentString
          runOffset := m'.runOffset
          runSize := m'.runSize }) fun m'' a' hm'' =>
        hm''.congr (hm''.steady.of_eq rfl rfl rfl rfl) rfl
      have hexecute (callback : Callback τ) :
          m.processCharacter (outputEngine e) callback wch = _ :=
        (hresult callback).trans (by
          rw [StateMachine.executeCsiCompleteCallback, show
            m'.host.onCsiCompleteCallback = some ⟨p, macroId⟩ from congrArg Prod.fst hm'.part])
      simp only [hexecute]
      exact hrun
  · obtain rfl := hnul hnone
    exact .of_inside (h.congr (h.steady.actionExecute 0) (safeExecute_state _)) fun _ =>
      processCharacter_nul hground

theorem Inside.nul (h : Inside p d a m) (id : Fin 64) (i : ℕ) (hnone : a.macroBuffer = none) :
    ((m.host.engine.buffers p).macros id).getD i 0 = 0 := by
  have hbuffers : m.host.engine.buffers p = a.buffers p :=
    congrArg (fun part => part.2.buffers p) h.steady.part
  obtain hbuffer | ⟨-, -, hmacros⟩ := h.phase
  · exact absurd (hnone.symm.trans hbuffer) nofun
  · rw [hbuffers, List.getD_eq_getElem?_getD]
    cases hch : ((a.buffers p).macros id)[i]? with
    | none => rfl
    | some ch => exact hmacros id ch (List.mem_of_getElem? hch)

theorem Inside.processLoop (hd : d ≠ 0) (hC : Runs C p d)
    (hstring : ∀ h, string.chars h = (h.engine.buffers p).macros id) (vtStart : Bool) (i : ℕ)
    (h : Inside p d a m) :
    Leads C p d a fun callback => m.processLoop (outputEngine e) callback string vtStart i := by
  -- On what is left of the string; the label is passed at once where nothing is printed.
  induction hn : string.size - i using Nat.strong_induction_on generalizing vtStart i m a with
  | _ n ih =>
    have hlabel {m : Terminal τ} {a : Adapter Unit} (h : Inside p d a m) :
        Leads C p d a fun callback =>
          m.processLoop (outputEngine e) callback string true i := by
      by_cases hi : i < string.size
      · let m₁ : Terminal τ := { m with
          runSize := m.runSize + 1
          host := { m.host with processingLastCharacter := string.size ≤ i + 1 } }
        have hm₁ : Inside p d a m₁ := h.congr (h.steady.of_eq rfl rfl rfl rfl) rfl
        have hloop (callback : Callback τ) :
            m.processLoop (outputEngine e) callback string true i =
              (m₁.processCharacter (outputEngine e) callback
                (((m.host.engine.buffers p).macros id).getD i 0)).bind fun m' =>
                m'.processLoop (outputEngine e) callback string (m'.state != .ground) (i + 1) := by
          rw [StateMachine.processLoop, if_pos hi, if_pos rfl]
          change (m₁.processCharacter _ callback ((string.chars m₁.host).getD i 0)).bind _ = _
          rw [hstring]
        simp only [hloop]
        refine (hm₁.processCharacter hd hC fun hnone => h.nul id i hnone).bind fun m' a' hm' => ?_
        exact ih _ (by omega) _ (i + 1) hm' rfl
      · refine .of_inside h fun callback => ?_
        rw [StateMachine.processLoop, if_neg hi]
    cases vtStart with
    | true => exact hlabel h
    | false =>
      by_cases hi : i < string.size
      · let n := (m.printableRun string i).length
        let m₁ : Terminal τ := { m with runOffset := i, runSize := n }
        have hm₁ : Inside p d a m₁ := h.congr (h.steady.of_eq rfl rfl rfl rfl) rfl
        by_cases hrun : n = 0
        · have hloop (callback : Callback τ) :
              m.processLoop (outputEngine e) callback string false i =
                m₁.processLoop (outputEngine e) callback string true i := by
            rw [StateMachine.processLoop, if_pos hi, if_neg Bool.false_ne_true]
            exact if_neg (not_not.mpr hrun)
          simp only [hloop]
          exact hlabel hm₁
        · let m₂ : Terminal τ := { m₁.actionPrintString (outputEngine e) m₁.currentRun with
            runOffset := i + n
            runSize := 0 }
          have hm₂ : Inside p d a m₂ :=
            hm₁.congr ((hm₁.steady.actionPrintString _).of_eq rfl rfl rfl rfl) (safeExecute_state _)
          have hloop (callback : Callback τ) :
              m.processLoop (outputEngine e) callback string false i =
                m₂.processLoop (outputEngine e) callback string true (i + n) := by
            rw [StateMachine.processLoop, if_pos hi, if_neg Bool.false_ne_true]
            exact if_pos hrun
          simp only [hloop]
          exact ih _ (by omega) true (i + n) hm₂ rfl
      · refine .of_inside h fun callback => ?_
        rw [StateMachine.processLoop, if_neg hi]

theorem Inside.processUnfinished (h : Inside p d a m) :
    Inside p d a (m.processUnfinished (outputEngine e)) := by
  unfold StateMachine.processUnfinished
  simp only [h.steady.output, Bool.false_and, Bool.false_eq_true, if_false]
  split_ifs
  · exact h
  · exact h
  · exact h.congr (h.steady.of_eq rfl h.steady.output.symm rfl rfl) rfl

theorem Inside.processString (h : Inside p d a m) (hd : d ≠ 0) (hC : Runs C p d)
    (hstring : ∀ h, string.chars h = (h.engine.buffers p).macros id) :
    Leads C p d a fun callback => m.processString (outputEngine e) callback string := by
  have hm : Inside p d a { m with currentString := string, runOffset := 0, runSize := 0 } :=
    h.congr (h.steady.of_eq rfl rfl rfl rfl) rfl
  exact (hm.processLoop hd hC hstring _ 0).map fun m' a' hm' => hm'.processUnfinished

/-! ### Invocations and their end -/

theorem beginInvoke_of_canInvoke {b : MacroBuffer} (hcan : b.CanInvoke id)
    (hused : b.invokedSequenceLength < maxSpace) :
    b.invokedSequenceLength + (b.macros id).length < maxSpace ∧
    b.beginInvoke id =
      { b with
        invokedSequenceLength := b.invokedSequenceLength + (b.macros id).length
        invokedDepth := b.invokedDepth + 1 } := by
  have hmax : maxSpace < 2 ^ 64 := by decide
  have hallowed : sizeT (maxSpace - b.invokedSequenceLength) =
      maxSpace - b.invokedSequenceLength := sizeT_of_eq (by omega) (by omega)
  have hlength := hcan.2
  rw [hallowed] at hlength
  have htotal : b.invokedSequenceLength + (b.macros id).length < maxSpace := by omega
  have hsum : sizeT (b.invokedSequenceLength + (b.macros id).length) =
      b.invokedSequenceLength + (b.macros id).length := sizeT_of_eq (by omega) (by omega)
  refine ⟨htotal, ?_⟩
  rw [MacroBuffer.beginInvoke, dif_pos id.isLt]
  refine (if_pos hcan).trans ?_
  exact congrArg (fun invokedSequenceLength =>
    { b with invokedSequenceLength, invokedDepth := b.invokedDepth + 1 }) hsum

theorem Inside.begun (h : Inside p d a m) (hcan : (a.buffers p).CanInvoke id) :
    ∃ a', Inside p (d + 1) a' (begun m p id) ∧ Feeds p a a' := by
  obtain rfl : (macroPart m.host).2 = a := congrArg Prod.snd h.steady.part
  obtain ⟨htotal, hbegin⟩ := beginInvoke_of_canInvoke hcan h.used
  let a' := (macroPart (Macros.begun m p id).host).2
  have hnew : a'.buffers p = (m.host.engine.buffers p).beginInvoke id := Function.update_self _ _ _
  have hbuffer := hnew.trans hbegin
  have hdepth : (m.host.engine.buffers p).invokedDepth = d := h.depth
  refine ⟨a', ⟨⟨?_, h.steady.output, h.steady.handler⟩, ?_, ?_, ?_⟩,
    [(d + 1, ((m.host.engine.buffers p).macros id).length)], ?_, ?_, ?_⟩
  · exact congrArg (fun part => (part.1, a')) h.steady.part
  · rw [hbuffer]
    exact congrArg (· + 1) hdepth
  · rw [hbuffer]
    exact htotal
  · rw [hbuffer]
    exact h.phase
  · rw [← hdepth]
    rfl
  · have hdeep := hcan.1
    rw [h.depth] at hdeep
    simpa using hdeep
  · rw [hbuffer]
    simp [macroPart]

theorem Inside.ended (h : Inside p (d + 1) a m) (hd : d ≠ 0) :
    ∃ a', Inside p d a' (ended m p) ∧ Feeds p a a' := by
  obtain rfl : (macroPart m.host).2 = a := congrArg Prod.snd h.steady.part
  have hdepth : (m.host.engine.buffers p).invokedDepth = d + 1 := h.depth
  have hend : (m.host.engine.buffers p).endInvoke = { m.host.engine.buffers p with
      invokedDepth := (m.host.engine.buffers p).invokedDepth - 1 } :=
    if_neg (by omega)
  let a' := (macroPart (Macros.ended m p).host).2
  have hnew : a'.buffers p = (m.host.engine.buffers p).endInvoke := Function.update_self _ _ _
  have hbuffer := hnew.trans hend
  refine ⟨a', ⟨⟨?_, h.steady.output, h.steady.handler⟩, ?_, ?_, ?_⟩, .of_eq rfl ?_⟩
  · exact congrArg (fun part => (part.1, a')) h.steady.part
  · rw [hbuffer]
    exact Nat.sub_eq_of_eq_add hdepth
  · rw [hbuffer]
    exact h.used
  · rw [hbuffer]
    exact h.phase
  · rw [hbuffer]
    rfl

theorem Inside.invoke (h : Inside p d a m) (hcan : (a.buffers p).CanInvoke id)
    (hC : Runs C p (d + 1)) :
    ∃ m' a', (∀ callback, C callback → (Macros.begun m p id).processString (outputEngine e) callback
        (macroSequence m p id) = some m') ∧ Inside p (d + 1) a' m' ∧ Feeds p a a' := by
  obtain ⟨a₁, hbegun, hfeeds⟩ := h.begun hcan
  have hstring (h : AdapterHost τ) :
      (macroSequence m p id).chars h = (h.engine.buffers p).macros id := rfl
  obtain ⟨m', a', hresult, hm', hfeeds'⟩ :=
    hbegun.processString (e := e) d.succ_ne_zero hC hstring
  exact ⟨m', a', hresult, hm', hfeeds.trans hfeeds'⟩

/-- The callbacks that are allowed as many nested invocations as the depth leaves. -/
def Enough (e : IStateMachineEngine τ Empty) (d : ℕ) (callback : Callback τ) : Prop :=
  ∃ fuel, 17 ≤ fuel + d ∧ callback = invokeMacro e fuel

theorem invokeMacro_of_canInvoke (hid : macroId < 64)
    (hcan : (m.host.engine.buffers p).CanInvoke ⟨macroId, hid⟩) :
    invokeMacro e (fuel + 1) ⟨p, macroId⟩ m =
      ((begun m p ⟨macroId, hid⟩).processString (outputEngine e) (invokeMacro e fuel)
        (macroSequence m p ⟨macroId, hid⟩)).map fun m => ended m p := by
  rw [invokeMacro, dif_pos hid, if_pos hcan]

theorem invokeMacro_refused
    (h : ¬∃ hid : macroId < 64, (m.host.engine.buffers p).CanInvoke ⟨macroId, hid⟩) :
    invokeMacro e (fuel + 1) ⟨p, macroId⟩ m = some m := by
  by_cases hid : macroId < 64
  · rw [invokeMacro, dif_pos hid, if_neg fun hcan => h ⟨hid, hcan⟩]
  · rw [invokeMacro, dif_neg hid]

theorem runs_of_next (hd : d ≠ 0) (hdepth : d ≤ 16)
    (hnext : d < 16 → Runs (Enough e (d + 1)) p (d + 1)) : Runs (Enough e d) p d := by
  intro macroId m a h
  obtain rfl : (macroPart m.host).2 = a := congrArg Prod.snd h.steady.part
  by_cases hinvoke : ∃ hid : macroId < 64, (m.host.engine.buffers p).CanInvoke ⟨macroId, hid⟩
  · obtain ⟨hid, hcan⟩ := hinvoke
    have hlt : d < 16 := h.depth ▸ hcan.1
    obtain ⟨m', a₁, hresult, hm', hfeeds⟩ := h.invoke (e := e) hcan (hnext hlt)
    obtain ⟨a', hended, hfeeds'⟩ := hm'.ended hd
    refine ⟨ended m' p, a', ?_, hended, hfeeds.trans hfeeds'⟩
    rintro _ ⟨_ | fuel, hfuel, rfl⟩
    · omega
    · dsimp only
      rw [invokeMacro_of_canInvoke hid hcan, hresult _ ⟨fuel, by omega, rfl⟩, Option.map_some]
  · refine ⟨m, _, ?_, h, .of_eq rfl rfl⟩
    rintro _ ⟨_ | fuel, hfuel, rfl⟩
    · omega
    · exact invokeMacro_refused hinvoke

theorem runs_invokeMacro (hd : d ≠ 0) (hdepth : d ≤ 16) : Runs (Enough e d) p d := by
  induction hn : 16 - d generalizing d with
  | zero => exact runs_of_next hd hdepth fun hlt => by omega
  | succ n ih => exact runs_of_next hd hdepth fun hlt => ih d.succ_ne_zero hlt (by omega)

end Inside

/-! ### The invocation that is not inside another one -/

section Root

variable {τ : Type} {m : Terminal τ} {p : ℕ}

/-- The machine in front of an invocation that is not inside another one. -/
structure AtRoot (p : ℕ) (m : Terminal τ) : Prop where
  output : m.isEngineForInput = false
  ground : m.state = .ground
  noCallback : m.host.onCsiCompleteCallback = none
  buffer : m.host.engine.macroBuffer = some p
  depth : (m.host.engine.buffers p).invokedDepth = 0
  length : (m.host.engine.buffers p).invokedSequenceLength = 0

theorem AtRoot.inside (h : AtRoot p m) : Inside p 0 (macroPart m.host).2 m where
  steady := ⟨congrArg (fun callback => (callback, (macroPart m.host).2)) h.noCallback, h.output,
    fun hstate => absurd (h.ground.symm.trans hstate) nofun⟩
  depth := h.depth
  used := by
    rw [show ((macroPart m.host).2.buffers p).invokedSequenceLength = 0 from h.length]
    decide
  phase := .inl h.buffer

theorem completeCsi_of_decinvm (e : IStateMachineEngine τ Empty)
    (houtput : m.isEngineForInput = false) (hstate : m.state ≠ .dcsPassThrough)
    (hbuffer : m.host.engine.macroBuffer = some p)
    (hdepth : (m.host.engine.buffers p).invokedDepth = 0)
    (hlength : (m.host.engine.buffers p).invokedSequenceLength = 0) {wch : WChar}
    (hid : m.identifier.finalize wch = decinvmId) (hsub : m.subParameters = [])
    (callback : Callback τ) :
    ∃ m', AtRoot p m' ∧ m.completeCsi (outputEngine e) callback wch =
      (callback ⟨p, (m.parameters.getD 0 none).getD 0⟩ m').map fun m'' =>
        { m'' with
          currentString := m'.currentString
          runOffset := m'.runOffset
          runSize := m'.runSize } := by
  let parameters := m.vtParametersWithSubParameters
  let call : MacroCall := ⟨p, (m.parameters.getD 0 none).getD 0⟩
  let rest := ((e.lift restLens).actionCsiDispatch (m.identifier.finalize wch) parameters m.host).1
  have hregister : registerMacro ((parameters.at_ 0).getD 0) rest =
      { rest with onCsiCompleteCallback := some call } := by
    rw [registerMacro, show rest.engine.macroBuffer = some p from hbuffer]
    rfl
  have hpart : macroPart ((outputEngine e).actionCsiDispatch (m.identifier.finalize wch) parameters
      m.host).1 = (some call, (macroPart m.host).2) := by
    rw [outputEngine]
    dsimp only
    rw [if_pos ⟨hid, hsub⟩]
    exact congrArg macroPart hregister
  have hsteady : Steady (macroPart m.host) m :=
    ⟨rfl, houtput, fun hdcs => absurd hdcs hstate⟩
  have hm := (hsteady.safeExecute (e := e) hpart).enterGround
  let m₁ := (m.actionCsiDispatch (outputEngine e) wch).enterGround
  refine ⟨{ m₁ with host := { m₁.host with onCsiCompleteCallback := none } },
    ⟨hm.output, rfl, rfl, ?_, ?_, ?_⟩, ?_⟩
  · exact (congrArg (fun part => part.2.macroBuffer) hm.part).trans hbuffer
  · exact (congrArg (fun part => (part.2.buffers p).invokedDepth) hm.part).trans hdepth
  · exact (congrArg (fun part => (part.2.buffers p).invokedSequenceLength) hm.part).trans hlength
  · rw [StateMachine.completeCsi, StateMachine.executeCsiCompleteCallback,
      show m₁.host.onCsiCompleteCallback = some call from congrArg Prod.fst hm.part]

/-- An invocation that is not inside another one ends, whatever the macros are, and in the same way
for any number of nested invocations from 16 on. No macro is fed to the machine at a depth over 16,
all macros together are shorter than `MAX_SPACE`, and both counters are zero afterwards. -/
theorem invokeMacro_bounded (e : IStateMachineEngine τ Empty) (h : AtRoot p m) (macroId : ℕ) :
    ∃ m' nested,
      (∀ fuel, 17 ≤ fuel → invokeMacro e fuel ⟨p, macroId⟩ m = some m') ∧
      m'.host.engine.invocations = m.host.engine.invocations ++ nested ∧
      (∀ x ∈ nested, x.1 ≤ 16) ∧
      (nested.map Prod.snd).sum < maxSpace ∧
      (m'.host.engine.buffers p).invokedDepth = 0 ∧
      (m'.host.engine.buffers p).invokedSequenceLength = 0 := by
  by_cases hinvoke : ∃ hid : macroId < 64, (m.host.engine.buffers p).CanInvoke ⟨macroId, hid⟩
  · obtain ⟨hid, hcan⟩ := hinvoke
    obtain ⟨m', a', hresult, hm', nested, hnested, hdepth, hlength⟩ :=
      h.inside.invoke (e := e) hcan (runs_invokeMacro one_ne_zero (by decide))
    obtain rfl : (macroPart m'.host).2 = a' := congrArg Prod.snd hm'.steady.part
    have hend : (m'.host.engine.buffers p).endInvoke = { m'.host.engine.buffers p with
        invokedDepth := 0
        invokedSequenceLength := 0 } :=
      if_pos hm'.depth
    have hbuffer : (ended m' p).host.engine.buffers p = _ :=
      (Function.update_self _ _ _).trans hend
    refine ⟨ended m' p, nested, fun fuel hfuel => ?_, hnested, hdepth, ?_, ?_, ?_⟩
    · obtain _ | fuel := fuel
      · omega
      · rw [invokeMacro_of_canInvoke hid hcan, hresult _ ⟨fuel, by omega, rfl⟩, Option.map_some]
    · have hused := hm'.used
      have hzero : ((macroPart m.host).2.buffers p).invokedSequenceLength = 0 := h.length
      omega
    · rw [hbuffer]
    · rw [hbuffer]
  · refine ⟨m, [], fun fuel hfuel => ?_, (List.append_nil _).symm, nofun, by decide, h.depth,
      h.length⟩
    obtain _ | fuel := fuel
    · omega
    · exact invokeMacro_refused hinvoke

/-- A macro that invokes itself. -/
theorem invokeMacro_bounded_recursive :
    let macros : MacroBuffer := { macros := fun _ => [Vt.esc, 0x5B, 0x2A, 0x7A] }
    let m : Terminal Unit :=
      { host := { engine := { rest := (), buffers := fun _ => macros, macroBuffer := some 0 } } }
    ∃ m' nested,
      (∀ fuel, 17 ≤ fuel → invokeMacro idleEngine fuel ⟨0, 0⟩ m = some m') ∧
      m'.host.engine.invocations = m.host.engine.invocations ++ nested ∧
      (∀ x ∈ nested, x.1 ≤ 16) ∧
      (nested.map Prod.snd).sum < maxSpace ∧
      (m'.host.engine.buffers 0).invokedDepth = 0 ∧
      (m'.host.engine.buffers 0).invokedSequenceLength = 0 :=
  invokeMacro_bounded idleEngine ⟨rfl, rfl, rfl, rfl, rfl, rfl⟩ 0

end Root

end IntelligentTerminal.Macros