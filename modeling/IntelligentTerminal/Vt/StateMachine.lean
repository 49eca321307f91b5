import IntelligentTerminal.Vt.Sgr

/-!
# The state machine of the VT parser

`StateMachine` takes the characters of a stream apart and tells its engine what to do. The engine is
a parameter: each of its actions changes what an action can reach, which is the engine itself, the
parser mode and the callback for the end of a control sequence, and reports whether it has handled
the sequence. A callback may call `ProcessString` again, and this may not return, so that the events
that can reach it are partial.

Exceptions of an action are caught by `_SafeExecute`. `ActionPassThroughString` always returns
`true` in both engines, and is modelled without a result. Tracing and `_injections` are left out.

Source: `src/terminal/parser/stateMachine.cpp`; `src/terminal/parser/stateMachine.hpp`;
`src/terminal/parser/IStateMachineEngine.hpp`; `src/terminal/adapter/DispatchTypes.hpp`, lines
10-105; `src/types/utils.cpp`, lines 1136-1150.
-/

namespace IntelligentTerminal.Vt

open IntelligentTerminal.Buffer (WChar)

/-! ### Characters -/

/-- `AsciiChars::CAN`. -/
def can : WChar := 0x18

/-- `AsciiChars::SUB`. -/
def sub : WChar := 0x1A

/-- `AsciiChars::ESC`. -/
def esc : WChar := 0x1B

def isNumericParamValue (wch : WChar) : Bool := 0x30 ≤ wch && wch ≤ 0x39

def isC0Code (wch : WChar) : Bool :=
  wch ≤ 0x17 || wch == 0x19 || (0x1C ≤ wch && wch ≤ 0x1F)

def isC1ControlCharacter (wch : WChar) : Bool := 0x80 ≤ wch && wch ≤ 0x9F

def c1To7Bit (wch : WChar) : WChar := wch - 0x40

def isIntermediate (wch : WChar) : Bool := 0x20 ≤ wch && wch ≤ 0x2F

def isDelete (wch : WChar) : Bool := wch == 0x7F

def isEscape (wch : WChar) : Bool := wch == esc

def isParameterDelimiter (wch : WChar) : Bool := wch == 0x3B

def isSubParameterDelimiter (wch : WChar) : Bool := wch == 0x3A

def isCsiIndicator (wch : WChar) : Bool := wch == 0x5B

def isCsiPrivateMarker (wch : WChar) : Bool :=
  wch == 0x3C || wch == 0x3D || wch == 0x3E || wch == 0x3F

def isIntermediateInvalid (wch : WChar) : Bool :=
  isNumericParamValue wch || isSubParameterDelimiter wch || isParameterDelimiter wch ||
    isCsiPrivateMarker wch

def isParameterInvalid (wch : WChar) : Bool := isCsiPrivateMarker wch

def isStringTerminatorIndicator (wch : WChar) : Bool := wch == 0x5C

def isSs3Indicator (wch : WChar) : Bool := wch == 0x4F

def isVt52CursorAddress (wch : WChar) : Bool := wch == 0x59

def isOscIndicator (wch : WChar) : Bool := wch == 0x5D

def isOscDelimiter (wch : WChar) : Bool := wch == 0x3B

def isOscInvalid (wch : WChar) : Bool :=
  wch ≤ 0x17 || wch == 0x19 || (0x1C ≤ wch && wch ≤ 0x1F)

def isOscTerminator (wch : WChar) : Bool := wch == 0x07

def isDcsIndicator (wch : WChar) : Bool := wch == 0x50

def isDcsPassThroughValid (wch : WChar) : Bool := 0x20 ≤ wch && wch < 0x7F

def isSosIndicator (wch : WChar) : Bool := wch == 0x58

def isPmIndicator (wch : WChar) : Bool := wch == 0x5E

def isApcIndicator (wch : WChar) : Bool := wch == 0x5F

def isActionableFromGround (wch : WChar) : Bool := wch ≤ 0x1F || wch - 0x7F ≤ 0x20

/-! ### Identifiers -/

/-- `VTID`: a value of seven bytes. -/
abbrev VTID := UInt64

structure VTIDBuilder where
  idAccumulator : UInt64 := 0
  idShift : ℕ := 0
deriving DecidableEq

namespace VTIDBuilder

def addIntermediate (b : VTIDBuilder) (intermediateChar : WChar) : VTIDBuilder :=
  if b.idShift + 8 * 2 ≥ 64 then { b with idAccumulator := 0 }
  else
    { idAccumulator := b.idAccumulator + intermediateChar.toUInt64 <<< b.idShift.toUInt64
      idShift := b.idShift + 8 }

/-- `VTIDBuilder::Finalize`, with the constructor of `VTID`. -/
def finalize (b : VTIDBuilder) (finalChar : WChar) : VTID :=
  (b.idAccumulator + finalChar.toUInt64 <<< b.idShift.toUInt64) &&& 0x00FFFFFFFFFFFFFF

end VTIDBuilder

/-! ### The engine -/

/-- What an action can reach: the engine's own state, the parser mode, `_processingLastCharacter`
and `_onCsiCompleteCallback`. -/
structure Host (σ κ : Type) where
  engine : σ
  acceptC1 : Bool := false
  ansi : Bool := true
  processingLastCharacter : Bool := false
  onCsiCompleteCallback : Option κ := none

/-- An action, with what it returns; an exception has no result. -/
abbrev Action (σ κ : Type) := Host σ κ → Host σ κ × Option Bool

/-- `IStateMachineEngine::StringHandler`. -/
abbrev StringHandler (σ κ : Type) := WChar → Host σ κ → Host σ κ × Bool

/-- `class IStateMachineEngine`. Only the engine for the input has an
`EncounteredWin32InputModeSequence` that is not `false`. -/
structure IStateMachineEngine (σ κ : Type) where
  unknownSequence : Host σ κ → Host σ κ
  encounteredWin32InputModeSequence : Host σ κ → Bool
  actionExecute : WChar → Action σ κ
  actionExecuteFromEscape : WChar → Action σ κ
  actionPrint : WChar → Action σ κ
  actionPrintString : List WChar → Action σ κ
  actionPassThroughString : List WChar → Host σ κ → Host σ κ
  actionEscDispatch : VTID → Action σ κ
  actionVt52EscDispatch : VTID → VTParameters → Action σ κ
  actionCsiDispatch : VTID → VTParameters → Action σ κ
  /-- An exception leaves `_dcsStringHandler` empty, as a sequence without a handler does. -/
  actionDcsDispatch : VTID → VTParameters → Host σ κ → Host σ κ × Option (StringHandler σ κ)
  actionOscDispatch : ℕ → List WChar → Action σ κ
  actionSs3Dispatch : WChar → VTParameters → Action σ κ

/-! ### The state machine -/

def maxParameterValue : ℕ := 65535

def maxParameterCount : ℕ := 32

def maxSubParameterCount : ℕ := 6

/-- `StateMachine::VTStates`. -/
inductive VTStates
  | ground
  | escape
  | escapeIntermediate
  | csiEntry
  | csiIntermediate
  | csiIgnore
  | csiParam
  | csiSubParam
  | oscParam
  | oscString
  | oscTermination
  | ss3Entry
  | ss3Param
  | vt52Param
  | dcsEntry
  | dcsIgnore
  | dcsIntermediate
  | dcsParam
  | dcsPassThrough
  | sosPmApcString
deriving DecidableEq

/-- A `std::wstring_view`: the memory that it views may change while it is used. -/
structure StringView (σ κ : Type) where
  size : ℕ := 0
  chars : Host σ κ → List WChar := fun _ => []

/-- The view of a string that does not change. -/
def StringView.ofList {σ κ : Type} (string : List WChar) : StringView σ κ :=
  { size := string.length, chars := fun _ => string }

structure StateMachine (σ κ : Type) where
  host : Host σ κ
  isEngineForInput : Bool := false
  state : VTStates := .ground
  currentString : StringView σ κ := {}
  runOffset : ℕ := 0
  runSize : ℕ := 0
  identifier : VTIDBuilder := {}
  parameters : List VTParameter := []
  parameterLimitOverflowed : Bool := false
  subParameters : List VTParameter := []
  subParameterRanges : List (UInt8 × UInt8) := []
  subParameterLimitOverflowed : Bool := false
  subParameterCounter : UInt8 := 0
  oscString : List WChar := []
  oscParameter : ℕ := 0
  dcsStringHandler : Option (StringHandler σ κ) := none
  cachedSequence : Option (List WChar) := none

/-- `StateMachine::_AccumulateTo`. -/
def accumulateTo (wch : WChar) (value : ℕ) : ℕ :=
  min (value * 10 + (wch - 0x30).toNat) maxParameterValue

namespace StateMachine

section Machine

variable {σ κ : Type} (e : IStateMachineEngine σ κ)
  (callback : κ → StateMachine σ κ → Option (StateMachine σ κ)) (m : StateMachine σ κ)

def currentRun : List WChar := ((m.currentString.chars m.host).drop m.runOffset).take m.runSize

def flushToTerminal : StateMachine σ κ :=
  let m := match m.cachedSequence with
    | some cachedSequence =>
      { m with
        host := e.actionPassThroughString cachedSequence m.host
        cachedSequence := none }
    | none => m
  { m with host := e.actionPassThroughString m.currentRun m.host }

def safeExecute (action : Action σ κ) : StateMachine σ κ :=
  let (host, ok) := action m.host
  let m := { m with host }
  if ok = some false then m.flushToTerminal e else m

/-- `{ _parameters.data(), _parameters.size() }`. -/
def vtParameters : VTParameters := { params := m.parameters }

def vtParametersWithSubParameters : VTParameters where
  params := m.parameters
  subParams := m.subParameters
  subParamRanges := m.subParameterRanges.map fun range => (range.1.toNat, range.2.toNat)

/-! #### Actions -/

def actionExecute (wch : WChar) : StateMachine σ κ := m.safeExecute e (e.actionExecute wch)

def actionExecuteFromEscape (wch : WChar) : StateMachine σ κ :=
  m.safeExecute e (e.actionExecuteFromEscape wch)

def actionPrint (wch : WChar) : StateMachine σ κ := m.safeExecute e (e.actionPrint wch)

def actionPrintString (string : List WChar) : StateMachine σ κ :=
  m.safeExecute e (e.actionPrintString string)

def actionEscDispatch (wch : WChar) : StateMachine σ κ :=
  m.safeExecute e (e.actionEscDispatch (m.identifier.finalize wch))

def actionVt52EscDispatch (wch : WChar) : StateMachine σ κ :=
  m.safeExecute e (e.actionVt52EscDispatch (m.identifier.finalize wch) m.vtParameters)

def actionCsiDispatch (wch : WChar) : StateMachine σ κ :=
  m.safeExecute e
    (e.actionCsiDispatch (m.identifier.finalize wch) m.vtParametersWithSubParameters)

def actionCollect (wch : WChar) : StateMachine σ κ :=
  { m with identifier := m.identifier.addIntermediate wch }

/-- The first parameter of `_ActionParam` and of `_ActionSubParam`. -/
def pushFirstParameter : StateMachine σ κ :=
  if m.parameters = [] then
    let rangeStart := m.subParameters.length.toUInt8
    { m with
      parameters := m.parameters ++ [none]
      subParameterRanges := m.subParameterRanges ++ [(rangeStart, rangeStart)] }
  else m

def actionParam (wch : WChar) : StateMachine σ κ :=
  if m.parameterLimitOverflowed then m
  else
    let m := m.pushFirstParameter
    if isParameterDelimiter wch then
      if m.parameters.length ≥ maxParameterCount then { m with parameterLimitOverflowed := true }
      else
        let rangeStart := m.subParameters.length.toUInt8
        { m with
          parameters := m.parameters ++ [none]
          subParameterCounter := 0
          subParameterLimitOverflowed := false
          subParameterRanges := m.subParameterRanges ++ [(rangeStart, rangeStart)] }
    else
      { m with
        parameters := m.parameters.modifyLast fun currentParameter =>
          some (accumulateTo wch (currentParameter.getD 0)) }

def actionSubParam (wch : WChar) : StateMachine σ κ :=
  if m.subParameterLimitOverflowed then m
  else
    let m := m.pushFirstParameter
    if isSubParameterDelimiter wch then
      if m.subParameterCounter.toNat ≥ maxSubParameterCount then
        { m with subParameterLimitOverflowed := true }
      else
        { m with
          subParameters := m.subParameters ++ [none]
          subParameterRanges := m.subParameterRanges.modifyLast fun range =>
            (range.1, range.2 + 1)
          subParameterCounter := m.subParameterCounter + 1 }
    else
      { m with
        subParameters := m.subParameters.modifyLast fun currentSubParameter =>
          some (accumulateTo wch (currentSubParameter.getD 0)) }

def actionClear : StateMachine σ κ :=
  { m with
    identifier := {}
    parameters := []
    parameterLimitOverflowed := false
    subParameters := []
    subParameterRanges := []
    subParameterCounter := 0
    subParameterLimitOverflowed := false
    oscString := []
    oscParameter := 0
    dcsStringHandler := none }

def actionIgnore : StateMachine σ κ := m

/-- A call of `_dcsStringHandler`. It is not empty in the state `DcsPassThrough`. -/
def callDcsStringHandler (wch : WChar) : StateMachine σ κ × Bool :=
  match m.dcsStringHandler with
  | some handler =>
    let (host, ok) := handler wch m.host
    ({ m with host }, ok)
  | none => (m, false)

def actionInterrupt : StateMachine σ κ :=
  if m.state = .dcsPassThrough then { (m.callDcsStringHandler esc).1 with dcsStringHandler := none }
  else m

def actionOscParam (wch : WChar) : StateMachine σ κ :=
  { m with oscParameter := accumulateTo wch m.oscParameter }

def actionOscPut (wch : WChar) : StateMachine σ κ := { m with oscString := m.oscString ++ [wch] }

def actionOscDispatch : StateMachine σ κ :=
  m.safeExecute e (e.actionOscDispatch m.oscParameter m.oscString)

def actionSs3Dispatch (wch : WChar) : StateMachine σ κ :=
  m.safeExecute e (e.actionSs3Dispatch wch m.vtParameters)

/-! #### States -/

/-- A change of the state that does nothing else: `_EnterEscapeIntermediate`, `_EnterCsiParam`,
`_EnterCsiSubParam`, `_EnterCsiIgnore`, `_EnterCsiIntermediate`, `_EnterOscParam`,
`_EnterOscString`, `_EnterOscTermination`, `_EnterSs3Param`, `_EnterVt52Param`, `_EnterDcsParam`,
`_EnterDcsIntermediate`. -/
def enter (state : VTStates) : StateMachine σ κ := { m with state }

/-- A change of the state that begins a sequence: `_EnterEscape`, `_EnterCsiEntry`,
`_EnterSs3Entry`, `_EnterDcsEntry`. -/
def enterCleared (state : VTStates) : StateMachine σ κ := (m.enter state).actionClear

/-- A change of the state that completes the pending sequence: `_EnterGround`, `_EnterDcsIgnore`,
`_EnterDcsPassThrough`. -/
def enterUncached (state : VTStates) : StateMachine σ κ :=
  { m with state, cachedSequence := none }

def enterGround : StateMachine σ κ := m.enterUncached .ground

def enterSosPmApcString : StateMachine σ κ :=
  let m := m.enterUncached .sosPmApcString
  { m with host := e.unknownSequence m.host }

def actionDcsDispatch (wch : WChar) : StateMachine σ κ :=
  let (host, dcsStringHandler) :=
    e.actionDcsDispatch (m.identifier.finalize wch) m.vtParameters m.host
  let m := { m with host, dcsStringHandler }
  if m.dcsStringHandler.isSome then m.enterUncached .dcsPassThrough else m.enterUncached .dcsIgnore

def executeCsiCompleteCallback : Option (StateMachine σ κ) :=
  match m.host.onCsiCompleteCallback with
  | some function =>
    (callback function { m with host := { m.host with onCsiCompleteCallback := none } }).map
      fun m' =>
        { m' with
          currentString := m.currentString
          runOffset := m.runOffset
          runSize := m.runSize }
  | none => some m

/-- The end of a control sequence in `_EventCsiEntry`, `_EventCsiIntermediate`, `_EventCsiParam` and
`_EventCsiSubParam`. -/
def completeCsi (wch : WChar) : Option (StateMachine σ κ) :=
  (m.actionCsiDispatch e wch).enterGround.executeCsiCompleteCallback callback

/-! #### Events -/

def eventGround (wch : WChar) : StateMachine σ κ :=
  if isC0Code wch || isDelete wch then m.actionExecute e wch else m.actionPrint e wch

def eventEscape (wch : WChar) : StateMachine σ κ :=
  if isC0Code wch then
    if m.isEngineForInput then (m.actionExecuteFromEscape e wch).enterGround
    else m.actionExecute e wch
  else if isDelete wch then m.actionIgnore
  else if isIntermediate wch then
    if m.isEngineForInput then (m.actionEscDispatch e wch).enterGround
    else (m.actionCollect wch).enter .escapeIntermediate
  else if m.host.ansi then
    if isCsiIndicator wch then m.enterCleared .csiEntry
    else if isOscIndicator wch then m.enter .oscParam
    else if isSs3Indicator wch && m.isEngineForInput then m.enterCleared .ss3Entry
    else if isDcsIndicator wch then m.enterCleared .dcsEntry
    else if isSosIndicator wch || isPmIndicator wch || isApcIndicator wch then
      m.enterSosPmApcString e
    else (m.actionEscDispatch e wch).enterGround
  else if isVt52CursorAddress wch then m.enter .vt52Param
  else (m.actionVt52EscDispatch e wch).enterGround

def eventEscapeIntermediate (wch : WChar) : StateMachine σ κ :=
  if isC0Code wch then m.actionExecute e wch
  else if isIntermediate wch then m.actionCollect wch
  else if isDelete wch then m.actionIgnore
  else if m.host.ansi then (m.actionEscDispatch e wch).enterGround
  else if isVt52CursorAddress wch then m.enter .vt52Param
  else (m.actionVt52EscDispatch e wch).enterGround

def eventCsiEntry (wch : WChar) : Option (StateMachine σ κ) :=
  if isC0Code wch then some (m.actionExecute e wch)
  else if isDelete wch then some m.actionIgnore
  else if isIntermediate wch then some ((m.actionCollect wch).enter .csiIntermediate)
  else if isNumericParamValue wch || isParameterDelimiter wch then
    some ((m.actionParam wch).enter .csiParam)
  else if isSubParameterDelimiter wch then some ((m.actionSubParam wch).enter .csiSubParam)
  else if isCsiPrivateMarker wch then some ((m.actionCollect wch).enter .csiParam)
  else m.completeCsi e callback wch

def eventCsiIntermediate (wch : WChar) : Option (StateMachine σ κ) :=
  if isC0Code wch then some (m.actionExecute e wch)
  else if isIntermediate wch then some (m.actionCollect wch)
  else if isDelete wch then some m.actionIgnore
  else if isIntermediateInvalid wch then some (m.enter .csiIgnore)
  else m.completeCsi e callback wch

def eventCsiIgnore (wch : WChar) : StateMachine σ κ :=
  if isC0Code wch then m.actionExecute e wch
  else if isDelete wch then m.actionIgnore
  else if isIntermediate wch then m.actionIgnore
  else if isIntermediateInvalid wch then m.actionIgnore
  else m.enterGround

def eventCsiParam (wch : WChar) : Option (StateMachine σ κ) :=
  if isC0Code wch then some (m.actionExecute e wch)
  else if isDelete wch then some m.actionIgnore
  else if isNumericParamValue wch || isParameterDelimiter wch then some (m.actionParam wch)
  else if isSubParameterDelimiter wch then some ((m.actionSubParam wch).enter .csiSubParam)
  else if isIntermediate wch then some ((m.actionCollect wch).enter .csiIntermediate)
  else if isParameterInvalid wch then some (m.enter .csiIgnore)
  else m.completeCsi e callback wch

def eventCsiSubParam (wch : WChar) : Option (StateMachine σ κ) :=
  if isC0Code wch then some (m.actionExecute e wch)
  else if isDelete wch then some m.actionIgnore
  else if isNumericParamValue wch || isSubParameterDelimiter wch then some (m.actionSubParam wch)
  else if isParameterDelimiter wch then some ((m.actionParam wch).enter .csiParam)
  else if isIntermediate wch then some ((m.actionCollect wch).enter .csiIntermediate)
  else if isParameterInvalid wch then some (m.enter .csiIgnore)
  else m.completeCsi e callback wch

def eventOscParam (wch : WChar) : StateMachine σ κ :=
  if isOscTerminator wch then (m.actionOscDispatch e).enterGround
  else if isEscape wch then m.enter .oscTermination
  else if isNumericParamValue wch then m.actionOscParam wch
  else if isOscDelimiter wch then m.enter .oscString
  else m.actionIgnore

def eventOscString (wch : WChar) : StateMachine σ κ :=
  if isOscTerminator wch then (m.actionOscDispatch e).enterGround
  else if isEscape wch then m.enter .oscTermination
  else if isOscInvalid wch then m.actionIgnore
  else m.actionOscPut wch

def eventOscTermination (wch : WChar) : StateMachine σ κ :=
  if isStringTerminatorIndicator wch then (m.actionOscDispatch e).enterGround
  else (m.enterCleared .escape).eventEscape e wch

def eventSs3Entry (wch : WChar) : StateMachine σ κ :=
  if isC0Code wch then m.actionExecute e wch
  else if isDelete wch then m.actionIgnore
  else if isSubParameterDelimiter wch then m.enter .csiIgnore
  else if isNumericParamValue wch || isParameterDelimiter wch then
    (m.actionParam wch).enter .ss3Param
  else (m.actionSs3Dispatch e wch).enterGround

def eventSs3Param (wch : WChar) : StateMachine σ κ :=
  if isC0Code wch then m.actionExecute e wch
  else if isDelete wch then m.actionIgnore
  else if isNumericParamValue wch || isParameterDelimiter wch then m.actionParam wch
  else if isParameterInvalid wch || isSubParameterDelimiter wch then m.enter .csiIgnore
  else (m.actionSs3Dispatch e wch).enterGround

def eventVt52Param (wch : WChar) : StateMachine σ κ :=
  if isC0Code wch then m.actionExecute e wch
  else if isDelete wch then m.actionIgnore
  else
    let m := { m with parameters := m.parameters ++ [some wch.toNat] }
    if m.parameters.length = 2 then (m.actionVt52EscDispatch e 0x59).enterGround else m

def eventDcsEntry (wch : WChar) : StateMachine σ κ :=
  if isC0Code wch then m.actionIgnore
  else if isDelete wch then m.actionIgnore
  else if isSubParameterDelimiter wch then m.enterUncached .dcsIgnore
  else if isNumericParamValue wch || isParameterDelimiter wch then
    (m.actionParam wch).enter .dcsParam
  else if isIntermediate wch then (m.actionCollect wch).enter .dcsIntermediate
  else m.actionDcsDispatch e wch

def eventDcsIgnore : StateMachine σ κ := m.actionIgnore

def eventDcsIntermediate (wch : WChar) : StateMachine σ κ :=
  if isC0Code wch then m.actionIgnore
  else if isDelete wch then m.actionIgnore
  else if isIntermediate wch then m.actionCollect wch
  else if isIntermediateInvalid wch then m.enterUncached .dcsIgnore
  else m.actionDcsDispatch e wch

/-- `StateMachine::_EventDcsParam`. The second `if` is no `else if` in the source. -/
def eventDcsParam (wch : WChar) : StateMachine σ κ :=
  let m := if isC0Code wch then m.actionIgnore else if isDelete wch then m.actionIgnore else m
  if isNumericParamValue wch || isParameterDelimiter wch then m.actionParam wch
  else if isIntermediate wch then (m.actionCollect wch).enter .dcsIntermediate
  else if isParameterInvalid wch || isSubParameterDelimiter wch then m.enterUncached .dcsIgnore
  else m.actionDcsDispatch e wch

def eventDcsPassThrough (wch : WChar) : StateMachine σ κ :=
  if isC0Code wch || isDcsPassThroughValid wch then
    let (m, ok) := m.callDcsStringHandler wch
    if !ok then m.enterUncached .dcsIgnore else m
  else m.actionIgnore

def eventSosPmApcString : StateMachine σ κ := m.actionIgnore

/-- The `switch` of `ProcessCharacter`. -/
def event (wch : WChar) : Option (StateMachine σ κ) :=
  match m.state with
  | .ground => some (m.eventGround e wch)
  | .escape => some (m.eventEscape e wch)
  | .escapeIntermediate => some (m.eventEscapeIntermediate e wch)
  | .csiEntry => m.eventCsiEntry e callback wch
  | .csiIntermediate => m.eventCsiIntermediate e callback wch
  | .csiIgnore => some (m.eventCsiIgnore e wch)
  | .csiParam => m.eventCsiParam e callback wch
  | .csiSubParam => m.eventCsiSubParam e callback wch
  | .oscParam => some (m.eventOscParam e wch)
  | .oscString => some (m.eventOscString e wch)
  | .oscTermination => some (m.eventOscTermination e wch)
  | .ss3Entry => some (m.eventSs3Entry e wch)
  | .ss3Param => some (m.eventSs3Param e wch)
  | .vt52Param => some (m.eventVt52Param e wch)
  | .dcsEntry => some (m.eventDcsEntry e wch)
  | .dcsIgnore => some m.eventDcsIgnore
  | .dcsIntermediate => some (m.eventDcsIntermediate e wch)
  | .dcsParam => some (m.eventDcsParam e wch)
  | .dcsPassThrough => some (m.eventDcsPassThrough wch)
  | .sosPmApcString => some m.eventSosPmApcString

/-! #### Characters and strings -/

def isFromAnywhereChar (wch : WChar) : Bool := wch == can || wch == sub

/-- `StateMachine::ProcessCharacter`, for any character that is not a C1 control. -/
def processNonC1 (wch : WChar) : Option (StateMachine σ κ) :=
  if isFromAnywhereChar wch && !(m.state == .escape && m.isEngineForInput) then
    some (m.actionInterrupt.actionExecute e wch).enterGround
  else if isEscape wch && m.state != .oscString && m.state != .oscParam then
    some (m.actionInterrupt.enterCleared .escape)
  else m.event e callback wch

/-- `StateMachine::ProcessCharacter`. A C1 control is replaced by its 7-bit equivalent, if it is
accepted. -/
def processCharacter (wch : WChar) : Option (StateMachine σ κ) :=
  if isC1ControlCharacter wch then
    if m.host.acceptC1 then
      (m.processNonC1 e callback esc).bind fun m => m.processNonC1 e callback (c1To7Bit wch)
    else some m
  else m.processNonC1 e callback wch

/-- One call of `ProcessCharacter` for each character. -/
def processCharacters : List WChar → StateMachine σ κ → Option (StateMachine σ κ)
  | [], m => some m
  | wch :: chars, m => (m.processCharacter e callback wch).bind (processCharacters chars)

/-- What `FindActionableControlCharacter` skips, from the position `i` on. -/
def printableRun (string : StringView σ κ) (i : ℕ) : List WChar :=
  (((string.chars m.host).drop i).take (string.size - i)).takeWhile fun wch =>
    !isActionableFromGround wch

/-- The loops of `ProcessString`, from the position `i` on; `vtStart` is the label
`processStringLoopVtStart`, or that the inner loop goes on. -/
def processLoop (string : StringView σ κ) (vtStart : Bool) (i : ℕ) (m : StateMachine σ κ) :
    Option (StateMachine σ κ) :=
  if i < string.size then
    if vtStart then
      let m := { m with
        runSize := m.runSize + 1
        host := { m.host with processingLastCharacter := string.size ≤ i + 1 } }
      (m.processCharacter e callback ((string.chars m.host).getD i 0)).bind fun m =>
        processLoop string (m.state != .ground) (i + 1) m
    else
      let n := (m.printableRun string i).length
      let m := { m with runOffset := i, runSize := n }
      if n ≠ 0 then
        processLoop string true (i + n)
          { m.actionPrintString e m.currentRun with runOffset := i + n, runSize := 0 }
      else processLoop string true i m
  else some m
termination_by (string.size - i, vtStart.not.toNat)
decreasing_by
  · exact .left _ _ (by omega)
  · exact .left _ _ (by omega)
  · exact .right _ (by simp_all)

/-- What `ProcessString` does with a sequence that the string does not complete. -/
def processUnfinished (m : StateMachine σ κ) : StateMachine σ κ :=
  if m.state = .ground then m
  else
    let run := m.currentRun
    let win32 := e.encounteredWin32InputModeSequence m.host
    if m.isEngineForInput && !win32 && run.length ≤ 2 && run.head? == some esc then
      let m := m.enterGround
      let m :=
        if run.length = 1 then m.actionExecute e esc
        else (m.enterCleared .escape).actionEscDispatch e (run.getLastD 0)
      m.enterGround
    else if !m.isEngineForInput && (m.state == .sosPmApcString || m.state == .dcsPassThrough ||
        m.state == .dcsIgnore) then
      m
    else { m with cachedSequence := some (m.cachedSequence.getD [] ++ run) }

def processString (string : StringView σ κ) : Option (StateMachine σ κ) :=
  let m := { m with currentString := string, runOffset := 0, runSize := 0 }
  (processLoop e callback string (m.state != .ground) 0 m).map (processUnfinished e)

theorem processCharacters_append (xs ys : List WChar) :
    processCharacters e callback (xs ++ ys) m =
      (processCharacters e callback xs m).bind (processCharacters e callback ys) := by
  induction xs generalizing m with
  | nil => rfl
  | cons wch xs ih =>
    rw [List.cons_append, processCharacters, processCharacters, Option.bind_assoc]
    congr 1
    funext m'
    exact ih m'

theorem processCharacters_singleton (wch : WChar) :
    processCharacters e callback [wch] m = m.processCharacter e callback wch := by
  rw [processCharacters]
  cases m.processCharacter e callback wch <;> rfl

/-- The characters that `ProcessCharacter` leaves to the state. -/
structure IsPlain (wch : WChar) : Prop where
  notC1 : isC1ControlCharacter wch = false
  notFromAnywhere : isFromAnywhereChar wch = false
  notEscape : isEscape wch = false

variable {e callback m} in
theorem processCharacter_of_isPlain {wch : WChar} (h : IsPlain wch) :
    m.processCharacter e callback wch = m.event e callback wch := by
  simp [processCharacter, processNonC1, h.notC1, h.notFromAnywhere, h.notEscape]

variable {m} in
theorem processNonC1_esc_of_osc (h : m.state = .oscString ∨ m.state = .oscParam) :
    m.processNonC1 e callback esc = some (m.enter .oscTermination) := by
  rcases h with h | h <;>
    simp [processNonC1, event, h, eventOscString, eventOscParam, esc, isFromAnywhereChar, can, sub,
      isEscape, isOscTerminator]

variable {m} in
theorem processNonC1_esc (h : ¬(m.state = .oscString ∨ m.state = .oscParam)) :
    m.processNonC1 e callback esc = some (m.actionInterrupt.enterCleared .escape) := by
  rw [not_or] at h
  simp [processNonC1, h.1, h.2, esc, isFromAnywhereChar, can, sub, isEscape]

theorem exists_eventEscape {e : IStateMachineEngine σ κ}
    {callback : κ → StateMachine σ κ → Option (StateMachine σ κ)} {m m₀ : StateMachine σ κ}
    {wch : WChar} (hplain : IsPlain wch) (hend : isStringTerminatorIndicator wch = false)
    (h : processCharacters e callback [esc, wch] m = some m₀) :
    ∃ m₁ : StateMachine σ κ, m₀ = (m₁.enterCleared .escape).eventEscape e wch := by
  rw [processCharacters, Option.bind_eq_some_iff] at h
  obtain ⟨m₁, hfirst, hsecond⟩ := h
  rw [processCharacters_singleton, processCharacter_of_isPlain hplain] at hsecond
  by_cases hosc : m.state = .oscString ∨ m.state = .oscParam
  · have hterminate : m.processCharacter e callback esc = some (m.enter .oscTermination) :=
      processNonC1_esc_of_osc e callback hosc
    obtain rfl := Option.some_inj.mp (hterminate.symm.trans hfirst)
    refine ⟨m.enter .oscTermination, ?_⟩
    rw [event] at hsecond
    simp only [enter, eventOscTermination, hend, Bool.false_eq_true, if_false] at hsecond
    exact (Option.some_inj.mp hsecond).symm
  · have hescape : m.processCharacter e callback esc =
        some (m.actionInterrupt.enterCleared .escape) := processNonC1_esc e callback hosc
    obtain rfl := Option.some_inj.mp (hescape.symm.trans hfirst)
    exact ⟨m.actionInterrupt, (Option.some_inj.mp hsecond).symm⟩

/-! #### Frames -/

theorem pushFirstParameter_enter (state : VTStates) :
    (m.enter state).pushFirstParameter = m.pushFirstParameter.enter state := by
  by_cases h : m.parameters = [] <;> simp [pushFirstParameter, enter, h]

@[simp] theorem pushFirstParameter_host : m.pushFirstParameter.host = m.host := by
  rw [pushFirstParameter, apply_ite host, ite_self]

@[simp] theorem pushFirstParameter_identifier :
    m.pushFirstParameter.identifier = m.identifier := by
  rw [pushFirstParameter, apply_ite identifier, ite_self]

theorem pushFirstParameter_of_ne (h : m.parameters ≠ []) : m.pushFirstParameter = m :=
  if_neg h

theorem pushFirstParameter_ne : m.pushFirstParameter.parameters ≠ [] := by
  by_cases h : m.parameters = []
  · simp [pushFirstParameter, h]
  · rwa [pushFirstParameter_of_ne m h]

theorem exists_pushFirstParameter : ∃ parameters subParameterRanges,
    m.pushFirstParameter = { m with parameters, subParameterRanges } := by
  by_cases h : m.parameters = []
  · exact ⟨_, _, if_pos h⟩
  · exact ⟨_, _, if_neg h⟩

@[simp] theorem actionParam_host (wch : WChar) : (m.actionParam wch).host = m.host := by
  simp [actionParam, apply_ite host]

@[simp] theorem actionParam_identifier (wch : WChar) :
    (m.actionParam wch).identifier = m.identifier := by
  simp [actionParam, apply_ite identifier]

theorem actionParam_enter (state : VTStates) (wch : WChar) :
    (m.enter state).actionParam wch = (m.actionParam wch).enter state := by
  simp only [actionParam, pushFirstParameter_enter, apply_ite (enter · state)]
  rfl

@[simp] theorem actionSubParam_host (wch : WChar) : (m.actionSubParam wch).host = m.host := by
  simp [actionSubParam, apply_ite host]

@[simp] theorem actionSubParam_identifier (wch : WChar) :
    (m.actionSubParam wch).identifier = m.identifier := by
  simp [actionSubParam, apply_ite identifier]

theorem actionSubParam_enter (state : VTStates) (wch : WChar) :
    (m.enter state).actionSubParam wch = (m.actionSubParam wch).enter state := by
  simp only [actionSubParam, pushFirstParameter_enter, apply_ite (enter · state)]
  rfl

end Machine

end StateMachine

/-! ### An engine as a part of another -/

/-- How the engine of a machine is kept in a larger one. -/
structure HostLens (σ κ σ' κ' : Type) where
  get : Host σ' κ' → Host σ κ
  set : Host σ κ → Host σ' κ' → Host σ' κ'

namespace HostLens

variable {σ κ σ' κ' : Type} (l : HostLens σ κ σ' κ')

/-- A function on the part. -/
def update (f : Host σ κ → Host σ κ) (h : Host σ' κ') : Host σ' κ' := l.set (f (l.get h)) h

/-- An action on the part, with what it returns. -/
def lift {β : Type} (f : Host σ κ → Host σ κ × β) (h : Host σ' κ') : Host σ' κ' × β :=
  (l.set (f (l.get h)).1 h, (f (l.get h)).2)

end HostLens

/-- The engine whose actions are those of a part. -/
def IStateMachineEngine.lift {σ κ σ' κ' : Type} (l : HostLens σ κ σ' κ')
    (e : IStateMachineEngine σ κ) : IStateMachineEngine σ' κ' where
  unknownSequence := l.update e.unknownSequence
  encounteredWin32InputModeSequence h := e.encounteredWin32InputModeSequence (l.get h)
  actionExecute wch := l.lift (e.actionExecute wch)
  actionExecuteFromEscape wch := l.lift (e.actionExecuteFromEscape wch)
  actionPrint wch := l.lift (e.actionPrint wch)
  actionPrintString string := l.lift (e.actionPrintString string)
  actionPassThroughString string := l.update (e.actionPassThroughString string)
  actionEscDispatch id := l.lift (e.actionEscDispatch id)
  actionVt52EscDispatch id parameters := l.lift (e.actionVt52EscDispatch id parameters)
  actionCsiDispatch id parameters := l.lift (e.actionCsiDispatch id parameters)
  actionDcsDispatch id parameters h :=
    let (h, handler) := l.lift (e.actionDcsDispatch id parameters) h
    (h, handler.map fun handler wch => l.lift (handler wch))
  actionOscDispatch parameter string := l.lift (e.actionOscDispatch parameter string)
  actionSs3Dispatch wch parameters := l.lift (e.actionSs3Dispatch wch parameters)

def idleEngine : IStateMachineEngine Unit Empty where
  unknownSequence h := h
  encounteredWin32InputModeSequence _ := false
  actionExecute _ h := (h, some true)
  actionExecuteFromEscape _ h := (h, some true)
  actionPrint _ h := (h, some true)
  actionPrintString _ h := (h, some true)
  actionPassThroughString _ h := h
  actionEscDispatch _ h := (h, some true)
  actionVt52EscDispatch _ _ h := (h, some true)
  actionCsiDispatch _ _ h := (h, some true)
  actionDcsDispatch _ _ h := (h, none)
  actionOscDispatch _ _ h := (h, some true)
  actionSs3Dispatch _ _ h := (h, some true)

end IntelligentTerminal.Vt
