import IntelligentTerminal.Buffer.Attributes
import Mathlib

/-!
# The memory of macros

`MacroBuffer` stores up to 64 macros in a fixed amount of memory. A definition charges each
character when it is decoded and the further copies of a repeated part all at once, and a macro
that is deleted is refunded. `_spaceUsed` is a `size_t` of 64 bits, and every operation on it wraps.

Source: `src/terminal/adapter/MacroBuffer.cpp`; `src/terminal/adapter/MacroBuffer.hpp`;
`src/terminal/adapter/DispatchTypes.hpp`, lines 667-677; `src/terminal/parser/stateMachine.hpp`,
line 27.
-/

namespace IntelligentTerminal.Macros

open IntelligentTerminal.Buffer (WChar)

/-- A value of type `size_t`. -/
def sizeT (v : ℤ) : ℕ := (v % 2 ^ 64).toNat

theorem sizeT_of_eq {v : ℤ} {n : ℕ} (h : v = n) (hn : n < 2 ^ 64) : sizeT v = n := by
  rw [sizeT, h]
  omega

/-- `MacroBuffer::MAX_SPACE`. -/
def maxSpace : ℕ := 0x40000

def maxParameterValue : ℕ := 65535

/-- `AsciiChars::ESC`. -/
def esc : WChar := 0x1b

/-- `DispatchTypes::MacroDeleteControl`, with the values that it has no name for. -/
inductive MacroDeleteControl
  | deleteId
  | deleteAll
  | other (value : ℤ)
deriving DecidableEq

/-- `DispatchTypes::MacroEncoding`, with the values that it has no name for. -/
inductive MacroEncoding
  | text
  | hexPair
  | other (value : ℤ)
deriving DecidableEq

/-- `MacroBuffer::State`. -/
inductive ParseState
  | expectingText
  | expectingHexDigit
  | expectingSecondHexDigit
  | expectingRepeatCount
deriving DecidableEq

/-- `class MacroBuffer`. The active macro is one of the 64, since `InitParser` refuses other ids. -/
structure MacroBuffer where
  parseState : ParseState := .expectingText
  decodedChar : WChar := 0
  repeatPending : Bool := false
  repeatCount : ℕ := 0
  repeatStart : ℕ := 0
  macros : Fin 64 → List WChar := fun _ => []
  activeMacroId : Fin 64 := 0
  spaceUsed : ℕ := 0
  invokedDepth : ℕ := 0
  invokedSequenceLength : ℕ := 0

namespace MacroBuffer

def new : MacroBuffer := {}

def getSpaceAvailable (b : MacroBuffer) : ℕ := sizeT (maxSpace - b.spaceUsed)

def activeMacro (b : MacroBuffer) : List WChar := b.macros b.activeMacroId

/-- Stores a macro. -/
def setMacro (b : MacroBuffer) (id : Fin 64) (chars : List WChar) : MacroBuffer :=
  { b with macros := Function.update b.macros id chars }

def deleteMacro (b : MacroBuffer) (id : Fin 64) : MacroBuffer :=
  { b.setMacro id [] with spaceUsed := sizeT (b.spaceUsed - (b.macros id).length) }

/-- `MacroBuffer::_decodeHexDigit`: whether it is one, and the character decoded so far. -/
def decodeHexDigit (b : MacroBuffer) (ch : WChar) : Bool × MacroBuffer :=
  let decodedChar := b.decodedChar <<< 4
  if 0x30 ≤ ch ∧ ch ≤ 0x39 then (true, { b with decodedChar := decodedChar + (ch - 0x30) })
  else if 0x41 ≤ ch ∧ ch ≤ 0x46 then
    (true, { b with decodedChar := decodedChar + (ch - 0x41 + 10) })
  else if 0x61 ≤ ch ∧ ch ≤ 0x66 then
    (true, { b with decodedChar := decodedChar + (ch - 0x61 + 10) })
  else (false, { b with decodedChar })

def appendToActiveMacro (b : MacroBuffer) (ch : WChar) : Bool × MacroBuffer :=
  if 0 < b.getSpaceAvailable then
    (true, { b.setMacro b.activeMacroId (b.activeMacro ++ [ch]) with
      spaceUsed := sizeT (b.spaceUsed + 1) })
  else (false, b)

/-- The loop of `_applyPendingRepeat`, for `count` more copies. `substr` would throw for a start
beyond the end of the macro, which `repeatStart_le` rules out. -/
def repeatLoop (sequenceLength : ℕ) : ℕ → MacroBuffer → MacroBuffer
  | 0, b => b
  | count + 1, b =>
    repeatLoop sequenceLength count
      { b.setMacro b.activeMacroId
          (b.activeMacro ++ (b.activeMacro.drop b.repeatStart).take sequenceLength) with
        spaceUsed := sizeT (b.spaceUsed + sequenceLength) }

/-- `sequenceLength` in `_applyPendingRepeat`. -/
def sequenceLength (b : MacroBuffer) : ℕ := sizeT (b.activeMacro.length - b.repeatStart)

/-- `spaceRequired` in `_applyPendingRepeat`. -/
def spaceRequired (b : MacroBuffer) : ℕ := sizeT ((b.repeatCount - 1) * b.sequenceLength)

def applyPendingRepeat (b : MacroBuffer) : Bool × MacroBuffer :=
  if 1 < b.repeatCount then
    if b.spaceRequired > b.getSpaceAvailable then (false, b)
    else
      (true, { repeatLoop b.sequenceLength (b.repeatCount - 1) b with repeatPending := false })
  else (true, { b with repeatPending := false })

def initParser (b : MacroBuffer) (macroId : ℕ) (deleteControl : MacroDeleteControl)
    (encoding : MacroEncoding) : Bool × MacroBuffer :=
  if h : macroId < 64 ∧ b.invokedDepth = 0 then
    let b := { b with activeMacroId := ⟨macroId, h.1⟩, decodedChar := 0, repeatPending := false }
    let parseState : Option ParseState := match encoding with
      | .hexPair => some .expectingHexDigit
      | .text => some .expectingText
      | .other _ => none
    match parseState with
    | none => (false, b)
    | some parseState =>
      let b := { b with parseState }
      match deleteControl with
      | .deleteId => (true, b.deleteMacro b.activeMacroId)
      | .deleteAll => (true, (List.finRange 64).foldl deleteMacro b)
      | .other _ => (false, b)
  else (false, b)

/-- The `switch` of `ParseDefinition`: whether it was successful. -/
def parseChar (b : MacroBuffer) (ch : WChar) : Bool × MacroBuffer :=
  match b.parseState with
  | .expectingText => b.appendToActiveMacro ch
  | .expectingHexDigit =>
    let (decoded, b) := b.decodeHexDigit ch
    if decoded then (true, { b with parseState := .expectingSecondHexDigit })
    else if ch = 0x21 ∧ !b.repeatPending then
      (true, { b with parseState := .expectingRepeatCount, repeatCount := 0 })
    else if ch = 0x3b ∧ b.repeatPending then b.applyPendingRepeat
    else (false, b)
  | .expectingSecondHexDigit =>
    let (decoded, b) := b.decodeHexDigit ch
    let (success, b) := if decoded then b.appendToActiveMacro b.decodedChar else (false, b)
    (success, { b with decodedChar := 0, parseState := .expectingHexDigit })
  | .expectingRepeatCount =>
    if 0x30 ≤ ch ∧ ch ≤ 0x39 then
      (true, { b with
        repeatCount := min (sizeT (b.repeatCount * 10 + (ch - 0x30).toNat)) maxParameterValue })
    else if ch = 0x3b then
      (true, { b with
        repeatPending := true
        repeatStart := b.activeMacro.length
        parseState := .expectingHexDigit })
    else (false, b)

/-- The end of a definition finds a repeat that does not fit. -/
def endsInRepeat (b : MacroBuffer) : Bool := b.repeatPending && !b.applyPendingRepeat.1

/-- The branch of `ParseDefinition` for the end of the definition. -/
def endDefinition (b : MacroBuffer) : MacroBuffer :=
  if b.repeatPending then
    let (success, b) := b.applyPendingRepeat
    if !success then b.deleteMacro b.activeMacroId else b
  else b

def parseDefinition (b : MacroBuffer) (ch : WChar) : Bool × MacroBuffer :=
  if ch = esc then (false, b.endDefinition)
  else if ch < 0x20 then (true, b)
  else
    let (success, b) := b.parseChar ch
    (success, if !success then b.deleteMacro b.activeMacroId else b)

def clearMacrosIfInUse (b : MacroBuffer) : MacroBuffer :=
  if 0 < b.invokedDepth then
    { b with macros := fun id => List.replicate (b.macros id).length 0 }
  else b

/-- `MacroBuffer::InvokeMacro` up to the call of `ProcessString`. -/
def beginInvoke (b : MacroBuffer) (macroId : ℕ) : MacroBuffer :=
  if h : macroId < 64 then
    let length := (b.macros ⟨macroId, h⟩).length
    if b.invokedDepth < 16 ∧ length < sizeT (maxSpace - b.invokedSequenceLength) then
      { b with
        invokedSequenceLength := sizeT (b.invokedSequenceLength + length)
        invokedDepth := b.invokedDepth + 1 }
    else b
  else b

/-- The scope exit of `MacroBuffer::InvokeMacro`, which only an invocation that has begun sets up. -/
def endInvoke (b : MacroBuffer) : MacroBuffer :=
  if b.invokedDepth = 1 then { b with invokedDepth := 0, invokedSequenceLength := 0 }
  else { b with invokedDepth := b.invokedDepth - 1 }

end MacroBuffer

/-- A call on a macro buffer. -/
inductive MacroOp
  | initParser (macroId : ℕ) (deleteControl : MacroDeleteControl) (encoding : MacroEncoding)
  | parseDefinition (ch : WChar)
  | clearMacrosIfInUse
  | beginInvoke (macroId : ℕ)
  | endInvoke

/-- How a definition ended. -/
inductive DefinitionEnd
  | unterminated
  | complete
  | failed
deriving DecidableEq

namespace MacroBuffer

/-- A call, without what it returns. -/
def step (b : MacroBuffer) : MacroOp → MacroBuffer
  | .initParser macroId deleteControl encoding => (b.initParser macroId deleteControl encoding).2
  | .parseDefinition ch => (b.parseDefinition ch).2
  | .clearMacrosIfInUse => b.clearMacrosIfInUse
  | .beginInvoke macroId => b.beginInvoke macroId
  | .endInvoke => b.endInvoke

/-- Any calls on a new buffer. -/
def run (ops : List MacroOp) : MacroBuffer := ops.foldl step {}

/-- The characters of a definition, up to the one for which `ParseDefinition` returns false: no
more of them reach it. -/
def define : List WChar → MacroBuffer → DefinitionEnd × MacroBuffer
  | [], b => (.unterminated, b)
  | ch :: text, b =>
    match b.parseDefinition ch with
    | (true, b') => define text b'
    | (false, b') => (if ch = esc ∧ !b.endsInRepeat then .complete else .failed, b')

/-- `_spaceUsed` is the length of all macros, and within the limit. -/
structure Accounted (b : MacroBuffer) : Prop where
  spaceUsed : b.spaceUsed = ∑ id, (b.macros id).length
  le_maxSpace : b.spaceUsed ≤ maxSpace
  repeatCount_le : b.repeatCount ≤ maxParameterValue
  repeatStart_le : b.repeatStart ≤ maxSpace

/-! ### Space -/

section Space

variable {b : MacroBuffer} {chars : List WChar} {b' : MacroBuffer}

theorem sum_length_setMacro (b : MacroBuffer) (id : Fin 64) (chars : List WChar) :
    ∑ j, ((b.setMacro id chars).macros j).length + (b.macros id).length =
      ∑ j, (b.macros j).length + chars.length := by
  have hlength : (fun j => ((b.setMacro id chars).macros j).length) =
      Function.update (fun j => (b.macros j).length) id chars.length := by
    funext j
    by_cases hj : j = id
    · subst hj
      simp [setMacro]
    · simp [setMacro, hj]
  have hsplit := Finset.add_sum_erase Finset.univ (fun j => (b.macros j).length)
    (Finset.mem_univ id)
  rw [hlength, Finset.sum_update_of_mem (Finset.mem_univ id), ← Finset.erase_eq]
  omega

theorem Accounted.length_le (h : b.Accounted) (id : Fin 64) :
    (b.macros id).length ≤ b.spaceUsed := by
  rw [h.spaceUsed]
  exact Finset.single_le_sum (f := fun j => (b.macros j).length) (fun _ _ => Nat.zero_le _)
    (Finset.mem_univ id)

theorem Accounted.getSpaceAvailable (h : b.Accounted) :
    b.getSpaceAvailable = maxSpace - b.spaceUsed := by
  have hle := h.le_maxSpace
  refine sizeT_of_eq (by omega) ?_
  unfold maxSpace at *
  omega

theorem Accounted.store (h : b.Accounted) {id : Fin 64}
    (hmacros : b'.macros = (b.setMacro id chars).macros)
    (hspace : b'.spaceUsed + (b.macros id).length = b.spaceUsed + chars.length)
    (hle : b'.spaceUsed ≤ maxSpace) (hcount : b'.repeatCount ≤ maxParameterValue)
    (hstart : b'.repeatStart ≤ maxSpace) : b'.Accounted where
  spaceUsed := by
    have hsum := b.sum_length_setMacro id chars
    have := h.spaceUsed
    rw [hmacros]
    omega
  le_maxSpace := hle
  repeatCount_le := hcount
  repeatStart_le := hstart

theorem Accounted.deleteMacro (h : b.Accounted) (id : Fin 64) : (b.deleteMacro id).Accounted := by
  have hlen := h.length_le id
  have hle := h.le_maxSpace
  have hspace : (b.deleteMacro id).spaceUsed = b.spaceUsed - (b.macros id).length := by
    refine sizeT_of_eq (by omega) ?_
    unfold maxSpace at hle
    omega
  refine h.store rfl ?_ ?_ h.repeatCount_le h.repeatStart_le
  · rw [hspace, List.length_nil]
    omega
  · omega

theorem Accounted.deleteAll (h : b.Accounted) (ids : List (Fin 64)) :
    (ids.foldl MacroBuffer.deleteMacro b).Accounted := by
  induction ids generalizing b with
  | nil => exact h
  | cons id ids ih => exact ih (h.deleteMacro id)

theorem Accounted.append (h : b.Accounted)
    (hle : b.spaceUsed + chars.length ≤ maxSpace) :
    Accounted { b.setMacro b.activeMacroId (b.activeMacro ++ chars) with
      spaceUsed := sizeT (b.spaceUsed + chars.length) } := by
  have hspace : sizeT (b.spaceUsed + chars.length) = b.spaceUsed + chars.length := by
    refine sizeT_of_eq (by push_cast; rfl) ?_
    unfold maxSpace at hle
    omega
  refine h.store rfl ?_ ?_ h.repeatCount_le h.repeatStart_le
  · simp only [hspace, List.length_append, activeMacro]
    omega
  · simp only [hspace]
    exact hle

theorem Accounted.appendToActiveMacro (h : b.Accounted) (ch : WChar) :
    (b.appendToActiveMacro ch).2.Accounted := by
  unfold MacroBuffer.appendToActiveMacro
  split_ifs with hpos
  · rw [h.getSpaceAvailable] at hpos
    exact h.append (by rw [List.length_singleton]; omega)
  · exact h

theorem Accounted.repeatLoop {sequenceLength : ℕ} (count : ℕ) (h : b.Accounted)
    (hlen : b.repeatStart + sequenceLength ≤ b.activeMacro.length)
    (hle : b.spaceUsed + count * sequenceLength ≤ maxSpace) :
    (MacroBuffer.repeatLoop sequenceLength count b).Accounted := by
  induction count generalizing b with
  | zero => exact h
  | succ count ih =>
    have hchars : ((b.activeMacro.drop b.repeatStart).take sequenceLength).length =
        sequenceLength := by
      rw [List.length_take, List.length_drop]
      omega
    have hmul : (count + 1) * sequenceLength = count * sequenceLength + sequenceLength := by ring
    have happend := h.append
      (by rw [hchars]; omega)
    rw [hchars] at happend
    refine ih happend ?_ ?_
    · simp only [activeMacro, setMacro, Function.update_self, List.length_append] at hlen ⊢
      omega
    · have hspace : sizeT (b.spaceUsed + sequenceLength) = b.spaceUsed + sequenceLength := by
        refine sizeT_of_eq (by push_cast; rfl) ?_
        unfold maxSpace at hle
        omega
      simp only [hspace]
      omega

theorem Accounted.repeatStart_le_length (h : b.Accounted) (hcount : 1 < b.repeatCount)
    (hfits : ¬b.spaceRequired > b.getSpaceAvailable) :
    b.repeatStart + b.sequenceLength = b.activeMacro.length ∧
      b.spaceRequired = (b.repeatCount - 1) * b.sequenceLength := by
  have hle := h.le_maxSpace
  have hlen : b.activeMacro.length ≤ maxSpace := (h.length_le _).trans hle
  have hstart := h.repeatStart_le
  have hmax := h.repeatCount_le
  obtain ⟨count, hcount'⟩ : ∃ count, b.repeatCount = count + 2 := ⟨b.repeatCount - 2, by omega⟩
  rw [h.getSpaceAvailable] at hfits
  rcases Nat.lt_or_ge b.activeMacro.length b.repeatStart with hlt | hge
  · -- the subtraction wraps, and so much space is not there
    exfalso
    obtain ⟨d, hd⟩ : ∃ d, b.repeatStart = b.activeMacro.length + d :=
      ⟨b.repeatStart - b.activeMacro.length, by omega⟩
    have hseq : b.sequenceLength = 2 ^ 64 - d := by
      unfold sequenceLength sizeT maxSpace at *
      omega
    have hprod : (count + 1) * d ≤ 65535 * 0x40000 := by
      refine Nat.mul_le_mul ?_ ?_
      · unfold maxParameterValue at hmax
        omega
      · unfold maxSpace at hstart
        omega
    have hpos : 0 < (count + 1) * d := Nat.mul_pos (Nat.succ_pos _) (by omega)
    have hreq : b.spaceRequired = 2 ^ 64 - (count + 1) * d := by
      have hcast : ((b.repeatCount : ℤ) - 1) * b.sequenceLength =
          (count + 1 : ℕ) * 2 ^ 64 - ((count + 1) * d : ℕ) := by
        have hd64 : d ≤ 2 ^ 64 := by
          unfold maxSpace at *
          omega
        have hsub : ((2 ^ 64 - d : ℕ) : ℤ) = 2 ^ 64 - d := by omega
        rw [hseq, hsub, hcount']
        push_cast
        ring
      unfold spaceRequired sizeT
      rw [hcast]
      omega
    unfold maxSpace at *
    omega
  · have hseq : b.sequenceLength = b.activeMacro.length - b.repeatStart := by
      refine sizeT_of_eq (by omega) ?_
      unfold maxSpace at hlen
      omega
    refine ⟨by omega, sizeT_of_eq ?_ ?_⟩
    · rw [hcount']
      push_cast
      ring
    · have hprod : (b.repeatCount - 1) * b.sequenceLength ≤ 65535 * 0x40000 := by
        refine Nat.mul_le_mul ?_ ?_
        · unfold maxParameterValue at hmax
          omega
        · unfold maxSpace at hlen
          omega
      omega

theorem Accounted.applyPendingRepeat (h : b.Accounted) : b.applyPendingRepeat.2.Accounted := by
  unfold MacroBuffer.applyPendingRepeat
  split_ifs with hcount hfits
  · exact h
  · obtain ⟨hlen, hreq⟩ := h.repeatStart_le_length hcount hfits
    rw [hreq, h.getSpaceAvailable] at hfits
    have hle := h.le_maxSpace
    have hloop := h.repeatLoop (b.repeatCount - 1) hlen.le (by omega)
    exact ⟨hloop.spaceUsed, hloop.le_maxSpace, hloop.repeatCount_le, hloop.repeatStart_le⟩
  · exact ⟨h.spaceUsed, h.le_maxSpace, h.repeatCount_le, h.repeatStart_le⟩

theorem Accounted.initParser (h : b.Accounted) (macroId : ℕ) (deleteControl : MacroDeleteControl)
    (encoding : MacroEncoding) : (b.initParser macroId deleteControl encoding).2.Accounted := by
  have hactive (id : Fin 64) : Accounted { b with
      activeMacroId := id, decodedChar := 0, repeatPending := false } :=
    ⟨h.spaceUsed, h.le_maxSpace, h.repeatCount_le, h.repeatStart_le⟩
  have hstate (id : Fin 64) (parseState : ParseState) : Accounted { b with
      parseState, activeMacroId := id, decodedChar := 0, repeatPending := false } :=
    ⟨h.spaceUsed, h.le_maxSpace, h.repeatCount_le, h.repeatStart_le⟩
  unfold MacroBuffer.initParser
  by_cases hid : macroId < 64 ∧ b.invokedDepth = 0
  · rw [dif_pos hid]
    cases encoding with
    | other value => exact hactive _
    | text =>
      cases deleteControl with
      | deleteId => exact (hstate _ _).deleteMacro _
      | deleteAll => exact (hstate _ _).deleteAll _
      | other value => exact hstate _ _
    | hexPair =>
      cases deleteControl with
      | deleteId => exact (hstate _ _).deleteMacro _
      | deleteAll => exact (hstate _ _).deleteAll _
      | other value => exact hstate _ _
  · rw [dif_neg hid]
    exact h

theorem Accounted.congr (h : b.Accounted) (hmacros : b'.macros = b.macros)
    (hspace : b'.spaceUsed = b.spaceUsed) (hcount : b'.repeatCount ≤ maxParameterValue)
    (hstart : b'.repeatStart ≤ maxSpace) : b'.Accounted :=
  ⟨by rw [hmacros, hspace, h.spaceUsed], hspace ▸ h.le_maxSpace, hcount, hstart⟩

theorem decodeHexDigit_snd (b : MacroBuffer) (ch : WChar) :
    ∃ decodedChar, (b.decodeHexDigit ch).2 = { b with decodedChar } := by
  unfold decodeHexDigit
  split_ifs <;> exact ⟨_, rfl⟩

theorem Accounted.parseChar (h : b.Accounted) (ch : WChar) : (b.parseChar ch).2.Accounted := by
  have hlen : b.activeMacro.length ≤ maxSpace := (h.length_le _).trans h.le_maxSpace
  obtain ⟨decodedChar, hdecoded⟩ := b.decodeHexDigit_snd ch
  have hd : Accounted { b with decodedChar } := h.congr rfl rfl h.repeatCount_le h.repeatStart_le
  unfold MacroBuffer.parseChar
  cases hstate : b.parseState with
  | expectingText => exact h.appendToActiveMacro ch
  | expectingHexDigit =>
    simp only [hdecoded]
    split_ifs
    · exact hd.congr rfl rfl hd.repeatCount_le hd.repeatStart_le
    · exact hd.congr rfl rfl (Nat.zero_le _) hd.repeatStart_le
    · exact hd.applyPendingRepeat
    · exact hd
  | expectingSecondHexDigit =>
    simp only [hdecoded]
    split_ifs
    · have happend := hd.appendToActiveMacro decodedChar
      exact happend.congr rfl rfl happend.repeatCount_le happend.repeatStart_le
    · exact hd.congr rfl rfl hd.repeatCount_le hd.repeatStart_le
  | expectingRepeatCount =>
    split_ifs
    · exact h.congr rfl rfl (Nat.min_le_right _ _) h.repeatStart_le
    · exact h.congr rfl rfl h.repeatCount_le hlen
    · exact h

theorem Accounted.parseDefinition (h : b.Accounted) (ch : WChar) :
    (b.parseDefinition ch).2.Accounted := by
  unfold MacroBuffer.parseDefinition endDefinition
  split_ifs with hesc hpending
  · by_cases hsuccess : b.applyPendingRepeat.1 = true
    · simpa only [hsuccess, Bool.not_true, Bool.false_eq_true, if_false] using h.applyPendingRepeat
    · simpa only [hsuccess, Bool.not_false, if_true] using h.applyPendingRepeat.deleteMacro _
  · exact h
  · exact h
  · by_cases hsuccess : (b.parseChar ch).1 = true
    · simpa only [hsuccess, Bool.not_true, Bool.false_eq_true, if_false] using h.parseChar ch
    · simpa only [hsuccess, Bool.not_false, if_true] using (h.parseChar ch).deleteMacro _

theorem Accounted.clearMacrosIfInUse (h : b.Accounted) : b.clearMacrosIfInUse.Accounted := by
  unfold MacroBuffer.clearMacrosIfInUse
  split_ifs
  · refine ⟨?_, h.le_maxSpace, h.repeatCount_le, h.repeatStart_le⟩
    simpa only [List.length_replicate] using h.spaceUsed
  · exact h

theorem Accounted.beginInvoke (h : b.Accounted) (macroId : ℕ) :
    (b.beginInvoke macroId).Accounted := by
  unfold MacroBuffer.beginInvoke
  by_cases hid : macroId < 64
  · rw [dif_pos hid]
    dsimp only
    split_ifs
    · exact h.congr rfl rfl h.repeatCount_le h.repeatStart_le
    · exact h
  · rw [dif_neg hid]
    exact h

theorem Accounted.endInvoke (h : b.Accounted) : b.endInvoke.Accounted := by
  unfold MacroBuffer.endInvoke
  split_ifs <;> exact h.congr rfl rfl h.repeatCount_le h.repeatStart_le

theorem Accounted.step (h : b.Accounted) (op : MacroOp) : (b.step op).Accounted := by
  cases op with
  | initParser macroId deleteControl encoding => exact h.initParser macroId deleteControl encoding
  | parseDefinition ch => exact h.parseDefinition ch
  | clearMacrosIfInUse => exact h.clearMacrosIfInUse
  | beginInvoke macroId => exact h.beginInvoke macroId
  | endInvoke => exact h.endInvoke

theorem Accounted.foldl_step (h : b.Accounted) (ops : List MacroOp) :
    (ops.foldl MacroBuffer.step b).Accounted := by
  induction ops generalizing b with
  | nil => exact h
  | cons op ops ih => exact ih (h.step op)

theorem accounted_new : Accounted {} where
  spaceUsed := by simp
  le_maxSpace := Nat.zero_le _
  repeatCount_le := Nat.zero_le _
  repeatStart_le := Nat.zero_le _

end Space

/-! ### What a definition leaves behind -/

/-- The other macros, and the one that is active, are the same. -/
structure SameOthers (b b' : MacroBuffer) : Prop where
  activeMacroId : b'.activeMacroId = b.activeMacroId
  macros : ∀ id, id ≠ b.activeMacroId → b'.macros id = b.macros id

section Frame

variable {b b' b'' : MacroBuffer}

theorem SameOthers.refl (b : MacroBuffer) : SameOthers b b :=
  ⟨rfl, fun _ _ => rfl⟩

theorem SameOthers.trans (h : SameOthers b b') (h' : SameOthers b' b'') : SameOthers b b'' where
  activeMacroId := h'.activeMacroId.trans h.activeMacroId
  macros id hid := (h'.macros id (h.activeMacroId ▸ hid)).trans (h.macros id hid)

theorem SameOthers.store {chars : List WChar} (hactive : b'.activeMacroId = b.activeMacroId)
    (hmacros : b'.macros = (b.setMacro b.activeMacroId chars).macros) : SameOthers b b' where
  activeMacroId := hactive
  macros id hid := by
    rw [hmacros]
    exact Function.update_of_ne hid _ _

theorem sameOthers_deleteMacro (b : MacroBuffer) : SameOthers b (b.deleteMacro b.activeMacroId) :=
  .store rfl rfl

theorem sameOthers_appendToActiveMacro (b : MacroBuffer) (ch : WChar) :
    SameOthers b (b.appendToActiveMacro ch).2 := by
  unfold appendToActiveMacro
  split_ifs
  · exact .store rfl rfl
  · exact .refl b

theorem sameOthers_repeatLoop (sequenceLength count : ℕ) (b : MacroBuffer) :
    SameOthers b (repeatLoop sequenceLength count b) := by
  induction count generalizing b with
  | zero => exact .refl b
  | succ count ih =>
    have hcopy : SameOthers b { b.setMacro b.activeMacroId
        (b.activeMacro ++ (b.activeMacro.drop b.repeatStart).take sequenceLength) with
          spaceUsed := sizeT (b.spaceUsed + sequenceLength) } := .store rfl rfl
    exact hcopy.trans (ih _)

theorem sameOthers_applyPendingRepeat (b : MacroBuffer) : SameOthers b b.applyPendingRepeat.2 := by
  unfold applyPendingRepeat
  split_ifs
  · exact .refl b
  · have hloop := sameOthers_repeatLoop b.sequenceLength (b.repeatCount - 1) b
    exact ⟨hloop.activeMacroId, hloop.macros⟩
  · exact ⟨rfl, fun _ _ => rfl⟩

theorem sameOthers_parseChar (b : MacroBuffer) (ch : WChar) : SameOthers b (b.parseChar ch).2 := by
  obtain ⟨decodedChar, hdecoded⟩ := b.decodeHexDigit_snd ch
  have hd : SameOthers b { b with decodedChar } := ⟨rfl, fun _ _ => rfl⟩
  unfold parseChar
  cases hstate : b.parseState with
  | expectingText => exact sameOthers_appendToActiveMacro b ch
  | expectingHexDigit =>
    simp only [hdecoded]
    split_ifs
    · exact ⟨rfl, fun _ _ => rfl⟩
    · exact ⟨rfl, fun _ _ => rfl⟩
    · exact hd.trans (sameOthers_applyPendingRepeat _)
    · exact hd
  | expectingSecondHexDigit =>
    simp only [hdecoded]
    split_ifs
    · have happend := hd.trans (sameOthers_appendToActiveMacro _ decodedChar)
      exact ⟨happend.activeMacroId, happend.macros⟩
    · exact ⟨rfl, fun _ _ => rfl⟩
  | expectingRepeatCount =>
    split_ifs <;> exact ⟨rfl, fun _ _ => rfl⟩

theorem SameOthers.deleteMacro (h : SameOthers b b') :
    SameOthers b (b'.deleteMacro b'.activeMacroId) :=
  h.trans (sameOthers_deleteMacro b')

theorem sameOthers_parseDefinition (b : MacroBuffer) (ch : WChar) :
    SameOthers b (b.parseDefinition ch).2 := by
  have hrepeat := sameOthers_applyPendingRepeat b
  have hchar := sameOthers_parseChar b ch
  unfold parseDefinition endDefinition
  split_ifs
  · by_cases hsuccess : b.applyPendingRepeat.1 = true
    · simpa only [hsuccess, Bool.not_true, Bool.false_eq_true, if_false] using hrepeat
    · simpa only [hsuccess, Bool.not_false, if_true] using hrepeat.deleteMacro
  · exact .refl b
  · exact .refl b
  · by_cases hsuccess : (b.parseChar ch).1 = true
    · simpa only [hsuccess, Bool.not_true, Bool.false_eq_true, if_false] using hchar
    · simpa only [hsuccess, Bool.not_false, if_true] using hchar.deleteMacro

theorem activeMacro_deleteMacro (b : MacroBuffer) :
    (b.deleteMacro b.activeMacroId).macros b.activeMacroId = [] :=
  Function.update_self _ _ _

theorem parseDefinition_failed (ch : WChar) (hfalse : (b.parseDefinition ch).1 = false)
    (hfailed : ¬(ch = esc ∧ !b.endsInRepeat)) :
    (b.parseDefinition ch).2.macros b.activeMacroId = [] := by
  by_cases hesc : ch = esc
  · have hends : b.endsInRepeat = true := by
      by_contra hends
      exact hfailed ⟨hesc, by simpa using hends⟩
    rw [endsInRepeat, Bool.and_eq_true, Bool.not_eq_true'] at hends
    have hactive := (sameOthers_applyPendingRepeat b).activeMacroId
    have hdelete := activeMacro_deleteMacro b.applyPendingRepeat.2
    rw [hactive] at hdelete
    simpa only [parseDefinition, hesc, if_true, endDefinition, hends.1, hends.2, Bool.not_false,
      hactive] using hdelete
  · have hactive := (sameOthers_parseChar b ch).activeMacroId
    have hdelete := activeMacro_deleteMacro (b.parseChar ch).2
    rw [hactive] at hdelete
    by_cases hcontrol : ch < 0x20
    · simp [parseDefinition, hesc, hcontrol] at hfalse
    · have hsuccess : (b.parseChar ch).1 = false := by
        simpa [parseDefinition, hesc, hcontrol] using hfalse
      simpa only [parseDefinition, hesc, if_false, hcontrol, hsuccess, Bool.not_false, if_true,
        hactive] using hdelete

theorem sameOthers_define (text : List WChar) (b : MacroBuffer) :
    SameOthers b (define text b).2 := by
  induction text generalizing b with
  | nil => exact .refl b
  | cons ch text ih =>
    have hch := sameOthers_parseDefinition b ch
    unfold define
    rcases hresult : b.parseDefinition ch with ⟨_ | _, b'⟩
    · rw [hresult] at hch
      exact hch
    · rw [hresult] at hch
      exact hch.trans (ih b')

theorem define_failed {text : List WChar} (hfailed : (define text b).1 = .failed) :
    (define text b).2.macros b.activeMacroId = [] := by
  induction text generalizing b with
  | nil => exact absurd hfailed (by simp [define])
  | cons ch text ih =>
    have hch := sameOthers_parseDefinition b ch
    have hdelete := parseDefinition_failed (b := b) ch
    unfold define at hfailed ⊢
    rcases hresult : b.parseDefinition ch with ⟨_ | _, b'⟩
    · rw [hresult] at hdelete hfailed
      refine hdelete rfl ?_
      intro hcomplete
      rw [if_pos hcomplete] at hfailed
      exact absurd hfailed (by simp)
    · rw [hresult] at hch hfailed
      rw [← hch.activeMacroId]
      exact ih hfailed

theorem macros_deleteAll (ids : List (Fin 64)) (b : MacroBuffer) (id : Fin 64) :
    (ids.foldl deleteMacro b).macros id = if id ∈ ids then [] else b.macros id := by
  induction ids generalizing b with
  | nil => simp
  | cons first ids ih =>
    rw [List.foldl_cons, ih]
    by_cases hid : id = first
    · subst hid
      simp [deleteMacro, setMacro]
    · simp [deleteMacro, setMacro, hid]

theorem activeMacroId_deleteAll (ids : List (Fin 64)) (b : MacroBuffer) :
    (ids.foldl deleteMacro b).activeMacroId = b.activeMacroId := by
  induction ids generalizing b with
  | nil => rfl
  | cons first ids ih => exact ih _

theorem initParser_cases (b : MacroBuffer) (macroId : ℕ) (deleteControl : MacroDeleteControl)
    (encoding : MacroEncoding) :
    ((b.initParser macroId deleteControl encoding).1 = false ∧
      (b.initParser macroId deleteControl encoding).2.macros = b.macros) ∨
    ((b.initParser macroId deleteControl encoding).1 = true ∧
      ∃ active : Fin 64, active = macroId ∧
        (b.initParser macroId deleteControl encoding).2.activeMacroId = active ∧
        ∀ id, (b.initParser macroId deleteControl encoding).2.macros id =
          if id = active ∨ deleteControl = .deleteAll then [] else b.macros id) := by
  unfold initParser
  by_cases hid : macroId < 64 ∧ b.invokedDepth = 0
  · rw [dif_pos hid]
    cases encoding with
    | other value => exact .inl ⟨rfl, rfl⟩
    | text =>
      cases deleteControl with
      | deleteId =>
        refine .inr ⟨rfl, ⟨macroId, hid.1⟩, rfl, rfl, fun id => ?_⟩
        simp [deleteMacro, setMacro, Function.update_apply]
      | deleteAll =>
        refine .inr ⟨rfl, ⟨macroId, hid.1⟩, rfl, activeMacroId_deleteAll _ _, fun id => ?_⟩
        simp [macros_deleteAll]
      | other value => exact .inl ⟨rfl, rfl⟩
    | hexPair =>
      cases deleteControl with
      | deleteId =>
        refine .inr ⟨rfl, ⟨macroId, hid.1⟩, rfl, rfl, fun id => ?_⟩
        simp [deleteMacro, setMacro, Function.update_apply]
      | deleteAll =>
        refine .inr ⟨rfl, ⟨macroId, hid.1⟩, rfl, activeMacroId_deleteAll _ _, fun id => ?_⟩
        simp [macros_deleteAll]
      | other value => exact .inl ⟨rfl, rfl⟩
  · rw [dif_neg hid]
    exact .inl ⟨rfl, rfl⟩

end Frame

end MacroBuffer

open MacroBuffer

/-- After any calls `_spaceUsed` is the length of all macros and within the limit. A definition
that `InitParser` refuses leaves all macros alone. One that it accepts leaves all other macros as
`InitParser` has left them, emptied by `DeleteAll` and as they were otherwise; if it fails, its own
macro is empty. -/
theorem macros_accounted (ops : List MacroOp) :
    (run ops).spaceUsed = ∑ id, ((run ops).macros id).length ∧
    (run ops).spaceUsed ≤ maxSpace ∧
    ∀ (macroId : ℕ) (deleteControl : MacroDeleteControl) (encoding : MacroEncoding),
      (((run ops).initParser macroId deleteControl encoding).1 = false ∧
        ((run ops).initParser macroId deleteControl encoding).2.macros =
          (run ops).macros) ∨
      (((run ops).initParser macroId deleteControl encoding).1 = true ∧
        ∃ active : Fin 64, active = macroId ∧
          ∀ text result, define text
              ((run ops).initParser macroId deleteControl encoding).2 = result →
            (∀ id, id ≠ active → result.2.macros id =
              if deleteControl = .deleteAll then [] else (run ops).macros id) ∧
            (result.1 = .failed → result.2.macros active = [])) := by
  have haccounted : (run ops).Accounted := accounted_new.foldl_step ops
  refine ⟨haccounted.spaceUsed, haccounted.le_maxSpace, fun macroId deleteControl encoding => ?_⟩
  obtain hrefused | ⟨haccepted, active, hmacroId, hactive, hmacros⟩ :=
    initParser_cases (run ops) macroId deleteControl encoding
  · exact .inl hrefused
  · refine .inr ⟨haccepted, active, hmacroId, ?_⟩
    rintro text result rfl
    constructor
    · intro id hid
      rw [(sameOthers_define text _).macros id (hactive ▸ hid), hmacros id]
      simp [hid]
    · intro hfailed
      have hempty := define_failed hfailed
      rwa [hactive] at hempty

/-- Macro 1 is stored. A definition of macro 0 with `DeleteAll` fails at its first character and
has emptied macro 1; a definition of macro 1 with an encoding of no meaning is refused and has not
emptied it. -/
theorem failed_definition_not_local :
    let b := run [.initParser 1 .deleteId .text, .parseDefinition 0x62, .parseDefinition esc]
    let all := define [0x7a] (b.initParser 0 .deleteAll .hexPair).2
    all.1 = .failed ∧ all.2.macros 1 ≠ b.macros 1 ∧
      (b.initParser 1 .deleteId (.other 2)).1 = false ∧
      (b.initParser 1 .deleteId (.other 2)).2.macros 1 ≠ [] := by
  decide

end IntelligentTerminal.Macros
