import IntelligentTerminal.Buffer.Attributes
import Mathlib

/-!
# Quoting an argument

`til::append_quoted_argument` puts a value between quotes at the end of a command line. It copies
the backslashes of the value as it meets them, and adds as many again, with one more, when a quote
follows, and as many again at the end.

Windows splits the command line by the rules that are documented for `CommandLineToArgvW`: in front
of a quote `2n` backslashes stand for `n` and the quote begins or ends a quoted part, and `2n + 1`
stand for `n` and the quote is a part of the argument; all other backslashes stand for themselves. In
the program name backslashes have no meaning of their own.

Source: `src/inc/til/commandline.h`, lines 11-34; `src/types/utils.cpp`, lines 1083-1089.
-/

namespace IntelligentTerminal.Til

open Buffer (WChar)

/-- `L'"'`. -/
def quote : WChar := 0x22

/-- `L'\\'`. -/
def backslash : WChar := 0x5C

/-! ### The function -/

/-- The loop of `append_quoted_argument`, and the backslashes behind it. -/
def quoteLoop : List WChar → ℕ → List WChar → List WChar
  | [], backslashes, out => out ++ List.replicate backslashes backslash
  | ch :: rest, backslashes, out =>
    if ch = backslash then quoteLoop rest (backslashes + 1) (out ++ [ch])
    else if ch = quote then
      quoteLoop rest 0 (out ++ List.replicate (backslashes + 1) backslash ++ [ch])
    else quoteLoop rest 0 (out ++ [ch])

def appendQuotedArgument (out value : List WChar) : List WChar :=
  quoteLoop value 0 (out ++ [quote]) ++ [quote]

/-! ### Splitting a command line -/

/-- What has been read of a command line: the arguments, the one that has been begun, whether a
quoted part has been begun, the backslashes that have not been taken yet, and whether this is still
the program name. -/
structure Argv where
  args : List (List WChar) := []
  current : Option (List WChar) := none
  quoted : Bool := false
  backslashes : ℕ := 0
  program : Bool
deriving DecidableEq

/-- The characters that separate arguments. -/
def isSeparator (ch : WChar) : Bool := ch == 0x20 || ch == 0x09

namespace Argv

/-- Appends to the argument, and takes the backslashes. -/
def extend (s : Argv) (text : List WChar) : Argv :=
  { s with current := some (s.current.getD [] ++ text), backslashes := 0 }

/-- One character of a program name. -/
def stepProgram (s : Argv) (ch : WChar) : Argv :=
  if ch = quote then { s.extend [] with quoted := !s.quoted }
  else if isSeparator ch && !s.quoted then
    { args := s.args ++ [s.current.getD []], program := false }
  else s.extend [ch]

def stepArgument (s : Argv) (ch : WChar) : Argv :=
  if ch = backslash then { s with backslashes := s.backslashes + 1 }
  else if ch = quote then
    let halved := List.replicate (s.backslashes / 2) backslash
    if s.backslashes % 2 = 0 then { s.extend halved with quoted := !s.quoted }
    else s.extend (halved ++ [quote])
  else
    let pending := List.replicate s.backslashes backslash
    if isSeparator ch && !s.quoted then
      if s.current = none ∧ s.backslashes = 0 then s
      else { args := s.args ++ [s.current.getD [] ++ pending], program := false }
    else s.extend (pending ++ [ch])

/-- One character of a command line. -/
def step (s : Argv) (ch : WChar) : Argv := if s.program then s.stepProgram ch else s.stepArgument ch

/-- The end of a command line. -/
def finish (s : Argv) : List (List WChar) :=
  if s.program = false ∧ s.current = none ∧ s.backslashes = 0 then s.args
  else s.args ++ [s.current.getD [] ++ List.replicate s.backslashes backslash]

/-- Nothing has been read since the last separator. -/
structure Between (s : Argv) : Prop where
  current : s.current = none
  quoted : s.quoted = false
  backslashes : s.backslashes = 0
  program : s.program = false

end Argv

/-- What has been read behind `line`. A command line begins with the program name if `program` is
set, and it ends at the first NUL. -/
def readCommandLine (program : Bool) (line : List WChar) : Argv :=
  (line.takeWhile (· ≠ 0)).foldl Argv.step { program }

/-- The arguments of a command line. -/
def splitCommandLine (program : Bool) (line : List WChar) : List (List WChar) :=
  (readCommandLine program line).finish

/-- The line ends with a separator, outside of quotes. -/
def EndsSeparated (program : Bool) (line : List WChar) : Prop :=
  ∃ front ch, line = front ++ [ch] ∧ isSeparator ch = true ∧
    (readCommandLine program front).quoted = false

/-! ### What has been read -/

namespace Argv

variable {s : Argv}

theorem between_step_separator {ch : WChar} (hch : isSeparator ch = true)
    (hquoted : s.quoted = false) : (s.step ch).Between := by
  have hne : ch ≠ quote ∧ ch ≠ backslash := by
    constructor <;> rintro rfl <;> exact absurd hch (by decide)
  cases hprogram : s.program with
  | true =>
    rw [step, if_pos hprogram, stepProgram, if_neg hne.1, if_pos (by rw [hch, hquoted]; rfl)]
    exact ⟨rfl, rfl, rfl, rfl⟩
  | false =>
    rw [step, if_neg (by rw [hprogram]; exact Bool.false_ne_true), stepArgument, if_neg hne.2,
      if_neg hne.1]
    simp only [hch, hquoted, Bool.not_false, Bool.and_self, if_true]
    split_ifs with hnothing
    · exact ⟨hnothing.1, hquoted, hnothing.2, hprogram⟩
    · exact ⟨rfl, rfl, rfl, rfl⟩

theorem Between.finish (h : s.Between) : s.finish = s.args :=
  if_pos ⟨h.program, h.current, h.backslashes⟩

theorem foldl_step_backslashes (hprogram : s.program = false) (k : ℕ) :
    (List.replicate k backslash).foldl step s = { s with backslashes := s.backslashes + k } := by
  induction k generalizing s with
  | zero => rfl
  | succ k ih =>
    have hstep : s.step backslash = { s with backslashes := s.backslashes + 1 } := by
      rw [step, if_neg (by rw [hprogram]; exact Bool.false_ne_true), stepArgument, if_pos rfl]
    rw [List.replicate_succ, List.foldl_cons, hstep,
      ih (s := { s with backslashes := s.backslashes + 1 }) hprogram, Argv.mk.injEq]
    have hcount : s.backslashes + 1 + k = s.backslashes + (k + 1) := by omega
    exact ⟨rfl, rfl, rfl, hcount, rfl⟩

end Argv

/-- In a quoted part: the arguments in front of it, what has been read of it, and the backslashes at
the end of that. -/
def inQuotes (args : List (List WChar)) (text : List WChar) (backslashes : ℕ) : Argv :=
  { args, current := some text, quoted := true, backslashes, program := false }

variable {args : List (List WChar)} {text : List WChar} {backslashes : ℕ}
  {line : List WChar} {program : Bool}

theorem step_escapedQuote :
    (inQuotes args text (2 * backslashes + 1)).step quote =
      inQuotes args (text ++ List.replicate backslashes backslash ++ [quote]) 0 := by
  have hhalf : (2 * backslashes + 1) / 2 = backslashes := by omega
  simp [Argv.step, inQuotes, Argv.stepArgument, Argv.extend, hhalf, quote, backslash]

theorem step_closingQuote :
    (inQuotes args text (2 * backslashes)).step quote =
      { args
        current := some (text ++ List.replicate backslashes backslash)
        program := false } := by
  have hhalf : 2 * backslashes / 2 = backslashes := by omega
  have heven : 2 * backslashes % 2 = 0 := by omega
  simp [Argv.step, inQuotes, Argv.stepArgument, Argv.extend, hhalf, heven, quote, backslash]

theorem step_other {ch : WChar} (hquote : ch ≠ quote) (hbackslash : ch ≠ backslash) :
    (inQuotes args text backslashes).step ch =
      inQuotes args (text ++ List.replicate backslashes backslash ++ [ch]) 0 := by
  simp [Argv.step, inQuotes, Argv.stepArgument, Argv.extend, hquote, hbackslash]

theorem run_quoteLoop (s : Argv) (value : List WChar) (text : List WChar) (backslashes : ℕ)
    (out : List WChar) (h : out.foldl Argv.step s = inQuotes args text backslashes) :
    ∃ text' k, (quoteLoop value backslashes out).foldl Argv.step s = inQuotes args text' (2 * k) ∧
      text' ++ List.replicate k backslash =
        text ++ List.replicate backslashes backslash ++ value := by
  induction value generalizing text backslashes out with
  | nil =>
    refine ⟨text, backslashes, ?_, (List.append_nil _).symm⟩
    rw [quoteLoop, List.foldl_append, h, Argv.foldl_step_backslashes rfl, two_mul]
    rfl
  | cons ch rest ih =>
    rw [quoteLoop]
    by_cases hbackslash : ch = backslash
    · subst hbackslash
      have hstep : (out ++ [backslash]).foldl Argv.step s =
          inQuotes args text (backslashes + 1) := by
        rw [List.foldl_append, h]
        exact Argv.foldl_step_backslashes rfl 1
      obtain ⟨text', k, hrun, htext⟩ := ih text (backslashes + 1) _ hstep
      rw [if_pos rfl]
      refine ⟨text', k, hrun, htext.trans ?_⟩
      rw [List.replicate_succ', List.append_assoc, List.append_assoc, List.append_assoc,
        List.singleton_append]
    · rw [if_neg hbackslash]
      by_cases hquote : ch = quote
      · subst hquote
        have hstep : (out ++ List.replicate (backslashes + 1) backslash ++ [quote]).foldl
            Argv.step s =
              inQuotes args (text ++ List.replicate backslashes backslash ++ [quote]) 0 := by
          rw [List.foldl_append, List.foldl_append, h, Argv.foldl_step_backslashes rfl]
          rw [← step_escapedQuote, two_mul, add_assoc]
          rfl
        obtain ⟨text', k, hrun, htext⟩ := ih _ 0 _ hstep
        rw [if_pos rfl]
        refine ⟨text', k, hrun, htext.trans ?_⟩
        simp
      · have hstep : (out ++ [ch]).foldl Argv.step s =
            inQuotes args (text ++ List.replicate backslashes backslash ++ [ch]) 0 := by
          rw [List.foldl_append, h]
          exact step_other hquote hbackslash
        obtain ⟨text', k, hrun, htext⟩ := ih _ 0 _ hstep
        rw [if_neg hquote]
        refine ⟨text', k, hrun, htext.trans ?_⟩
        simp

theorem run_appendQuotedArgument {s : Argv} (out value : List WChar)
    (h : (out.foldl Argv.step s).Between) :
    (appendQuotedArgument out value).foldl Argv.step s =
      { args := (out.foldl Argv.step s).args, current := some value, program := false } := by
  have hopen : (out ++ [quote]).foldl Argv.step s =
      inQuotes (out.foldl Argv.step s).args [] 0 := by
    rw [List.foldl_append]
    simp [Argv.step, Argv.stepArgument, Argv.extend, inQuotes, h.current, h.quoted, h.backslashes,
      h.program, quote, backslash]
  obtain ⟨text, k, hrun, htext⟩ := run_quoteLoop s value [] 0 _ hopen
  rw [appendQuotedArgument, List.foldl_append, hrun, List.foldl_cons, List.foldl_nil,
    step_closingQuote, htext]
  rfl

/-! ### The argument that is added -/

theorem not_mem_quoteLoop {value : List WChar} {out : List WChar} {ch : WChar}
    (hvalue : ch ∉ value) (hout : ch ∉ out) (hch : ch ≠ backslash) (backslashes : ℕ) :
    ch ∉ quoteLoop value backslashes out := by
  induction value generalizing out backslashes with
  | nil => simp [quoteLoop, hout, hch]
  | cons c rest ih =>
    rw [List.mem_cons, not_or] at hvalue
    rw [quoteLoop]
    split_ifs
    · exact ih hvalue.2 (by simp [hout, hvalue.1]) _
    · exact ih hvalue.2 (by simp [hout, hvalue.1, hch]) _
    · exact ih hvalue.2 (by simp [hout, hvalue.1]) _

theorem readCommandLine_of_notMem (h : 0 ∉ line) :
    readCommandLine program line = line.foldl Argv.step { program } := by
  rw [readCommandLine, List.takeWhile_eq_self_iff.mpr]
  intro ch hch
  simpa using ne_of_mem_of_not_mem hch h

theorem between_of_endsSeparated (hline : 0 ∉ line)
    (h : EndsSeparated program line) : (readCommandLine program line).Between := by
  obtain ⟨front, ch, rfl, hch, hquoted⟩ := h
  have hfront : 0 ∉ front := fun hmem => hline (List.mem_append_left _ hmem)
  rw [readCommandLine_of_notMem hfront] at hquoted
  rw [readCommandLine_of_notMem hline, List.foldl_append]
  exact Argv.between_step_separator hch hquoted

/-- Behind a separator, or where there is no program name and no argument yet, quoting a value adds
it as one argument. -/
theorem splitCommandLine_appendQuotedArgument (program : Bool) (line value : List WChar)
    (hvalue : 0 ∉ value) (hline : 0 ∉ line)
    (hends : EndsSeparated program line ∨ line = [] ∧ program = false) :
    splitCommandLine program (appendQuotedArgument line value) =
      splitCommandLine program line ++ [value] := by
  have hbetween : (readCommandLine program line).Between := by
    rcases hends with hends | ⟨rfl, rfl⟩
    · exact between_of_endsSeparated hline hends
    · exact ⟨rfl, rfl, rfl, rfl⟩
  have hquoted : 0 ∉ appendQuotedArgument line value := by
    rw [appendQuotedArgument, List.mem_append, not_or]
    exact ⟨not_mem_quoteLoop hvalue (by simp [hline, quote]) (by decide) 0, by decide⟩
  rw [readCommandLine_of_notMem hline] at hbetween
  rw [splitCommandLine, splitCommandLine, readCommandLine_of_notMem hquoted,
    readCommandLine_of_notMem hline, run_appendQuotedArgument _ _ hbetween, hbetween.finish]
  simp [Argv.finish]

/-- `wsl --cd ` and the value `a\"\`, which ends with a backslash. -/
theorem splitCommandLine_wsl :
    let line : List WChar := [0x77, 0x73, 0x6C, 0x20, 0x2D, 0x2D, 0x63, 0x64, 0x20]
    let value : List WChar := [0x61, 0x5C, 0x22, 0x5C]
    splitCommandLine true (appendQuotedArgument line value) =
      splitCommandLine true line ++ [value] :=
  splitCommandLine_appendQuotedArgument true _ _ (by decide) (by decide)
    (.inl ⟨[0x77, 0x73, 0x6C, 0x20, 0x2D, 0x2D, 0x63, 0x64], 0x20, rfl, by decide, by decide⟩)

end IntelligentTerminal.Til
