import IntelligentTerminal.Data.DecimalDigits

/-!
# Usage figures

What an agent has used is shown as an amount of money, which is rounded to two places from a text,
or as a percentage of a context, which is rounded from two numbers.

A text is a list of characters. A text that `isDecimalText` accepts is ASCII, which `til::u8u16`
leaves as it is. A `uint64_t` is a number. Its addition and subtraction are a parameter of
`formatContextPercentageWith`: `wrapping` is what the program computes with, and `checked` stops at
an overflow.

Source: `src/cascadia/TerminalApp/AgentUsage.cpp`, lines 39-76, 92-193 and 206-248.
-/

namespace IntelligentTerminal.AgentUsage

open IntelligentTerminal.Data

/-! ### Decimal texts -/

/-- `consumeDigits` in `isDecimalText`: what is left behind at least one digit. -/
def consumeDigits (text : List Char) : Option (List Char) :=
  let rest := text.dropWhile Char.isDigit
  if rest.length < text.length then some rest else none

/-- The sign in front of the digits of an exponent is skipped. -/
def skipSign (text : List Char) : List Char :=
  if text.head? = some '+' ∨ text.head? = some '-' then text.tail else text

def isDecimalText (text : List Char) : Bool :=
  let result : Option (List Char) := do
    let rest ← consumeDigits text
    let rest ← (if rest.head? = some '.' then consumeDigits rest.tail else some rest)
    if rest.head? = some 'e' ∨ rest.head? = some 'E' then consumeDigits (skipSign rest.tail)
    else some rest
  result = some []

/-! ### Amounts -/

def maxFormattedIntegerDigits : ℤ := 512

/-- The characters that `find_first_of("eE")` looks for. -/
def isExponentMarker (ch : Char) : Bool := ch == 'e' || ch == 'E'

/-- The loop over the digits of the exponent, which saturates. -/
def exponentLoop (digits : List Char) : ℤ :=
  digits.foldl (fun exponent ch =>
    min (maxFormattedIntegerDigits + 1) (exponent * 10 + ((ch.toNat : ℤ) - 48))) 0

/-- `exponent` in `formatBillingAmount`, from the text behind the mantissa. -/
def exponentOf : List Char → ℤ
  | [] => 0
  | _ :: rest =>
    let exponent := exponentLoop (skipSign rest)
    if rest.head? = some '-' then -exponent else exponent

/-- `digitAt` in `formatBillingAmount`. -/
def digitAt (digits : List Char) (position : ℤ) : Char :=
  if 0 ≤ position ∧ position < digits.length then digits.getD position.toNat '0' else '0'

/-- `integer` in `formatBillingAmount`. -/
def integerText (digits : List Char) (decimalPosition : ℤ) : List Char :=
  if 0 < decimalPosition then
    let integer := (List.range decimalPosition.toNat).map fun position : ℕ => digitAt digits position
    integer.drop ((integer.findIdx? (· ≠ '0')).getD (integer.length - 1))
  else ['0']

/-- `formatBillingAmount` from `decimalPosition` on. -/
def formatDigits (text digits : List Char) (decimalPosition : ℤ) : List Char :=
  match digits.findIdx? (· ≠ '0') with
  | none => "0.00".toList
  | some firstNonZero =>
    if decimalPosition + 1 < firstNonZero then "<0.01".toList
    else if maxFormattedIntegerDigits < decimalPosition then text
    else
      let rounded := integerText digits decimalPosition ++
        [digitAt digits decimalPosition, digitAt digits (decimalPosition + 1)]
      let rounded :=
        if '5' ≤ digitAt digits (decimalPosition + 2) then increment rounded else rounded
      rounded.take (rounded.length - 2) ++ '.' :: rounded.drop (rounded.length - 2)

def formatBillingAmount (text : List Char) : List Char :=
  let mantissa := text.takeWhile (!isExponentMarker ·)
  let integerDigits := (mantissa.takeWhile (· ≠ '.')).length
  let digits := mantissa.filter (· ≠ '.')
  formatDigits text digits (integerDigits + exponentOf (text.dropWhile (!isExponentMarker ·)))

/-! ### Percentages -/

/-- The addition and the subtraction of `uint64_t`. -/
structure Word64 (m : Type → Type) where
  add : ℕ → ℕ → m ℕ
  sub : ℕ → ℕ → m ℕ

/-- The arithmetic modulo `2 ^ 64`. -/
def wrapping : Word64 Id where
  add a b := (a + b) % 2 ^ 64
  sub a b := (a + (2 ^ 64 - b)) % 2 ^ 64

/-- The arithmetic that stops at an overflow. -/
def checked : Word64 Option where
  add a b := if a + b < 2 ^ 64 then some (a + b) else none
  sub a b := if b ≤ a then some (a - b) else none

section Percentage

variable {m : Type → Type} [Monad m] (word : Word64 m)

/-- The loop of `formatContextPercentage`, over `fractional` and `residual`. -/
def percentageLoop (size remainder : ℕ) : ℕ → ℕ → ℕ → m (ℕ × ℕ)
  | 0, fractional, residual => pure (fractional, residual)
  | n + 1, fractional, residual => do
    let gap ← word.sub size remainder
    if gap ≤ residual then
      let residual ← word.sub residual gap
      let fractional ← word.add fractional 1
      percentageLoop size remainder n fractional residual
    else
      let residual ← word.add residual remainder
      percentageLoop size remainder n fractional residual

/-- `formatContextPercentage`, with an arithmetic. -/
def formatContextPercentageWith (used size : ℕ) : m (List Char) := do
  let whole := used / size
  let remainder := used % size
  let (fractional, residual) ← percentageLoop word size remainder 100 0 0
  let gap ← word.sub size residual
  let fractional ← if gap ≤ residual then word.add fractional 1 else pure fractional
  let whole ← if fractional = 100 then word.add whole 1 else pure whole
  let fractional := if fractional = 100 then 0 else fractional
  let percentage :=
    if whole = 0 then Nat.toDigits 10 fractional
    else Nat.toDigits 10 whole ++
      [Char.ofNat (48 + fractional / 10), Char.ofNat (48 + fractional % 10)]
  return percentage ++ ['%']

end Percentage

def formatContextPercentage (used size : ℕ) : List Char :=
  Id.run (formatContextPercentageWith wrapping used size)

end IntelligentTerminal.AgentUsage
