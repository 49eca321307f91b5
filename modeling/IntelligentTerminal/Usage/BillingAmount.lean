import IntelligentTerminal.Usage.AgentUsage

/-!
# The amount that is shown

The digits of an amount are read relative to a decimal point that the exponent shifts, and the value
of the text is never computed. What is shown is determined by that value: the digits up to two places
are its hundredths, the digit behind them decides how it is rounded, and the place of the first digit
that is not zero compares it with one hundredth. A saturated exponent has the same effect as the
exponent itself, as the text has 64 characters at most.
-/

namespace IntelligentTerminal.AgentUsage

open IntelligentTerminal.Data

/-! ### The value of a text -/

/-- One digit or more. -/
structure Numeral where
  digits : List Char
  ne_nil : digits ≠ []
  isDigits : IsDigits digits

def Numeral.value (numeral : Numeral) : ℕ := Nat.ofDigitChars 10 numeral.digits 0

/-- An exponent, with its sign if it has one. -/
structure Exponent where
  upperCase : Bool
  negative : Option Bool
  numeral : Numeral

namespace Exponent

def signText (exponent : Exponent) : List Char :=
  match exponent.negative with
  | none => []
  | some false => ['+']
  | some true => ['-']

def text (exponent : Exponent) : List Char :=
  (if exponent.upperCase then 'E' else 'e') :: (exponent.signText ++ exponent.numeral.digits)

def value (exponent : Exponent) : ℤ :=
  if exponent.negative = some true then -exponent.numeral.value else exponent.numeral.value

end Exponent

/-- The parts of a decimal text. -/
structure DecimalText where
  integer : Numeral
  fraction : Option Numeral
  exponent : Option Exponent

namespace DecimalText

variable (number : DecimalText)

/-- The part in front of the exponent. -/
def mantissa : List Char :=
  number.integer.digits ++ number.fraction.elim [] fun fraction => '.' :: fraction.digits

/-- The text of a number. -/
def text : List Char := number.mantissa ++ number.exponent.elim [] Exponent.text

/-- The digits in front of and behind the decimal point. -/
def digits : List Char := number.integer.digits ++ number.fraction.elim [] Numeral.digits

/-- The value of the exponent. -/
def shift : ℤ := number.exponent.elim 0 Exponent.value

/-- The exact value of a text. -/
def value : ℚ :=
  (number.integer.value +
    number.fraction.elim 0 fun fraction => (fraction.value / 10 ^ fraction.digits.length : ℚ)) *
    10 ^ number.shift

/-- The place of the decimal point among the digits. -/
def pointPosition : ℤ := number.integer.digits.length + number.shift

end DecimalText

/-- Rounds a number that is not negative half-up. -/
def roundHalfUp (value : ℚ) : ℕ := ⌊value + 1 / 2⌋₊

/-- The decimal notation of a number of hundredths, without leading zeros. -/
def twoPlaces (hundredths : ℕ) : List Char :=
  Nat.toDigits 10 (hundredths / 100) ++
    ['.', Nat.digitChar (hundredths / 10 % 10), Nat.digitChar (hundredths % 10)]

/-- What is shown for a text with a value, whose decimal point is at a place. -/
def billingText (text : List Char) (value : ℚ) (pointPosition : ℤ) : List Char :=
  if value = 0 then "0.00".toList
  else if value < 1 / 100 then "<0.01".toList
  else if maxFormattedIntegerDigits < pointPosition then text
  else twoPlaces (roundHalfUp (100 * value))

variable {text rest digits : List Char} {number : DecimalText}

/-! ### The parts of a text -/

theorem exists_numeral_of_consumeDigits (h : consumeDigits text = some rest) :
    ∃ numeral : Numeral, text = numeral.digits ++ rest := by
  rw [consumeDigits] at h
  split_ifs at h with hlt
  obtain rfl := Option.some.inj h
  have hsplit : text.takeWhile Char.isDigit ++ text.dropWhile Char.isDigit = text :=
    List.takeWhile_append_dropWhile
  refine ⟨⟨text.takeWhile Char.isDigit, fun hnil => ?_, fun c hc => List.mem_takeWhile_imp hc⟩,
    hsplit.symm⟩
  rw [hnil, List.nil_append] at hsplit
  exact absurd (congrArg List.length hsplit) hlt.ne

theorem exists_exponent {marker : Char} (hmarker : marker = 'e' ∨ marker = 'E')
    (h : consumeDigits (skipSign text) = some []) :
    ∃ exponent : Exponent, marker :: text = exponent.text := by
  obtain ⟨numeral, hnumeral⟩ := exists_numeral_of_consumeDigits h
  rw [List.append_nil] at hnumeral
  obtain ⟨upperCase, hcase⟩ : ∃ upperCase : Bool, marker = if upperCase then 'E' else 'e' := by
    obtain rfl | rfl := hmarker
    · exact ⟨false, rfl⟩
    · exact ⟨true, rfl⟩
  rw [skipSign] at hnumeral
  split_ifs at hnumeral with hsign
  · cases text with
    | nil => exact absurd hsign (by simp)
    | cons sign text =>
      obtain hplus | hminus := hsign
      · obtain rfl : sign = '+' := Option.some.inj hplus
        exact ⟨⟨upperCase, some false, numeral⟩, by rw [hcase, Exponent.text, ← hnumeral]; rfl⟩
      · obtain rfl : sign = '-' := Option.some.inj hminus
        exact ⟨⟨upperCase, some true, numeral⟩, by rw [hcase, Exponent.text, ← hnumeral]; rfl⟩
  · exact ⟨⟨upperCase, none, numeral⟩, by rw [hcase, Exponent.text, ← hnumeral]; rfl⟩

theorem exists_decimalText (h : isDecimalText text = true) :
    ∃ number : DecimalText, number.text = text := by
  simp only [isDecimalText, decide_eq_true_eq, Option.bind_eq_bind, Option.bind_eq_some_iff] at h
  obtain ⟨afterInteger, hinteger, afterFraction, hfraction, hexponent⟩ := h
  obtain ⟨integer, rfl⟩ := exists_numeral_of_consumeDigits hinteger
  obtain ⟨fraction, rfl⟩ : ∃ fraction : Option Numeral,
      afterInteger = (fraction.elim [] fun fraction => '.' :: fraction.digits) ++ afterFraction := by
    split_ifs at hfraction with hpoint
    · obtain ⟨fraction, htail⟩ := exists_numeral_of_consumeDigits hfraction
      refine ⟨some fraction, ?_⟩
      rw [← List.cons_head?_tail hpoint, htail]
      rfl
    · exact ⟨none, Option.some.inj hfraction⟩
  obtain ⟨exponent, rfl⟩ : ∃ exponent : Option Exponent,
      afterFraction = exponent.elim [] Exponent.text := by
    split_ifs at hexponent with hmarker
    · cases afterFraction with
      | nil => exact absurd hmarker (by simp)
      | cons marker afterMarker =>
        obtain ⟨exponent, htext⟩ := exists_exponent
          (hmarker.imp Option.some.inj Option.some.inj) hexponent
        exact ⟨some exponent, htext⟩
    · exact ⟨none, Option.some.inj hexponent⟩
  exact ⟨⟨integer, fraction, exponent⟩, by simp [DecimalText.text, DecimalText.mantissa]⟩

/-! ### The digits of a text -/

theorem not_isExponentMarker {c : Char} (h : c.isDigit = true ∨ c = '.') :
    (!isExponentMarker c) = true := by
  obtain h | rfl := h
  · obtain ⟨d, hd, rfl⟩ := exists_digitChar h
    interval_cases d <;> rfl
  · rfl

theorem ne_point {c : Char} (h : c.isDigit = true) : decide (c ≠ '.') = true :=
  decide_eq_true (by rintro rfl; exact absurd h (by decide))

namespace DecimalText

theorem isDigits (number : DecimalText) : IsDigits number.digits := by
  refine number.integer.isDigits.append ?_
  cases number.fraction with
  | none => exact fun _ hc => absurd hc List.not_mem_nil
  | some fraction => exact fraction.isDigits

theorem mantissa_chars (number : DecimalText) :
    ∀ c ∈ number.mantissa, (!isExponentMarker c) = true := by
  intro c hc
  obtain hc | hc := List.mem_append.mp hc
  · exact not_isExponentMarker (.inl (number.integer.isDigits c hc))
  · cases hfraction : number.fraction with
    | none => exact absurd (hfraction ▸ hc) List.not_mem_nil
    | some fraction =>
      rw [hfraction] at hc
      obtain rfl | hc := List.mem_cons.mp hc
      · exact not_isExponentMarker (.inr rfl)
      · exact not_isExponentMarker (.inl (fraction.isDigits c hc))

theorem takeWhile_text (number : DecimalText) :
    number.text.takeWhile (!isExponentMarker ·) = number.mantissa := by
  rw [text, List.takeWhile_append_of_pos number.mantissa_chars]
  cases number.exponent with
  | none => exact List.append_nil _
  | some exponent => cases hcase : exponent.upperCase <;> simp [Exponent.text, hcase, isExponentMarker]

theorem dropWhile_text (number : DecimalText) :
    number.text.dropWhile (!isExponentMarker ·) = number.exponent.elim [] Exponent.text := by
  rw [text, List.dropWhile_append_of_pos number.mantissa_chars]
  cases number.exponent with
  | none => rfl
  | some exponent => cases hcase : exponent.upperCase <;> simp [Exponent.text, hcase, isExponentMarker]

theorem takeWhile_mantissa (number : DecimalText) :
    number.mantissa.takeWhile (· ≠ '.') = number.integer.digits := by
  rw [mantissa, List.takeWhile_append_of_pos fun c hc => ne_point (number.integer.isDigits c hc)]
  cases number.fraction <;> simp

theorem filter_mantissa (number : DecimalText) :
    number.mantissa.filter (· ≠ '.') = number.digits := by
  have hfilter : ∀ numeral : Numeral, numeral.digits.filter (· ≠ '.') = numeral.digits :=
    fun numeral => List.filter_eq_self.mpr fun c hc => ne_point (numeral.isDigits c hc)
  rw [mantissa, digits, List.filter_append, hfilter]
  cases number.fraction with
  | none => rfl
  | some fraction =>
    rw [Option.elim_some, Option.elim_some, List.filter_cons_of_neg (by simp), hfilter]

theorem length_digits_le (number : DecimalText) : number.digits.length ≤ number.text.length := by
  rw [← filter_mantissa]
  refine (List.length_filter_le _ _).trans ?_
  rw [text, List.length_append]
  exact Nat.le_add_right _ _

theorem value_eq (number : DecimalText) : number.value = Nat.ofDigitChars 10 number.digits 0 *
    (10 : ℚ) ^ (number.pointPosition - number.digits.length) := by
  have hten : (10 : ℚ) ≠ 0 := by norm_num
  rw [value, digits, pointPosition]
  cases number.fraction with
  | none =>
    rw [Option.elim_none, Option.elim_none, List.append_nil, add_zero, add_sub_cancel_left]
    rfl
  | some fraction =>
    rw [Option.elim_some, Option.elim_some, value_append, List.length_append]
    have hexponent : (number.integer.digits.length : ℤ) + number.shift -
        ((number.integer.digits.length + fraction.digits.length : ℕ) : ℤ) =
        number.shift - (fraction.digits.length : ℕ) := by push_cast; ring
    rw [hexponent, zpow_sub₀ hten, zpow_natCast]
    simp only [Numeral.value]
    push_cast
    field_simp

end DecimalText

theorem exponentLoop_eq (h : IsDigits digits) :
    exponentLoop digits = min 513 (Nat.ofDigitChars 10 digits 0 : ℤ) := by
  induction digits using List.reverseRecOn with
  | nil => rfl
  | append_singleton digits c ih =>
    obtain ⟨hdigits, hc⟩ := h.of_append
    obtain ⟨d, hd, rfl⟩ := exists_digitChar (hc c List.mem_cons_self)
    have hlast : exponentLoop (digits ++ [Nat.digitChar d]) =
        min 513 (exponentLoop digits * 10 + (((Nat.digitChar d).toNat : ℤ) - 48)) := by
      rw [exponentLoop, List.foldl_append]
      rfl
    rw [hlast, ih hdigits, toNat_digitChar hd, value_concat hd]
    push_cast
    omega

theorem exponentOf_eq (number : DecimalText) :
    exponentOf (number.text.dropWhile (!isExponentMarker ·)) =
      max (-513) (min 513 number.shift) := by
  rw [number.dropWhile_text, DecimalText.shift]
  cases number.exponent with
  | none => rfl
  | some exponent =>
    have hloop := exponentLoop_eq exponent.numeral.isDigits
    have hhead : ∀ sign, (sign = '+' ∨ sign = '-') → exponent.numeral.digits.head? ≠ some sign := by
      intro sign hsign hhead
      have hdigit := exponent.numeral.isDigits sign (List.mem_of_mem_head? hhead)
      obtain rfl | rfl := hsign <;> exact absurd hdigit (by decide)
    rw [Option.elim_some, Option.elim_some, Exponent.text, Exponent.value, Exponent.signText,
      exponentOf, skipSign]
    cases hsign : exponent.negative with
    | none =>
      rw [List.nil_append, if_neg (hhead '-' (.inr rfl)), if_neg (by simp [hhead]), hloop,
        if_neg (by simp), Numeral.value]
      omega
    | some negative =>
      cases negative with
      | false =>
        simp only [List.cons_append, List.nil_append, List.head?_cons, true_or, if_true,
          List.tail_cons, hloop]
        rw [if_neg (by decide), if_neg (by decide), Numeral.value]
        omega
      | true =>
        simp only [List.cons_append, List.nil_append, List.head?_cons, or_true, if_true,
          List.tail_cons, hloop]
        rw [Numeral.value]
        omega

/-! ### Digits at their places -/

/-- The value of the digits in front of a place. -/
def prefixValue (digits : List Char) (k : ℕ) : ℕ :=
  Nat.ofDigitChars 10 digits 0 * 10 ^ k / 10 ^ digits.length

theorem digitAt_natCast (digits : List Char) (k : ℕ) :
    digitAt digits k = digits.getD k '0' := by
  rw [digitAt, Int.toNat_natCast]
  split_ifs with hrange
  · rfl
  · rw [List.getD_eq_default _ _ (by omega)]

theorem map_digitAt (digits : List Char) (k : ℕ) :
    ((List.range k).map fun position : ℕ => digitAt digits position) =
      (digits ++ List.replicate k '0').take k := by
  refine List.ext_getElem (by simp) fun i hi hi' => ?_
  rw [List.length_map, List.length_range] at hi
  rw [List.getElem_map, List.getElem_range, digitAt_natCast, List.getElem_take]
  by_cases hlt : i < digits.length
  · rw [List.getElem_append_left hlt, List.getD_eq_getElem _ _ hlt]
  · rw [List.getElem_append_right (by omega), List.getElem_replicate,
      List.getD_eq_default _ _ (by omega)]

section Digits

variable (h : IsDigits digits)
include h

theorem isDigits_map_digitAt (k : ℕ) :
    IsDigits ((List.range k).map fun position : ℕ => digitAt digits position) := by
  rw [map_digitAt]
  exact fun c hc => h.append isDigits_replicate c (List.mem_of_mem_take hc)

theorem value_map_digitAt (k : ℕ) : Nat.ofDigitChars 10
    ((List.range k).map fun position : ℕ => digitAt digits position) 0 = prefixValue digits k := by
  rw [map_digitAt, value_take h, prefixValue]

theorem prefixValue_zero : prefixValue digits 0 = 0 :=
  (value_map_digitAt h 0).symm

theorem digitAt_eq (k : ℕ) : ∃ d < 10, digitAt digits k = Nat.digitChar d ∧
    prefixValue digits (k + 1) = 10 * prefixValue digits k + d := by
  have hrange : ((List.range (k + 1)).map fun position : ℕ => digitAt digits position) =
      ((List.range k).map fun position : ℕ => digitAt digits position) ++ [digitAt digits k] := by
    rw [List.range_succ, List.map_append]
    rfl
  obtain ⟨d, hd, hdigit⟩ := exists_digitChar
    (isDigits_map_digitAt h (k + 1) (digitAt digits k) (by rw [hrange]; simp))
  refine ⟨d, hd, hdigit, ?_⟩
  rw [← value_map_digitAt h (k + 1), hrange, hdigit, value_concat hd, value_map_digitAt h]

theorem bounds_of_findIdx? {first : ℕ} (hfirst : digits.findIdx? (· ≠ '0') = some first) :
    Nat.ofDigitChars 10 digits 0 * 10 ^ first < 10 ^ digits.length ∧
      10 ^ digits.length ≤ Nat.ofDigitChars 10 digits 0 * 10 ^ (first + 1) := by
  have hpad : ∀ k, (((digits ++ List.replicate k '0').take k).findIdx? (· ≠ '0')) =
      (some first).bind (Option.guard fun i => i < k) := by
    intro k
    rw [List.findIdx?_take, List.findIdx?_append, hfirst]
    rfl
  have hzero : ∀ k, prefixValue digits k = 0 ↔ k ≤ first := by
    intro k
    rw [← value_map_digitAt h, value_eq_zero (isDigits_map_digitAt h k), map_digitAt, hpad]
    simp [Option.guard]
  constructor
  · have hlow := (hzero first).mpr le_rfl
    rw [prefixValue, Nat.div_eq_zero_iff_lt (by positivity)] at hlow
    exact hlow
  · have hhigh : prefixValue digits (first + 1) ≠ 0 := fun hlow => by
      have := (hzero (first + 1)).mp hlow
      omega
    rw [prefixValue, Ne, Nat.div_eq_zero_iff_lt (by positivity), not_lt] at hhigh
    exact hhigh

end Digits

/-! ### Rounding -/

/-- The digits of a number of hundredths, without its decimal point. -/
def hundredthsDigits (hundredths : ℕ) : List Char :=
  Nat.toDigits 10 (hundredths / 100) ++
    [Nat.digitChar (hundredths / 10 % 10), Nat.digitChar (hundredths % 10)]

theorem increment_hundredthsDigits (n : ℕ) :
    increment (hundredthsDigits n) = hundredthsDigits (n + 1) := by
  have hconcat : ∀ k, hundredthsDigits k =
      (Nat.toDigits 10 (k / 100) ++ [Nat.digitChar (k / 10 % 10)]) ++
        [Nat.digitChar (k % 10)] := fun k => by
    rw [List.append_assoc]
    rfl
  rw [hconcat, hconcat, increment_concat (by omega)]
  split_ifs with hlast
  · have hzero : (n + 1) % 10 = 0 := by omega
    rw [increment_concat (by omega), hzero]
    split_ifs with hnext
    · have hzero' : (n + 1) / 10 % 10 = 0 := by omega
      have hcarry : n / 100 + 1 = (n + 1) / 100 := by omega
      rw [increment_toDigits, hzero', hcarry]
      rfl
    · have hdigit : n / 10 % 10 + 1 = (n + 1) / 10 % 10 := by omega
      have hsame : n / 100 = (n + 1) / 100 := by omega
      rw [hdigit, hsame]
      rfl
  · have hsame : n / 10 = (n + 1) / 10 := by omega
    have hdigit : n % 10 + 1 = (n + 1) % 10 := by omega
    have hsame' : n / 100 = (n + 1) / 100 := by omega
    rw [hdigit, hsame, hsame']

theorem insert_point (n : ℕ) :
    (hundredthsDigits n).take ((hundredthsDigits n).length - 2) ++
      '.' :: (hundredthsDigits n).drop ((hundredthsDigits n).length - 2) = twoPlaces n := by
  have hlength : (hundredthsDigits n).length - 2 = (Nat.toDigits 10 (n / 100)).length := by
    rw [hundredthsDigits, List.length_append]
    exact Nat.add_sub_cancel _ _
  rw [hlength, hundredthsDigits, List.take_left, List.drop_left]
  rfl

theorem integerText_append (h : IsDigits digits) {k : ℕ} (hk : 0 < k) :
    integerText digits (k - 2) ++ [digitAt digits (k - 2), digitAt digits (k - 2 + 1)] =
      hundredthsDigits (prefixValue digits k) := by
  rw [integerText, hundredthsDigits]
  obtain rfl | ⟨j, rfl⟩ : k = 1 ∨ ∃ j, k = j + 2 := by
    obtain hone | htwo := Nat.eq_or_lt_of_le hk
    · exact .inl hone.symm
    · exact .inr ⟨k - 2, by omega⟩
  · -- The decimal point is one place in front of the digits.
    obtain ⟨d, hd, hdigit, hvalue⟩ := digitAt_eq h 0
    rw [prefixValue_zero h, Nat.mul_zero, Nat.zero_add, Nat.zero_add] at hvalue
    have hfront : digitAt digits ((1 : ℕ) - 2) = '0' := if_neg (by omega)
    have hnext : digitAt digits ((1 : ℕ) - 2 + 1) = Nat.digitChar d := hdigit
    rw [if_neg (by omega), hfront, hnext, hvalue, Nat.div_eq_of_lt (by omega : d < 100),
      Nat.div_eq_of_lt hd, Nat.mod_eq_of_lt hd]
    rfl
  · obtain ⟨d, hd, hdigit, hvalue⟩ := digitAt_eq h j
    obtain ⟨d', hd', hdigit', hvalue'⟩ := digitAt_eq h (j + 1)
    replace hvalue' : prefixValue digits (j + 2) = 10 * prefixValue digits (j + 1) + d' := hvalue'
    have hplace : ((j + 2 : ℕ) : ℤ) - 2 = (j : ℕ) := by omega
    have hplace' : ((j : ℕ) : ℤ) + 1 = ((j + 1 : ℕ) : ℤ) := by omega
    have hhundreds : prefixValue digits (j + 2) / 100 = prefixValue digits j := by omega
    have htens : prefixValue digits (j + 2) / 10 % 10 = d := by omega
    have hones : prefixValue digits (j + 2) % 10 = d' := by omega
    rw [hplace, hplace', hdigit, hdigit', hhundreds, htens, hones]
    congr 1
    split_ifs with hpos
    · have hne : ((List.range j).map fun position : ℕ => digitAt digits position) ≠ [] := by
        rw [Ne, List.map_eq_nil_iff, List.range_eq_nil]
        omega
      dsimp only
      rw [Int.toNat_natCast, drop_leading (isDigits_map_digitAt h j) hne, value_map_digitAt h]
    · obtain rfl : j = 0 := by omega
      rw [prefixValue_zero h]
      rfl

theorem five_le_digitAt {d : ℕ} (hd : d < 10) : '5' ≤ Nat.digitChar d ↔ 5 ≤ d := by
  interval_cases d <;> decide

theorem roundHalfUp_eq (digits : List Char) (k : ℕ) :
    roundHalfUp (100 * (Nat.ofDigitChars 10 digits 0 *
      (10 : ℚ) ^ (((k : ℤ) - 2) - digits.length))) = (prefixValue digits (k + 1) + 5) / 10 := by
  have hten : (10 : ℚ) ≠ 0 := by norm_num
  have hvalue : 100 * (Nat.ofDigitChars 10 digits 0 *
      (10 : ℚ) ^ (((k : ℤ) - 2) - digits.length)) + 1 / 2 =
      (((Nat.ofDigitChars 10 digits 0 * 10 ^ (k + 1) : ℕ) : ℚ) / ((10 ^ digits.length : ℕ) : ℚ) +
        5) / 10 := by
    rw [zpow_sub₀ hten, zpow_sub₀ hten, zpow_natCast, zpow_natCast]
    push_cast
    rw [pow_succ]
    field_simp
    ring
  rw [roundHalfUp, hvalue, Nat.floor_div_ofNat, Nat.floor_add_ofNat (by positivity),
    Nat.floor_div_eq_div, prefixValue]

theorem lt_hundredth_iff (h : IsDigits digits) {first : ℕ}
    (hfirst : digits.findIdx? (· ≠ '0') = some first) (point : ℤ) :
    (Nat.ofDigitChars 10 digits 0 : ℚ) * 10 ^ (point - digits.length) < 1 / 100 ↔
      point + 1 < first := by
  obtain ⟨hlow, hhigh⟩ := bounds_of_findIdx? h hfirst
  have hten : (10 : ℚ) ≠ 0 := by norm_num
  have hpos : (0 : ℚ) < 10 ^ digits.length := by positivity
  have hscale : (Nat.ofDigitChars 10 digits 0 : ℚ) * 10 ^ (point - digits.length) < 1 / 100 ↔
      (Nat.ofDigitChars 10 digits 0 : ℚ) * 10 ^ (point + 2) < 10 ^ digits.length := by
    rw [zpow_sub₀ hten, zpow_natCast, zpow_add₀ hten, ← mul_div_assoc, div_lt_iff₀ hpos]
    constructor <;> intro hlt <;> norm_num at hlt ⊢ <;> linarith
  have hlow' : (Nat.ofDigitChars 10 digits 0 : ℚ) * 10 ^ (first : ℤ) < 10 ^ digits.length := by
    rw [zpow_natCast]
    exact_mod_cast hlow
  have hhigh' : (10 : ℚ) ^ digits.length ≤
      Nat.ofDigitChars 10 digits 0 * 10 ^ ((first : ℤ) + 1) := by
    rw [← Nat.cast_succ, zpow_natCast]
    exact_mod_cast hhigh
  rw [hscale]
  constructor
  · intro hlt
    by_contra hge
    refine absurd (hhigh'.trans ?_) (not_le.mpr hlt)
    exact mul_le_mul_of_nonneg_left (zpow_le_zpow_right₀ (by norm_num) (by omega))
      (Nat.cast_nonneg _)
  · intro hlt
    refine lt_of_le_of_lt ?_ hlow'
    exact mul_le_mul_of_nonneg_left (zpow_le_zpow_right₀ (by norm_num) (by omega))
      (Nat.cast_nonneg _)

theorem formatDigits_eq (h : IsDigits digits) (text : List Char) (point : ℤ) :
    formatDigits text digits point = billingText text
      (Nat.ofDigitChars 10 digits 0 * (10 : ℚ) ^ (point - digits.length)) point := by
  have hpow : (10 : ℚ) ^ (point - digits.length) ≠ 0 := by positivity
  have hzero : Nat.ofDigitChars 10 digits 0 * (10 : ℚ) ^ (point - digits.length) = 0 ↔
      digits.findIdx? (· ≠ '0') = none := by
    rw [mul_eq_zero, or_iff_left hpow, Nat.cast_eq_zero, value_eq_zero h]
  rw [formatDigits, billingText]
  cases hfirst : digits.findIdx? (· ≠ '0') with
  | none => rw [if_pos (hzero.mpr hfirst)]
  | some first =>
    rw [if_neg fun hnull => Option.some_ne_none first (hfirst.symm.trans (hzero.mp hnull))]
    simp only [lt_hundredth_iff h hfirst]
    by_cases hsmall : point + 1 < first
    · rw [if_pos hsmall, if_pos hsmall]
    by_cases hlarge : maxFormattedIntegerDigits < point
    · rw [if_neg hsmall, if_neg hsmall, if_pos hlarge, if_pos hlarge]
    obtain ⟨k, hk, rfl⟩ : ∃ k : ℕ, 0 < k ∧ point = (k : ℤ) - 2 :=
      ⟨(point + 2).toNat, by omega, by omega⟩
    obtain ⟨d, hd, hdigit, hvalue⟩ := digitAt_eq h k
    have hplace : (k : ℤ) - 2 + 2 = (k : ℕ) := by omega
    rw [if_neg hsmall, if_neg hsmall, if_neg hlarge, if_neg hlarge, roundHalfUp_eq, hvalue,
      integerText_append h hk, hplace, hdigit]
    simp only [five_le_digitAt hd, increment_hundredthsDigits]
    split_ifs with hhalf
    · have hround : (10 * prefixValue digits k + d + 5) / 10 = prefixValue digits k + 1 := by omega
      rw [hround, insert_point]
    · have hround : (10 * prefixValue digits k + d + 5) / 10 = prefixValue digits k := by omega
      rw [hround, insert_point]

/-! ### Texts -/

theorem formatDigits_saturated {text : List Char} (hdigits : digits.length ≤ 64) {integerDigits : ℕ}
    (hinteger : integerDigits ≤ digits.length) (shift : ℤ) :
    formatDigits text digits (integerDigits + max (-513) (min 513 shift)) =
      formatDigits text digits (integerDigits + shift) := by
  rw [formatDigits, formatDigits, maxFormattedIntegerDigits]
  cases hfirst : digits.findIdx? (· ≠ '0') with
  | none => rfl
  | some first =>
    have hlt : first < digits.length := (List.findIdx?_eq_some_iff_getElem.mp hfirst).1
    dsimp only
    obtain hsmall | hlarge | hsame :
        shift < -513 ∨ 513 < shift ∨ max (-513) (min 513 shift) = shift := by omega
    · rw [if_pos (by omega), if_pos (by omega)]
    · rw [if_neg (by omega), if_pos (by omega), if_neg (by omega), if_pos (by omega)]
    · rw [hsame]

theorem formatBillingAmount_eq (number : DecimalText) (hlength : number.text.length ≤ 64) :
    formatBillingAmount number.text =
      billingText number.text number.value number.pointPosition := by
  have hinteger : number.integer.digits.length ≤ number.digits.length := by
    rw [DecimalText.digits, List.length_append]
    exact Nat.le_add_right _ _
  rw [formatBillingAmount, exponentOf_eq, number.takeWhile_text, number.takeWhile_mantissa,
    number.filter_mantissa, formatDigits_saturated (number.length_digits_le.trans hlength) hinteger,
    formatDigits_eq number.isDigits, number.value_eq]
  rfl

end IntelligentTerminal.AgentUsage
