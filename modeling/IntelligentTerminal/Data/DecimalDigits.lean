import Mathlib

/-!
# Decimal numerals

A numeral is a list of decimal digits, and its value is `Nat.ofDigitChars 10`. A part of a numeral
is a quotient of its value, a numeral without its leading zeros is determined by its value, and a
carry from the right adds one to it.
-/

namespace IntelligentTerminal.Data

/-- A list of decimal digits. -/
def IsDigits (l : List Char) : Prop := ∀ c ∈ l, c.isDigit = true

/-- Adds one to a numeral whose last digit comes first. -/
def carry : List Char → List Char
  | [] => ['1']
  | c :: rest => if c = '9' then '0' :: carry rest else Char.ofNat (c.toNat + 1) :: rest

/-- Adds one to a numeral. -/
def increment (l : List Char) : List Char := (carry l.reverse).reverse

variable {l l' : List Char} {c : Char} {n k : ℕ}

/-! ### Digits -/

theorem exists_digitChar (h : c.isDigit = true) : ∃ d < 10, c = Nat.digitChar d := by
  rw [Char.isDigit, Bool.and_eq_true, decide_eq_true_eq, decide_eq_true_eq] at h
  have hlower : 48 ≤ c.toNat := h.1
  have hupper : c.toNat ≤ 57 := h.2
  refine ⟨c.toNat - 48, by omega, ?_⟩
  rw [← Char.ofNat_toNat c]
  generalize c.toNat = n at hlower hupper ⊢
  interval_cases n <;> rfl

theorem toNat_digitChar (h : n < 10) : (Nat.digitChar n).toNat = 48 + n :=
  Nat.toNat_digitChar_of_lt_ten h

theorem ofNat_eq_digitChar (h : n < 10) : Char.ofNat (48 + n) = Nat.digitChar n := by
  rw [← toNat_digitChar h, Char.ofNat_toNat]

theorem IsDigits.append (h : IsDigits l) (h' : IsDigits l') : IsDigits (l ++ l') := fun c hc =>
  (List.mem_append.mp hc).elim (h c) (h' c)

theorem IsDigits.of_append (h : IsDigits (l ++ l')) : IsDigits l ∧ IsDigits l' :=
  ⟨fun c hc => h c (List.mem_append_left _ hc), fun c hc => h c (List.mem_append_right _ hc)⟩

theorem isDigits_replicate : IsDigits (List.replicate n '0') := fun _ hc =>
  List.eq_of_mem_replicate hc ▸ rfl

/-! ### Values -/

theorem value_append : Nat.ofDigitChars 10 (l ++ l') 0 =
    10 ^ l'.length * Nat.ofDigitChars 10 l 0 + Nat.ofDigitChars 10 l' 0 := by
  rw [Nat.ofDigitChars_append, Nat.ofDigitChars_eq_ofDigitChars_zero]

theorem value_digitChar (h : n < 10) : Nat.ofDigitChars 10 [Nat.digitChar n] 0 = n := by
  rw [Nat.ofDigitChars_cons_digitChar_of_lt_ten h, Nat.ofDigitChars_nil, Nat.mul_zero, Nat.zero_add]

theorem value_concat (h : n < 10) : Nat.ofDigitChars 10 (l ++ [Nat.digitChar n]) 0 =
    10 * Nat.ofDigitChars 10 l 0 + n := by
  rw [value_append, value_digitChar h]
  rfl

theorem value_lt (h : IsDigits l) : Nat.ofDigitChars 10 l 0 < 10 ^ l.length := by
  induction l using List.reverseRecOn with
  | nil => exact Nat.one_pos
  | append_singleton l c ih =>
    obtain ⟨hl, hc⟩ := h.of_append
    obtain ⟨d, hd, rfl⟩ := exists_digitChar (hc c List.mem_cons_self)
    have hlt := ih hl
    rw [value_concat hd, List.length_append, List.length_singleton, pow_succ]
    omega

theorem value_eq_zero (h : IsDigits l) :
    Nat.ofDigitChars 10 l 0 = 0 ↔ l.findIdx? (· ≠ '0') = none := by
  rw [List.findIdx?_eq_none_iff]
  induction l using List.reverseRecOn with
  | nil => simp
  | append_singleton l c ih =>
    obtain ⟨hl, hc⟩ := h.of_append
    obtain ⟨d, hd, rfl⟩ := exists_digitChar (hc c List.mem_cons_self)
    have hzero : decide (Nat.digitChar d ≠ '0') = false ↔ d = 0 := by
      rw [decide_eq_false_iff_not, not_not, Nat.digitChar_eq_zero]
    rw [value_concat hd, List.forall_mem_append, ← ih hl, List.forall_mem_singleton, hzero]
    omega

theorem value_take (h : IsDigits l) (k : ℕ) :
    Nat.ofDigitChars 10 ((l ++ List.replicate k '0').take k) 0 =
      Nat.ofDigitChars 10 l 0 * 10 ^ k / 10 ^ l.length := by
  have hdigits : IsDigits (l ++ List.replicate k '0') := h.append isDigits_replicate
  have hsplit := List.take_append_drop k (l ++ List.replicate k '0')
  have hlength : ((l ++ List.replicate k '0').drop k).length = l.length := by
    rw [List.length_drop, List.length_append, List.length_replicate, Nat.add_sub_cancel]
  have hlt : Nat.ofDigitChars 10 ((l ++ List.replicate k '0').drop k) 0 < 10 ^ l.length := by
    rw [← hlength]
    exact value_lt fun c hc => hdigits c (List.mem_of_mem_drop hc)
  have hvalue : Nat.ofDigitChars 10 (l ++ List.replicate k '0') 0 =
      Nat.ofDigitChars 10 l 0 * 10 ^ k := by
    rw [Nat.ofDigitChars_append, Nat.ofDigitChars_replicate_zero, Nat.mul_comm]
  rw [← hvalue]
  conv_rhs => rw [← hsplit, value_append, hlength]
  rw [Nat.mul_add_div (Nat.pow_pos (by decide)), Nat.div_eq_of_lt hlt, Nat.add_zero]

/-! ### The numeral of a number -/

theorem toDigits_concat (hn : 0 < n) (hk : k < 10) :
    Nat.toDigits 10 (10 * n + k) = Nat.toDigits 10 n ++ [Nat.digitChar k] := by
  rw [← Nat.toDigits_append_toDigits (by decide) hn hk, Nat.toDigits_of_lt_base hk]

theorem toDigits_hundred (hn : 0 < n) (hk : k < 100) : Nat.toDigits 10 (100 * n + k) =
    Nat.toDigits 10 n ++ [Nat.digitChar (k / 10), Nat.digitChar (k % 10)] := by
  have hsplit : 100 * n + k = 10 * (10 * n + k / 10) + k % 10 := by omega
  rw [hsplit, toDigits_concat (by omega) (by omega), toDigits_concat hn (by omega),
    List.append_assoc]
  rfl

theorem drop_leading (h : IsDigits l) (hne : l ≠ []) :
    l.drop ((l.findIdx? (· ≠ '0')).getD (l.length - 1)) =
      Nat.toDigits 10 (Nat.ofDigitChars 10 l 0) := by
  induction l using List.reverseRecOn with
  | nil => exact absurd rfl hne
  | append_singleton l c ih =>
    obtain ⟨hl, hc⟩ := h.of_append
    obtain ⟨d, hd, rfl⟩ := exists_digitChar (hc c List.mem_cons_self)
    rw [value_concat hd, List.findIdx?_append]
    cases hfirst : l.findIdx? (· ≠ '0') with
    | none =>
      have hstart : ((none : Option ℕ).or (([Nat.digitChar d].findIdx? (· ≠ '0')).map
          (· + l.length))).getD ((l ++ [Nat.digitChar d]).length - 1) = l.length := by
        by_cases hzero : Nat.digitChar d = '0' <;> simp [hzero]
      rw [hstart, List.drop_left, (value_eq_zero hl).mpr hfirst, Nat.mul_zero, Nat.zero_add,
        Nat.toDigits_of_lt_base hd]
    | some first =>
      have hpos : 0 < Nat.ofDigitChars 10 l 0 := Nat.pos_of_ne_zero fun hzero =>
        Option.some_ne_none first (hfirst.symm.trans ((value_eq_zero hl).mp hzero))
      have hlt : first < l.length := (List.findIdx?_eq_some_iff_getElem.mp hfirst).1
      rw [Option.some_or, Option.getD_some, List.drop_append_of_le_length hlt.le,
        toDigits_concat hpos hd, ← ih hl (by rintro rfl; simp at hlt), hfirst, Option.getD_some]

/-! ### Adding one -/

theorem increment_concat (h : n < 10) : increment (l ++ [Nat.digitChar n]) =
    if n = 9 then increment l ++ ['0'] else l ++ [Nat.digitChar (n + 1)] := by
  rw [increment, List.reverse_append, List.reverse_singleton, List.singleton_append, carry]
  by_cases hnine : n = 9
  · rw [if_pos (by rw [hnine]; rfl), if_pos hnine, List.reverse_cons]
    rfl
  · rw [if_neg (by rwa [Nat.digitChar_eq_nine]), if_neg hnine, List.reverse_cons,
      List.reverse_reverse, toNat_digitChar h, Nat.add_assoc, ofNat_eq_digitChar (by omega)]

theorem increment_toDigits (n : ℕ) : increment (Nat.toDigits 10 n) = Nat.toDigits 10 (n + 1) := by
  induction n using Nat.strongRecOn with
  | ind n ih =>
    by_cases hlt : n < 10
    · rw [Nat.toDigits_of_lt_base hlt]
      interval_cases n <;> rfl
    · have hsplit : n = 10 * (n / 10) + n % 10 := by omega
      have hpos : 0 < n / 10 := by omega
      rw [hsplit, toDigits_concat hpos (by omega), increment_concat (by omega)]
      split_ifs with hnine
      · have hnext : 10 * (n / 10) + n % 10 + 1 = 10 * (n / 10 + 1) + 0 := by omega
        rw [ih _ (by omega), hnext, toDigits_concat (by omega) (by decide)]
        rfl
      · rw [Nat.add_assoc, toDigits_concat hpos (by omega)]

end IntelligentTerminal.Data
