import IntelligentTerminal.Usage.BillingAmount

/-!
# The percentage that is shown

The percentage is accumulated by a hundred additions modulo the size. Before each of them the
fraction and the residual are the quotient and the remainder of what has been added so far, so that
no addition or subtraction of `uint64_t` overflows, and the residual tells how to round.
-/

namespace IntelligentTerminal.AgentUsage

open IntelligentTerminal.Data

variable {m : Type → Type} [Monad m] {word : Word64 m} {used size remainder : ℕ}

/-- The arithmetic is that of numbers where nothing overflows. -/
structure Word64.Exact (word : Word64 m) : Prop where
  add : ∀ a b, a + b < 2 ^ 64 → word.add a b = pure (a + b)
  sub : ∀ a b, b ≤ a → a < 2 ^ 64 → word.sub a b = pure (a - b)

theorem wrapping_exact : wrapping.Exact where
  add _ _ hlt := Nat.mod_eq_of_lt hlt
  sub a b hle hlt := by
    have hwrap : a + (2 ^ 64 - b) = a - b + 2 ^ 64 := by omega
    have hmod : (a + (2 ^ 64 - b)) % 2 ^ 64 = a - b := by
      rw [hwrap, Nat.add_mod_right, Nat.mod_eq_of_lt (by omega)]
    exact hmod

theorem checked_exact : checked.Exact where
  add _ _ hlt := if_pos hlt
  sub _ _ hle _ := if_pos hle

theorem percentageLoop_eq [LawfulMonad m] (h : word.Exact) (hremainder : remainder < size)
    (hsize : size < 2 ^ 64) (n : ℕ) {total : ℕ} (hlt : total + n * remainder < 2 ^ 64 * size) :
    percentageLoop word size remainder n (total / size) (total % size) =
      pure ((total + n * remainder) / size, (total + n * remainder) % size) := by
  have hpos : 0 < size := by omega
  induction n generalizing total with
  | zero => rw [Nat.zero_mul, Nat.add_zero, percentageLoop]
  | succ n ih =>
    have hnext : total + (n + 1) * remainder = total + remainder + n * remainder := by ring
    rw [hnext] at hlt ⊢
    have hresidual : total % size < size := Nat.mod_lt _ hpos
    have hsplit := Nat.div_add_mod total size
    rw [percentageLoop, h.sub _ _ hremainder.le hsize, pure_bind, ← ih hlt]
    split_ifs with hgap
    · obtain ⟨hdiv, hmod⟩ : (total + remainder) / size = total / size + 1 ∧
          (total + remainder) % size = total % size - (size - remainder) := by
        rw [Nat.div_mod_unique hpos, Nat.mul_succ]
        omega
      have hfraction : total / size + 1 < 2 ^ 64 := by
        rw [← hdiv, Nat.div_lt_iff_lt_mul hpos]
        exact lt_of_le_of_lt (Nat.le_add_right _ _) hlt
      rw [h.sub _ _ hgap (by omega), pure_bind, h.add _ _ hfraction, pure_bind, hdiv, hmod]
    · obtain ⟨hdiv, hmod⟩ : (total + remainder) / size = total / size ∧
          (total + remainder) % size = total % size + remainder := by
        rw [Nat.div_mod_unique hpos]
        omega
      rw [h.add _ _ (by omega), pure_bind, hdiv, hmod]

theorem roundHalfUp_div (hsize : 0 < size) (used : ℕ) :
    roundHalfUp (100 * used / size) = (200 * used + size) / (2 * size) := by
  have hne : (size : ℚ) ≠ 0 := by exact_mod_cast hsize.ne'
  have hvalue : 100 * (used : ℚ) / size + 1 / 2 =
      ((200 * used + size : ℕ) : ℚ) / ((2 * size : ℕ) : ℚ) := by
    push_cast
    field_simp
    ring
  rw [roundHalfUp, hvalue, Nat.floor_div_eq_div]

theorem percentage_eq (hsize : 0 < size) (used : ℕ) :
    (200 * used + size) / (2 * size) = 100 * (used / size) + (100 * (used % size) / size +
      if size - 100 * (used % size) % size ≤ 100 * (used % size) % size then 1 else 0) := by
  have hused := Nat.div_add_mod used size
  have htotal := Nat.div_add_mod (100 * (used % size)) size
  have hresidual : 100 * (used % size) % size < size := Nat.mod_lt _ hsize
  generalize used / size = whole at *
  generalize 100 * (used % size) % size = residual at *
  generalize 100 * (used % size) / size = fraction at *
  have hsum : 200 * used + size =
      (100 * whole + fraction) * (2 * size) + (2 * residual + size) := by linarith
  rw [hsum, Nat.add_comm, Nat.add_mul_div_right _ _ (by omega), Nat.add_comm, Nat.add_assoc]
  congr 2
  split_ifs with hhalf
  · exact Nat.div_eq_of_lt_le (by omega) (by omega)
  · exact Nat.div_eq_of_lt (by omega)

theorem percentageText_eq {whole fraction : ℕ} (hfraction : fraction < 100) :
    (if whole = 0 then Nat.toDigits 10 fraction
      else Nat.toDigits 10 whole ++
        [Char.ofNat (48 + fraction / 10), Char.ofNat (48 + fraction % 10)]) =
      Nat.toDigits 10 (100 * whole + fraction) := by
  split_ifs with hwhole
  · rw [hwhole, Nat.mul_zero, Nat.zero_add]
  · rw [toDigits_hundred (Nat.pos_of_ne_zero hwhole) hfraction, ofNat_eq_digitChar (by omega),
      ofNat_eq_digitChar (by omega)]

theorem formatContextPercentageWith_eq [LawfulMonad m] (h : word.Exact) (hused : used < 2 ^ 64)
    (hpos : 0 < size) (hsize : size < 2 ^ 64) : formatContextPercentageWith word used size =
      pure (Nat.toDigits 10 (roundHalfUp (100 * used / size)) ++ ['%']) := by
  have hremainder : used % size < size := Nat.mod_lt _ hpos
  have hloop := percentageLoop_eq h hremainder hsize 100
    (show 0 + 100 * (used % size) < 2 ^ 64 * size by omega)
  rw [Nat.zero_div, Nat.zero_mod, Nat.zero_add] at hloop
  rw [roundHalfUp_div hpos, percentage_eq hpos, formatContextPercentageWith, hloop]
  simp only [pure_bind]
  have hresidual : 100 * (used % size) % size < size := Nat.mod_lt _ hpos
  have hfraction : 100 * (used % size) / size < 100 := by
    rw [Nat.div_lt_iff_lt_mul hpos]
    omega
  -- A size of one leaves nothing to round.
  have hwhole : size - 100 * (used % size) % size ≤ 100 * (used % size) % size →
      used / size + 1 < 2 ^ 64 := by
    intro hhalf
    have htwo : used / size ≤ used / 2 := Nat.div_le_div_left (by omega) (by decide)
    omega
  rw [h.sub _ _ hresidual.le hsize, pure_bind]
  generalize 100 * (used % size) % size = residual at *
  generalize 100 * (used % size) / size = fraction at *
  generalize used / size = whole at *
  by_cases hhalf : size - residual ≤ residual
  · rw [if_pos hhalf, if_pos hhalf, h.add _ _ (by omega), pure_bind]
    by_cases hcarry : fraction + 1 = 100
    · rw [if_pos hcarry, if_pos hcarry, h.add _ _ (hwhole hhalf), pure_bind,
        percentageText_eq (by decide), hcarry, Nat.mul_succ, Nat.add_zero]
    · rw [if_neg hcarry, if_neg hcarry, percentageText_eq (by omega)]
  · have hcarry : fraction ≠ 100 := hfraction.ne
    rw [if_neg hhalf, if_neg hhalf, if_neg hcarry, if_neg hcarry, percentageText_eq hfraction,
      Nat.add_zero]

/-- Usage figures are rounded exactly. -/
theorem usageFigures_rounded :
    (∀ text, isDecimalText text = true → text.length ≤ 64 →
      (∃ number : DecimalText, number.text = text) ∧
      ∀ number : DecimalText, number.text = text →
        formatBillingAmount text = billingText text number.value number.pointPosition) ∧
    ∀ used size, used < 2 ^ 64 → 0 < size → size < 2 ^ 64 →
      formatContextPercentage used size =
        Nat.toDigits 10 (roundHalfUp (100 * used / size)) ++ ['%'] ∧
      formatContextPercentageWith checked used size =
        some (formatContextPercentage used size) := by
  refine ⟨fun text htext hlength => ⟨exists_decimalText htext, ?_⟩,
    fun used size hused hpos hsize => ?_⟩
  · rintro number rfl
    exact formatBillingAmount_eq number hlength
  · have hwrapping : formatContextPercentage used size =
        Nat.toDigits 10 (roundHalfUp (100 * used / size)) ++ ['%'] :=
      formatContextPercentageWith_eq wrapping_exact hused hpos hsize
    rw [hwrapping]
    exact ⟨rfl, formatContextPercentageWith_eq checked_exact hused hpos hsize⟩

/-- `9.995`, and the largest numbers. -/
theorem usageFigures_rounded_sample :
    (∃ number : DecimalText, number.text = "9.995".toList ∧ "10.00".toList =
      billingText "9.995".toList number.value number.pointPosition) ∧
    formatContextPercentageWith checked (2 ^ 64 - 1) (2 ^ 64 - 2) = some "100%".toList := by
  obtain ⟨⟨number, htext⟩, hbilling⟩ := usageFigures_rounded.1 "9.995".toList (by decide) (by decide)
  refine ⟨⟨number, htext, ?_⟩, ?_⟩
  · exact (by decide : "10.00".toList = formatBillingAmount "9.995".toList).trans
      (hbilling number htext)
  · obtain ⟨-, hchecked⟩ := usageFigures_rounded.2 (2 ^ 64 - 1) (2 ^ 64 - 2) (by decide) (by decide)
      (by decide)
    rw [hchecked]
    rfl

end IntelligentTerminal.AgentUsage
