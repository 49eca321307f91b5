import Mathlib

/-!
# Parsing integers

`til::parse_u64` reads a numeral of a base up to 36, or of the base that a prefix gives. A digit is
mapped to its value by one subtraction, in which every other character wraps around or lands beyond
the digits. An overflow is found by a bound in front of the multiplication and a comparison behind the
addition. `parse_unsigned` and `parse_signed` narrow the value to a type.

A character is the 64-bit value that it is converted to. Negation wraps around, as it does for the
smallest value of a signed type.

Source: `src/inc/til/string.h`, lines 384-506.
-/

namespace IntelligentTerminal.Til

/-! ### The functions -/

/-- The value of a character in `parse_u64`. Values that are not digits come out as 36 or more. -/
def digitWeight (ch : UInt64) : UInt64 :=
  let sub : UInt64 :=
    if ch ≥ 0x30 && ch ≤ 0x39 then (0x30 - 1) &&& ~~~0x20 else ((0x41 - 1) &&& ~~~0x20) - 10
  ((ch - 1) &&& ~~~0x20) - sub

/-- The check behind the multiplication and the addition. -/
def overflows (accumulator base value : UInt64) : Bool :=
  accumulator > (-1) / base || accumulator * base + value < accumulator

def parseLoop (base : UInt64) : UInt64 → List UInt64 → Option UInt64
  | accumulator, [] => some accumulator
  | accumulator, ch :: rest =>
    let value := digitWeight ch
    if value ≥ base || overflows accumulator base value then none
    else parseLoop base (accumulator * base + value) rest

/-- The base that a prefix gives, and what is behind the prefix. -/
def detectBase : List UInt64 → UInt64 × List UInt64
  | zero :: next :: rest =>
    if zero = 0x30 then
      let ch := next ||| 0x20
      if ch = 0x62 then (2, rest)
      else if ch = 0x78 then (16, rest)
      else (8, next :: rest)
    else (10, zero :: next :: rest)
  | str => (10, str)

/-- `til::details::parse_u64`. -/
def parseU64 (str : List UInt64) (base : Int32) : Option UInt64 :=
  let (base, ptr) := if base ≤ 0 then detectBase str else (base.toInt64.toUInt64, str)
  if ptr.isEmpty || base > 36 then none else parseLoop base 0 ptr

/-- The widths of the integral types. -/
inductive Width where
  | w8
  | w16
  | w32
  | w64
deriving DecidableEq

/-- The number of bits. -/
def Width.bits : Width → ℕ
  | .w8 => 8
  | .w16 => 16
  | .w32 => 32
  | .w64 => 64

def parseUnsigned (w : Width) (str : List UInt64) (base : Int32) : Option (BitVec w.bits) :=
  match parseU64 str base with
  | none => none
  | some opt =>
    if opt > UInt64.ofNat (2 ^ w.bits - 1) then none else some (opt.toBitVec.setWidth w.bits)

/-- `str.starts_with(L'-')`. -/
def hasSign (str : List UInt64) : Bool := str.head? == some 0x2D

def parseSigned (w : Width) (str : List UInt64) (base : Int32) : Option (BitVec w.bits) :=
  let sign := hasSign str
  let str := if sign then str.drop 1 else str
  let max := UInt64.ofNat (2 ^ (w.bits - 1) - 1) + if sign then 1 else 0
  match parseU64 str base with
  | none => none
  | some opt =>
    if opt > max then none
    else
      let r := opt.toBitVec.setWidth w.bits
      some (if sign then -r else r)

/-! ### Numerals -/

/-- The value of a digit or a letter, in either case. -/
def digitValue (ch : UInt64) : Option ℕ :=
  if 0x30 ≤ ch ∧ ch ≤ 0x39 then some (ch.toNat - 0x30)
  else if 0x41 ≤ ch ∧ ch ≤ 0x5A then some (ch.toNat - 0x41 + 10)
  else if 0x61 ≤ ch ∧ ch ≤ 0x7A then some (ch.toNat - 0x61 + 10)
  else none

/-- A non-empty sequence of digits of the base, the first one the most significant. -/
def IsNumeral (base : ℕ) (str : List UInt64) (n : ℕ) : Prop :=
  ∃ digits : List ℕ, digits ≠ [] ∧ str.map digitValue = digits.map some ∧
    (∀ d ∈ digits, d < base) ∧ Nat.ofDigits base digits.reverse = n

/-- What is read of a string, and its base: a prefix counts when no base is given. -/
def numeralOf (base : ℕ) (str : List UInt64) : ℕ × List UInt64 :=
  if base = 0 then
    if [0x30, 0x62] <+: str ∨ [0x30, 0x42] <+: str then (2, str.drop 2)
    else if [0x30, 0x78] <+: str ∨ [0x30, 0x58] <+: str then (16, str.drop 2)
    else if [0x30] <+: str ∧ 2 ≤ str.length then (8, str.drop 1)
    else (10, str)
  else (base, str)

/-- The value that a signed numeral denotes. -/
def signedValue (str : List UInt64) (n : ℕ) : ℤ := if hasSign str then -(n : ℤ) else n

/-- A signed numeral without its sign. -/
def unsignedPart (str : List UInt64) : List UInt64 := if hasSign str then str.drop 1 else str

/-! ### One digit -/

theorem toNat_and_not (x m : UInt64) : (x &&& ~~~m).toNat + (x &&& m).toNat = x.toNat := by
  have hdisjoint : (x.toBitVec &&& ~~~m.toBitVec) &&& (x.toBitVec &&& m.toBitVec) = 0#64 := by
    ext i hi
    cases h : m.toBitVec[i] <;> simp [h]
  have hunion : (x.toBitVec &&& ~~~m.toBitVec) ||| (x.toBitVec &&& m.toBitVec) = x.toBitVec := by
    ext i hi
    cases h : m.toBitVec[i] <;> simp [h]
  have hsum := BitVec.toNat_add_of_and_eq_zero hdisjoint
  rw [BitVec.add_eq_or_of_and_eq_zero _ _ hdisjoint, hunion] at hsum
  exact hsum.symm

theorem digitValue_eq_of_lt : ∀ n < 128, digitValue (UInt64.ofNat n) =
    if (digitWeight (UInt64.ofNat n)).toNat < 36 then some (digitWeight (UInt64.ofNat n)).toNat
    else none := by
  decide +kernel

variable {base accumulator n : ℕ} {ch : UInt64}

theorem le_digitWeight_of_le (hch : 128 ≤ ch.toNat) : 36 ≤ (digitWeight ch).toNat := by
  have hdecimal : ¬ (ch ≥ 0x30 && ch ≤ 0x39) = true := by
    simp [UInt64.le_iff_toNat_le]
    omega
  have hweight : digitWeight ch = ((ch - 1) &&& ~~~0x20) - 0x36 := by
    rw [digitWeight, if_neg hdecimal]
    rfl
  have hpred : (ch - 1).toNat = ch.toNat - 1 := by
    rw [UInt64.toNat_sub_of_le _ _ (by rw [UInt64.le_iff_toNat_le]; simp; omega)]
    rfl
  have hsplit := toNat_and_not (ch - 1) 0x20
  have hmask : ((ch - 1) &&& 0x20).toNat ≤ 32 := by
    rw [UInt64.toNat_and]
    exact Nat.and_le_right
  have hsub : (0x36 : UInt64).toNat = 54 := rfl
  rw [hweight, UInt64.toNat_sub_of_le _ _ (by rw [UInt64.le_iff_toNat_le]; omega)]
  omega

theorem digitValue_eq (ch : UInt64) : digitValue ch =
    if (digitWeight ch).toNat < 36 then some (digitWeight ch).toNat else none := by
  rcases Nat.lt_or_ge ch.toNat 128 with hlt | hge
  · have h := digitValue_eq_of_lt ch.toNat hlt
    rwa [UInt64.ofNat_toNat] at h
  · rw [if_neg (le_digitWeight_of_le hge).not_gt]
    simp only [digitValue, UInt64.le_iff_toNat_le]
    rw [if_neg, if_neg, if_neg] <;> simp <;> omega

theorem digitWeight_lt_iff {base : UInt64} (hbase : base ≤ 36) (ch : UInt64) :
    digitWeight ch < base ↔ ∃ d, digitValue ch = some d ∧ d < base.toNat := by
  rw [UInt64.le_iff_toNat_le] at hbase
  rw [UInt64.lt_iff_toNat_lt, digitValue_eq]
  constructor
  · intro h
    exact ⟨_, if_pos (h.trans_le hbase), h⟩
  · rintro ⟨d, hd, hlt⟩
    split_ifs at hd with hdigit
    rwa [← Option.some_inj.mp hd] at hlt

theorem toNat_digitWeight {d : ℕ} (hd : digitValue ch = some d) :
    (digitWeight ch).toNat = d := by
  rw [digitValue_eq] at hd
  split_ifs at hd
  exact Option.some_inj.mp hd

/-! ### One step -/

theorem overflows_iff (accumulator : UInt64) {base value : UInt64} (hbase : base ≤ 36)
    (hvalue : value < base) : overflows accumulator base value = true ↔
      2 ^ 64 ≤ accumulator.toNat * base.toNat + value.toNat := by
  rw [UInt64.lt_iff_toNat_lt] at hvalue
  rw [UInt64.le_iff_toNat_le] at hbase
  have h36 : (36 : UInt64).toNat = 36 := rfl
  have hmax : (-1 : UInt64).toNat = 2 ^ 64 - 1 := rfl
  have hbound : (-1) / base < accumulator ↔ 2 ^ 64 ≤ accumulator.toNat * base.toNat := by
    rw [UInt64.lt_iff_toNat_lt, UInt64.toNat_div, hmax, Nat.div_lt_iff_lt_mul (by omega)]
    omega
  have hacc : (accumulator * base + value).toNat =
      (accumulator.toNat * base.toNat + value.toNat) % 2 ^ 64 := by
    rw [UInt64.toNat_add, UInt64.toNat_mul, Nat.mod_add_mod]
  have hsmall : accumulator.toNat * base.toNat ≤ accumulator.toNat * 36 :=
    Nat.mul_le_mul_left _ (by omega)
  have hlarge : accumulator.toNat ≤ accumulator.toNat * base.toNat :=
    Nat.le_mul_of_pos_right _ (by omega)
  rw [overflows, Bool.or_eq_true, decide_eq_true_iff, decide_eq_true_iff, gt_iff_lt, hbound,
    UInt64.lt_iff_toNat_lt, hacc]
  omega

/-! ### The loop -/

/-- The string consists of digits of the base, and with `accumulator` in front of them their value is
`n`. -/
def Continues (base accumulator : ℕ) (str : List UInt64) (n : ℕ) : Prop :=
  ∃ digits : List ℕ, str.map digitValue = digits.map some ∧ (∀ d ∈ digits, d < base) ∧
    accumulator * base ^ digits.length + Nat.ofDigits base digits.reverse = n

theorem continues_nil :
    Continues base accumulator [] n ↔ accumulator = n := by
  constructor
  · rintro ⟨digits, hmap, -, hvalue⟩
    obtain rfl : digits = [] := by simpa using hmap.symm
    simpa using hvalue
  · rintro rfl
    exact ⟨[], rfl, by simp, by simp⟩

theorem continues_cons {base accumulator n d : ℕ} {rest : List UInt64}
    (hd : digitValue ch = some d) (hlt : d < base) :
    Continues base accumulator (ch :: rest) n ↔ Continues base (accumulator * base + d) rest n := by
  have hhorner (digits : List ℕ) : accumulator * base ^ (d :: digits).length +
      Nat.ofDigits base (d :: digits).reverse =
        (accumulator * base + d) * base ^ digits.length + Nat.ofDigits base digits.reverse := by
    rw [List.reverse_cons, Nat.ofDigits_append, Nat.ofDigits_singleton, List.length_reverse,
      List.length_cons]
    ring
  constructor
  · rintro ⟨_ | ⟨d', digits⟩, hmap, hall, hvalue⟩
    · simp at hmap
    · rw [List.map_cons, List.map_cons, List.cons.injEq, hd, Option.some_inj] at hmap
      obtain ⟨rfl, hmap⟩ := hmap
      rw [hhorner] at hvalue
      exact ⟨digits, hmap, fun e he => hall e (List.mem_cons_of_mem _ he), hvalue⟩
  · rintro ⟨digits, hmap, hall, hvalue⟩
    refine ⟨d :: digits, ?_, List.forall_mem_cons.mpr ⟨hlt, hall⟩, ?_⟩
    · rw [List.map_cons, List.map_cons, hd, hmap]
    · rw [hhorner, hvalue]

theorem Continues.digit_head {rest : List UInt64}
    (h : Continues base accumulator (ch :: rest) n) : ∃ d, digitValue ch = some d ∧ d < base := by
  obtain ⟨_ | ⟨d, digits⟩, hmap, hall, -⟩ := h
  · simp at hmap
  · rw [List.map_cons, List.map_cons, List.cons.injEq] at hmap
    exact ⟨d, hmap.1, hall d List.mem_cons_self⟩

theorem Continues.le {str : List UInt64}
    (h : Continues base accumulator str n) (hpos : 0 < base) : accumulator ≤ n := by
  obtain ⟨digits, -, -, hvalue⟩ := h
  have hgrow := Nat.le_mul_of_pos_right accumulator (Nat.pow_pos (n := digits.length) hpos)
  omega

theorem isNumeral_iff {base n : ℕ} {str : List UInt64} :
    IsNumeral base str n ↔ str ≠ [] ∧ Continues base 0 str n := by
  constructor
  · rintro ⟨digits, hne, hmap, hall, hvalue⟩
    refine ⟨?_, digits, hmap, hall, by rwa [Nat.zero_mul, Nat.zero_add]⟩
    rintro rfl
    exact hne (List.map_eq_nil_iff.mp hmap.symm)
  · rintro ⟨hne, digits, hmap, hall, hvalue⟩
    rw [Nat.zero_mul, Nat.zero_add] at hvalue
    refine ⟨digits, ?_, hmap, hall, hvalue⟩
    rintro rfl
    exact hne (List.map_eq_nil_iff.mp hmap)

theorem parseLoop_eq_some_iff {base : UInt64} (hpos : 0 < base) (hbase : base ≤ 36)
    (str : List UInt64) (accumulator v : UInt64) :
    parseLoop base accumulator str = some v ↔
      Continues base.toNat accumulator.toNat str v.toNat := by
  induction str generalizing accumulator with
  | nil => rw [parseLoop, Option.some_inj, ← UInt64.toNat_inj, continues_nil]
  | cons ch rest ih =>
    by_cases hdigit : digitWeight ch < base
    · obtain ⟨d, hd, hlt⟩ := (digitWeight_lt_iff hbase ch).mp hdigit
      have hoverflows := overflows_iff accumulator hbase hdigit
      rw [toNat_digitWeight hd] at hoverflows
      rw [continues_cons hd hlt]
      by_cases hover : overflows accumulator base (digitWeight ch) = true
      · rw [parseLoop, if_pos (by simp [hover])]
        refine iff_of_false (by simp) fun h => ?_
        have hge := hoverflows.mp hover
        have hle := h.le (UInt64.lt_iff_toNat_lt.mp hpos)
        have hfits := v.toNat_lt
        omega
      · have hsum : (accumulator * base + digitWeight ch).toNat =
            accumulator.toNat * base.toNat + d := by
          rw [UInt64.toNat_add, UInt64.toNat_mul, Nat.mod_add_mod, toNat_digitWeight hd]
          exact Nat.mod_eq_of_lt (lt_of_not_ge (mt hoverflows.mpr hover))
        rw [parseLoop, if_neg (by simp [hover, UInt64.not_le.mpr hdigit]), ih, hsum]
    · rw [parseLoop, if_pos (by simp [UInt64.not_lt.mp hdigit])]
      exact iff_of_false (by simp) fun h => hdigit ((digitWeight_lt_iff hbase ch).mpr h.digit_head)

/-! ### Prefixes -/

theorem or_case_eq_iff (ch : UInt64) :
    (ch ||| 0x20 = 0x62 ↔ ch = 0x62 ∨ ch = 0x42) ∧ (ch ||| 0x20 = 0x78 ↔ ch = 0x78 ∨ ch = 0x58) := by
  have hsmall : ∀ n < 128, (UInt64.ofNat n ||| 0x20 = 0x62 ↔
      UInt64.ofNat n = 0x62 ∨ UInt64.ofNat n = 0x42) ∧ (UInt64.ofNat n ||| 0x20 = 0x78 ↔
        UInt64.ofNat n = 0x78 ∨ UInt64.ofNat n = 0x58) := by
    decide +kernel
  rcases Nat.lt_or_ge ch.toNat 128 with hlt | hge
  · have h := hsmall ch.toNat hlt
    rwa [UInt64.ofNat_toNat] at h
  · have hor : 128 ≤ (ch ||| 0x20).toNat := by
      rw [UInt64.toNat_or]
      exact hge.trans Nat.left_le_or
    have hne (c : UInt64) (hc : c.toNat < 128) : ch ≠ c ∧ ch ||| 0x20 ≠ c := by
      constructor <;> rintro rfl <;> omega
    simp [(hne 0x62 (by decide)), (hne 0x42 (by decide)), (hne 0x78 (by decide)),
      (hne 0x58 (by decide))]

theorem detectBase_eq (str : List UInt64) :
    ((detectBase str).1.toNat, (detectBase str).2) = numeralOf 0 str := by
  match str with
  | [] => rfl
  | [ch] => simp [detectBase, numeralOf]
  | zero :: next :: rest =>
    have hcase := or_case_eq_iff next
    by_cases hzero : zero = 0x30
    · subst hzero
      simp only [detectBase, if_true, hcase, numeralOf, List.cons_prefix_cons, List.nil_prefix,
        true_and, and_true, eq_comm (b := next), List.drop_succ_cons, List.drop_zero]
      split_ifs with hb hx
      · rfl
      · rfl
      · rfl
      · simp at *
    · simp [detectBase, numeralOf, hzero, Ne.symm hzero]

theorem detectBase_pos (str : List UInt64) : 0 < (detectBase str).1 := by
  unfold detectBase
  split
  · dsimp only
    split_ifs <;> exact UInt64.lt_iff_toNat_lt.mpr (by simp)
  · exact UInt64.lt_iff_toNat_lt.mpr (by simp)

/-! ### What is accepted -/

theorem parse_eq_some_iff {base : UInt64} (hpos : 0 < base) (ptr : List UInt64) (v : UInt64) :
    (if ptr.isEmpty || base > 36 then none else parseLoop base 0 ptr) = some v ↔
      base.toNat ≤ 36 ∧ IsNumeral base.toNat ptr v.toNat := by
  have hlimit : base.toNat ≤ 36 ↔ base ≤ 36 := by
    rw [UInt64.le_iff_toNat_le]
    rfl
  rw [isNumeral_iff, hlimit]
  by_cases hbase : base ≤ 36
  · cases ptr with
    | nil => simp
    | cons ch rest =>
      rw [if_neg (by simp [UInt64.not_lt.mpr hbase]), parseLoop_eq_some_iff hpos hbase]
      simp [hbase]
  · rw [if_pos (by simp [UInt64.not_le.mp hbase])]
    simp [hbase]

theorem parseU64_eq_some_iff (str : List UInt64) (base : Int32) (v : UInt64) :
    parseU64 str base = some v ↔
      (numeralOf base.toNatClampNeg str).1 ≤ 36 ∧
        IsNumeral (numeralOf base.toNatClampNeg str).1 (numeralOf base.toNatClampNeg str).2
          v.toNat := by
  by_cases hbase : base ≤ 0
  · rw [Int32.toNatClampNeg_eq_zero_iff.mpr hbase, ← detectBase_eq,
      ← parse_eq_some_iff (detectBase_pos str), parseU64, if_pos hbase]
  · have hpos : 0 < base := Int32.not_le.mp hbase
    have hnat : base.toInt64.toUInt64.toNat = base.toNatClampNeg := by
      rw [Int64.toNat_toUInt64_of_le, Int32.toNatClampNeg_toInt64]
      rw [Int64.le_iff_toInt_le, Int32.toInt_toInt64]
      exact Int32.le_iff_toInt_le.mp (Int32.le_of_lt hpos)
    have hne : base.toNatClampNeg ≠ 0 := mt Int32.toNatClampNeg_eq_zero_iff.mp hbase
    have hpos' : 0 < base.toInt64.toUInt64 := by
      rw [UInt64.lt_iff_toNat_lt, hnat]
      exact Nat.pos_of_ne_zero hne
    rw [numeralOf, if_neg hne, ← hnat, ← parse_eq_some_iff hpos', parseU64, if_neg hbase]

theorem Width.exists_half (w : Width) : ∃ half, 2 ^ (w.bits - 1) = half ∧ 2 ^ w.bits = 2 * half ∧
    1 ≤ half ∧ half ≤ 2 ^ 63 := by
  cases w <;> exact ⟨_, rfl, rfl, by decide, by decide⟩

theorem parseUnsigned_eq_some_iff (w : Width) (str : List UInt64) (base : Int32)
    (r : BitVec w.bits) :
    parseUnsigned w str base = some r ↔
      (numeralOf base.toNatClampNeg str).1 ≤ 36 ∧
        IsNumeral (numeralOf base.toNatClampNeg str).1 (numeralOf base.toNatClampNeg str).2
          r.toNat := by
  obtain ⟨half, -, hbits, hpos, hle⟩ := w.exists_half
  have hsize : UInt64.size = 2 ^ 64 := rfl
  have hr := r.isLt
  have hvalue : (UInt64.ofNat r.toNat).toNat = r.toNat := UInt64.toNat_ofNat_of_lt' (by omega)
  have hmax : (UInt64.ofNat (2 ^ w.bits - 1)).toNat = 2 ^ w.bits - 1 :=
    UInt64.toNat_ofNat_of_lt' (by omega)
  rw [← hvalue, ← parseU64_eq_some_iff, parseUnsigned]
  cases hparse : parseU64 str base with
  | none => simp
  | some opt =>
    dsimp only
    rw [Option.some_inj, ← UInt64.toNat_inj, hvalue]
    split_ifs with hgt
    · rw [gt_iff_lt, UInt64.lt_iff_toNat_lt, hmax] at hgt
      exact iff_of_false (by simp) (by omega)
    · rw [gt_iff_lt, UInt64.lt_iff_toNat_lt, hmax] at hgt
      rw [Option.some_inj, ← BitVec.toNat_inj, BitVec.toNat_setWidth, UInt64.toNat_toBitVec,
        Nat.mod_eq_of_lt (by omega)]

theorem toInt_narrow_signed (w : Width) (opt : UInt64) (sign : Bool) {half : ℕ}
    (hhalf : 2 ^ (w.bits - 1) = half) (hbits : 2 ^ w.bits = 2 * half)
    (hle : opt.toNat ≤ half - 1 + if sign then 1 else 0) (hpos : 1 ≤ half) :
    (if sign then -opt.toBitVec.setWidth w.bits else opt.toBitVec.setWidth w.bits).toInt =
      if sign then -(opt.toNat : ℤ) else opt.toNat := by
  have hwidth : 0 < w.bits := by cases w <;> decide
  have hcast : (2 : ℤ) ^ (w.bits - 1) = half := by exact_mod_cast hhalf
  have hnarrow : opt.toBitVec.setWidth w.bits = BitVec.ofInt w.bits opt.toNat := by
    rw [BitVec.ofInt_natCast, ← BitVec.toNat_inj, BitVec.toNat_setWidth, BitVec.toNat_ofNat]
    rfl
  cases sign with
  | false =>
    simp only [Bool.false_eq_true, if_false] at hle ⊢
    rw [hnarrow, BitVec.toInt_ofInt_eq_self hwidth] <;> rw [hcast] <;> omega
  | true =>
    simp only [if_true] at hle ⊢
    rw [hnarrow, ← BitVec.ofInt_neg, BitVec.toInt_ofInt_eq_self hwidth] <;> rw [hcast] <;> omega

theorem toNat_signedMax (w : Width) (sign : Bool) :
    (UInt64.ofNat (2 ^ (w.bits - 1) - 1) + if sign then 1 else 0).toNat =
      2 ^ (w.bits - 1) - 1 + if sign then 1 else 0 := by
  cases w <;> cases sign <;> rfl

theorem parseSigned_eq_some_iff_parseU64 (w : Width) (str : List UInt64) (base : Int32)
    (r : BitVec w.bits) :
    parseSigned w str base = some r ↔
      ∃ v, parseU64 (unsignedPart str) base = some v ∧ r.toInt = signedValue str v.toNat := by
  obtain ⟨half, hhalf, hbits, hpos, hle⟩ := w.exists_half
  have hcast : (2 : ℤ) ^ (w.bits - 1) = half := by exact_mod_cast hhalf
  have hlower := r.le_toInt
  have hupper := BitVec.toInt_lt (x := r)
  rw [hcast] at hlower hupper
  have hmax := toNat_signedMax w (hasSign str)
  rw [hhalf] at hmax
  rw [parseSigned, ← unsignedPart]
  cases hparse : parseU64 (unsignedPart str) base with
  | none => simp
  | some opt =>
    have hrange : opt > UInt64.ofNat (2 ^ (w.bits - 1) - 1) + (if hasSign str then 1 else 0) ↔
        half - 1 + (if hasSign str then 1 else 0) < opt.toNat := by
      rw [gt_iff_lt, UInt64.lt_iff_toNat_lt, hhalf, hmax]
    simp only [Option.some_inj, exists_eq_left']
    by_cases hgt : half - 1 + (if hasSign str then 1 else 0) < opt.toNat
    · rw [if_pos (hrange.mpr hgt)]
      refine iff_of_false (by simp) fun hvalue => ?_
      unfold signedValue at hvalue
      split_ifs at hvalue hgt <;> omega
    · rw [if_neg (mt hrange.mp hgt), Option.some_inj, ← BitVec.toInt_inj,
        toInt_narrow_signed w opt (hasSign str) hhalf hbits (by omega) hpos, signedValue, eq_comm]

theorem parseSigned_eq_some_iff (w : Width) (str : List UInt64) (base : Int32)
    (r : BitVec w.bits) :
    parseSigned w str base = some r ↔
      (numeralOf base.toNatClampNeg (unsignedPart str)).1 ≤ 36 ∧
        ∃ n, IsNumeral (numeralOf base.toNatClampNeg (unsignedPart str)).1
          (numeralOf base.toNatClampNeg (unsignedPart str)).2 n ∧ r.toInt = signedValue str n := by
  obtain ⟨half, hhalf, -, -, hle⟩ := w.exists_half
  have hcast : (2 : ℤ) ^ (w.bits - 1) = half := by exact_mod_cast hhalf
  have hlower := r.le_toInt
  have hupper := BitVec.toInt_lt (x := r)
  rw [hcast] at hlower hupper
  rw [parseSigned_eq_some_iff_parseU64]
  constructor
  · rintro ⟨v, hv, hvalue⟩
    obtain ⟨hbase, hn⟩ := (parseU64_eq_some_iff _ _ _).mp hv
    exact ⟨hbase, v.toNat, hn, hvalue⟩
  · rintro ⟨hbase, n, hn, hvalue⟩
    have hfits : n < 2 ^ 64 := by
      unfold signedValue at hvalue
      split_ifs at hvalue <;> omega
    have hcopy : (UInt64.ofNat n).toNat = n := UInt64.toNat_ofNat_of_lt' hfits
    refine ⟨UInt64.ofNat n, ?_, by rw [hcopy, hvalue]⟩
    rw [parseU64_eq_some_iff, hcopy]
    exact ⟨hbase, hn⟩

/-- The three functions accept the numerals whose value is in the range of their type. -/
theorem parse_accepts (str : List UInt64) (base : Int32) :
    (∀ v : UInt64, parseU64 str base = some v ↔
      (numeralOf base.toNatClampNeg str).1 ≤ 36 ∧
        IsNumeral (numeralOf base.toNatClampNeg str).1 (numeralOf base.toNatClampNeg str).2
          v.toNat) ∧
    (∀ (w : Width) (r : BitVec w.bits), parseUnsigned w str base = some r ↔
      (numeralOf base.toNatClampNeg str).1 ≤ 36 ∧
        IsNumeral (numeralOf base.toNatClampNeg str).1 (numeralOf base.toNatClampNeg str).2
          r.toNat) ∧
    (∀ (w : Width) (r : BitVec w.bits), parseSigned w str base = some r ↔
      (numeralOf base.toNatClampNeg (unsignedPart str)).1 ≤ 36 ∧
        ∃ n, IsNumeral (numeralOf base.toNatClampNeg (unsignedPart str)).1
          (numeralOf base.toNatClampNeg (unsignedPart str)).2 n ∧ r.toInt = signedValue str n) :=
  ⟨parseU64_eq_some_iff str base, fun w r => parseUnsigned_eq_some_iff w str base r,
    fun w r => parseSigned_eq_some_iff w str base r⟩

-- the smallest value of a type is one that its largest value does not bound
example : parseSigned .w8 [0x2D, 0x31, 0x32, 0x38] 0 = some (-128) := by decide +kernel

end IntelligentTerminal.Til
