import IntelligentTerminal.Data.SplitOn
import IntelligentTerminal.Vt.StateMachine

/-!
# The parameters of a control sequence

The parameters of a control sequence are separated by `;`, and the sub parameters of a parameter by
`:`. Sub parameters are stored in one array, with a range for each parameter. There are at most 32
parameters, with at most 6 sub parameters each; what goes beyond is ignored. A parameter beyond the
32nd is not stored, but `_ActionSubParam` does not ask for this, and its sub parameters are added to
those of the 32nd.

Source: `src/terminal/parser/stateMachine.cpp`, lines 502-604, 1220-1256, 1349-1435 and 2157-2168.
-/

namespace IntelligentTerminal.Vt

open Buffer (WChar)

/-! ### The grammar -/

/-- `L';'`. -/
def semicolon : WChar := 0x3B

/-- `L':'`. -/
def colon : WChar := 0x3A

/-- The number with the given decimal digits. -/
def decimal (digits : List WChar) : ℕ :=
  digits.foldl (fun value digit => value * 10 + (digit - 0x30).toNat) 0

/-- The value of digits: none if there are none, and not more than `MAX_PARAMETER_VALUE`. -/
def parameterValue (digits : List WChar) : VTParameter :=
  if digits = [] then none else some (min (decimal digits) maxParameterValue)

/-- A parameter, with its first 6 sub parameters. -/
def parseField (field : List WChar) : VTParameter × List VTParameter :=
  (parameterValue ((field.splitOn colon).headD []),
    ((field.splitOn colon).tail.take maxSubParameterCount).map parameterValue)

/-- The fields between the semicolons; the empty string has none. -/
def fields (string : List WChar) : List (List WChar) :=
  if string = [] then [] else string.splitOn semicolon

/-- The first 32 parameters of a string, each with its sub parameters. -/
def grammar (string : List WChar) : List (VTParameter × List VTParameter) :=
  ((fields string).take maxParameterCount).map parseField

def VTParameters.withSubParams (p : VTParameters) : List (VTParameter × List VTParameter) :=
  (List.range p.params.length).map fun index => (p.at_ index, p.subParamsFor index)

/-- The ranges begin where the one in front ends, and cover the array of sub parameters. -/
structure RangesContiguous (p : VTParameters) : Prop where
  length : p.subParamRanges.length = p.params.length
  first : ∀ range ∈ p.subParamRanges.head?, range.1 = 0
  contiguous : p.subParamRanges.IsChain fun range next => range.2 = next.1
  inBounds : ∀ range ∈ p.subParamRanges, range.1 ≤ range.2 ∧ range.2 ≤ p.subParams.length
  last : ∀ range ∈ p.subParamRanges.getLast?, range.2 = p.subParams.length

/-- The characters of parameters. -/
def isCsiParameter (wch : WChar) : Bool :=
  isNumericParamValue wch || isParameterDelimiter wch || isSubParameterDelimiter wch

/-- The final characters. -/
def isCsiFinal (wch : WChar) : Bool :=
  0x40 ≤ wch && !isDelete wch && !isC1ControlCharacter wch

/-! ### One more character of a field -/

theorem decimal_concat (digits : List WChar) (digit : WChar) :
    decimal (digits ++ [digit]) = decimal digits * 10 + (digit - 0x30).toNat := by
  rw [decimal, List.foldl_append]
  rfl

theorem parameterValue_concat (digits : List WChar) (digit : WChar) :
    parameterValue (digits ++ [digit]) =
      some (accumulateTo digit ((parameterValue digits).getD 0)) := by
  have hvalue : (parameterValue digits).getD 0 = min (decimal digits) maxParameterValue := by
    by_cases hdigits : digits = []
    · subst hdigits
      rfl
    · rw [parameterValue, if_neg hdigits, Option.getD_some]
  rw [parameterValue, if_neg (by simp), hvalue, decimal_concat, accumulateTo, maxParameterValue]
  congr 1
  omega

theorem length_parseField (field : List WChar) :
    (parseField field).2.length = min maxSubParameterCount (field.count colon) := by
  rw [parseField, List.length_map, List.length_take, List.length_tail, length_splitOn,
    Nat.add_sub_cancel]

theorem parseField_digit {field : List WChar} (h : colon ∉ field) {digit : WChar}
    (hdigit : digit ≠ colon) :
    parseField (field ++ [digit]) =
      (some (accumulateTo digit ((parseField field).1.getD 0)), (parseField field).2) := by
  have hgrown : colon ∉ field ++ [digit] := by simp [h, hdigit.symm]
  rw [parseField, parseField, List.splitOn_eq_singleton h, List.splitOn_eq_singleton hgrown]
  exact congrArg (·, []) (parameterValue_concat field digit)

theorem parseField_colon (field : List WChar) :
    parseField (field ++ [colon]) = ((parseField field).1,
      if field.count colon < maxSubParameterCount then (parseField field).2 ++ [none]
      else (parseField field).2) := by
  obtain ⟨first, rest, hsplit⟩ := List.exists_cons_of_ne_nil (List.splitOn_ne_nil colon field)
  have hlength := length_splitOn colon field
  rw [hsplit, List.length_cons, Nat.add_right_cancel_iff] at hlength
  rw [parseField, parseField, splitOn_concat_self, hsplit, ← hlength]
  simp only [List.cons_append, List.headD_cons, List.tail_cons]
  congr 1
  split_ifs with hlt
  · rw [List.take_append, List.take_of_length_le (Nat.le_of_lt hlt),
      List.take_of_length_le (Nat.sub_pos_of_lt hlt), List.map_append]
    rfl
  · rw [List.take_append_of_le_length (Nat.le_of_not_lt hlt)]

theorem parseField_subDigit {field : List WChar} (h : colon ∈ field) {digit : WChar}
    (hdigit : digit ≠ colon) :
    parseField (field ++ [digit]) = ((parseField field).1,
      if field.count colon ≤ maxSubParameterCount then
        (parseField field).2.modifyLast fun value => some (accumulateTo digit (value.getD 0))
      else (parseField field).2) := by
  obtain ⟨front, last, hsplit, -, hgrown⟩ := exists_splitOn_concat colon field
  have hlength := length_splitOn colon field
  have hcount := List.count_pos_iff.mpr h
  rw [hsplit, List.length_append, List.length_singleton, Nat.add_right_cancel_iff] at hlength
  rcases front with _ | ⟨first, rest⟩
  · rw [List.length_nil] at hlength
    omega
  rw [List.length_cons] at hlength
  rw [parseField, parseField, hgrown digit hdigit, hsplit, ← hlength]
  simp only [List.cons_append, List.headD_cons, List.tail_cons]
  congr 1
  split_ifs with hle
  · have hlt : rest.length < maxSubParameterCount := hle
    rw [List.take_of_length_le (by simpa using hle), List.take_of_length_le (by simpa using hle),
      List.map_append, List.map_append, List.map_singleton, List.map_singleton,
      List.modifyLast_concat, parameterValue_concat]
  · have hge : maxSubParameterCount ≤ rest.length := by omega
    rw [List.take_append_of_le_length hge, List.take_append_of_le_length hge]

/-! ### The arrays -/

/-- The ranges of sub parameters that follow each other from `start` on. -/
def rangesFrom : ℕ → List (VTParameter × List VTParameter) → List (ℕ × ℕ)
  | _, [] => []
  | start, field :: stored =>
    (start, start + field.2.length) :: rangesFrom (start + field.2.length) stored

/-- The length of the array of sub parameters. -/
def subLength (stored : List (VTParameter × List VTParameter)) : ℕ :=
  (stored.flatMap Prod.snd).length

/-- The three arrays of the state machine store parameters with their sub parameters. -/
structure Stores (parameters subParameters : List VTParameter) (ranges : List (UInt8 × UInt8))
    (stored : List (VTParameter × List VTParameter)) : Prop where
  parameters : parameters = stored.map Prod.fst
  subParameters : subParameters = stored.flatMap Prod.snd
  ranges : ranges = (rangesFrom 0 stored).map fun range => (range.1.toUInt8, range.2.toUInt8)
  length : stored.length ≤ maxParameterCount
  lengths : ∀ field ∈ stored, field.2.length ≤ maxSubParameterCount

theorem subLength_append (stored stored' : List (VTParameter × List VTParameter)) :
    subLength (stored ++ stored') = subLength stored + subLength stored' := by
  rw [subLength, List.flatMap_append, List.length_append]
  rfl

theorem subLength_cons (field : VTParameter × List VTParameter)
    (stored : List (VTParameter × List VTParameter)) :
    subLength (field :: stored) = field.2.length + subLength stored := by
  rw [subLength, List.flatMap_cons, List.length_append]
  rfl

theorem rangesFrom_append (start : ℕ) (stored stored' : List (VTParameter × List VTParameter)) :
    rangesFrom start (stored ++ stored') =
      rangesFrom start stored ++ rangesFrom (start + subLength stored) stored' := by
  induction stored generalizing start with
  | nil => rfl
  | cons first stored ih =>
    rw [List.cons_append, rangesFrom, ih, rangesFrom, List.cons_append, subLength_cons,
      Nat.add_assoc start]

theorem rangesFrom_concat (start : ℕ) (stored : List (VTParameter × List VTParameter))
    (field : VTParameter × List VTParameter) :
    rangesFrom start (stored ++ [field]) = rangesFrom start stored ++
      [(start + subLength stored, start + subLength stored + field.2.length)] :=
  rangesFrom_append start stored [field]

theorem length_rangesFrom (start : ℕ) (stored : List (VTParameter × List VTParameter)) :
    (rangesFrom start stored).length = stored.length := by
  induction stored generalizing start with
  | nil => rfl
  | cons first stored ih => rw [rangesFrom, List.length_cons, ih, List.length_cons]

theorem rangesFrom_bounds {start : ℕ} {stored : List (VTParameter × List VTParameter)}
    {range : ℕ × ℕ} (h : range ∈ rangesFrom start stored) :
    range.1 ≤ range.2 ∧ range.2 ≤ start + subLength stored := by
  induction stored generalizing start with
  | nil => cases h
  | cons first stored ih =>
    rw [subLength_cons]
    rcases List.mem_cons.mp h with rfl | h
    · dsimp only
      omega
    · have hrest := ih h
      omega

theorem isChain_rangesFrom (start : ℕ) (stored : List (VTParameter × List VTParameter)) :
    (rangesFrom start stored).IsChain fun range next => range.2 = next.1 := by
  induction stored generalizing start with
  | nil => exact .nil
  | cons first stored ih =>
    have hrest := ih (start + first.2.length)
    rcases stored with _ | ⟨second, stored⟩
    · exact .singleton _
    · exact .cons_cons rfl hrest

namespace Stores

variable {parameters subParameters : List VTParameter} {ranges : List (UInt8 × UInt8)}
  {stored : List (VTParameter × List VTParameter)} {value : VTParameter} {subs : List VTParameter}

theorem pushParameter (h : Stores parameters subParameters ranges stored)
    (hlength : stored.length < maxParameterCount) :
    Stores (parameters ++ [none]) subParameters
      (ranges ++ [(subParameters.length.toUInt8, subParameters.length.toUInt8)])
      (stored ++ [(none, [])]) where
  parameters := by rw [h.parameters, List.map_append]; rfl
  subParameters := by rw [h.subParameters, List.flatMap_append]; simp
  ranges := by
    rw [rangesFrom_concat, List.map_append, ← h.ranges, h.subParameters, Nat.zero_add]
    rfl
  length := by
    rw [List.length_append]
    exact hlength
  lengths field hfield := by
    rcases List.mem_append.mp hfield with hfield | hfield
    · exact h.lengths field hfield
    · rw [List.mem_singleton.mp hfield]
      exact Nat.zero_le _

theorem modifyParameter (h : Stores parameters subParameters ranges (stored ++ [(value, subs)]))
    (f : VTParameter → VTParameter) :
    Stores (parameters.modifyLast f) subParameters ranges (stored ++ [(f value, subs)]) where
  parameters := by
    rw [h.parameters, List.map_append, List.map_append, List.map_singleton,
      List.modifyLast_concat]
    rfl
  subParameters := by rw [h.subParameters]; simp
  ranges := by rw [h.ranges, rangesFrom_concat, rangesFrom_concat]
  length := by simpa using h.length
  lengths field hfield := by
    rcases List.mem_append.mp hfield with hfield | hfield
    · exact h.lengths field (List.mem_append_left _ hfield)
    · rw [List.mem_singleton.mp hfield]
      exact h.lengths (value, subs) (by simp)

theorem pushSubParameter (h : Stores parameters subParameters ranges (stored ++ [(value, subs)]))
    (hlength : subs.length < maxSubParameterCount) :
    Stores parameters (subParameters ++ [none])
      (ranges.modifyLast fun range => (range.1, range.2 + 1))
      (stored ++ [(value, subs ++ [none])]) where
  parameters := by rw [h.parameters]; simp
  subParameters := by rw [h.subParameters]; simp
  ranges := by
    rw [h.ranges, rangesFrom_concat, rangesFrom_concat, List.map_append, List.map_append,
      List.map_singleton, List.modifyLast_concat, List.length_append, ← Nat.add_assoc]
    simp
  length := by simpa using h.length
  lengths field hfield := by
    rcases List.mem_append.mp hfield with hfield | hfield
    · exact h.lengths field (List.mem_append_left _ hfield)
    · rw [List.mem_singleton.mp hfield, List.length_append]
      exact hlength

theorem modifySubParameter (h : Stores parameters subParameters ranges (stored ++ [(value, subs)]))
    (hsubs : subs ≠ []) (f : VTParameter → VTParameter) :
    Stores parameters (subParameters.modifyLast f) ranges
      (stored ++ [(value, subs.modifyLast f)]) := by
  obtain ⟨front, last, rfl⟩ : ∃ front last, subs = front ++ [last] :=
    ⟨_, _, (List.dropLast_concat_getLast hsubs).symm⟩
  rw [List.modifyLast_concat]
  exact {
    parameters := by rw [h.parameters]; simp
    subParameters := by
      rw [h.subParameters, List.flatMap_append, List.flatMap_singleton, ← List.append_assoc,
        List.modifyLast_concat]
      simp
    ranges := by
      rw [h.ranges, rangesFrom_concat, rangesFrom_concat, List.length_append, List.length_append]
      rfl
    length := by simpa using h.length
    lengths := by
      intro field hfield
      rcases List.mem_append.mp hfield with hfield | hfield
      · exact h.lengths field (List.mem_append_left _ hfield)
      · rw [List.mem_singleton.mp hfield]
        have hlast := h.lengths (value, front ++ [last]) (by simp)
        rw [List.length_append] at hlast ⊢
        exact hlast }

theorem subLength_le (h : Stores parameters subParameters ranges stored) :
    subLength stored ≤ 192 := by
  have hsum (fields : List (VTParameter × List VTParameter))
      (hfields : ∀ field ∈ fields, field.2.length ≤ maxSubParameterCount) :
      subLength fields ≤ fields.length * maxSubParameterCount := by
    induction fields with
    | nil => exact Nat.zero_le _
    | cons field fields ih =>
      have hfirst := hfields field List.mem_cons_self
      have hrest := ih fun field hfield => hfields field (List.mem_cons_of_mem _ hfield)
      rw [subLength_cons, List.length_cons, Nat.add_mul, Nat.one_mul]
      omega
  calc subLength stored ≤ stored.length * maxSubParameterCount := hsum stored h.lengths
    _ ≤ maxParameterCount * maxSubParameterCount := Nat.mul_le_mul_right _ h.length
    _ = 192 := rfl

end Stores

theorem Stores.vtParameters {p : VTParameters} {ranges : List (UInt8 × UInt8)}
    {stored : List (VTParameter × List VTParameter)}
    (h : Stores p.params p.subParams ranges stored)
    (hranges : p.subParamRanges = ranges.map fun range => (range.1.toNat, range.2.toNat)) :
    RangesContiguous p ∧ p.withSubParams = stored := by
  have hlength := h.subLength_le
  have hfrom : p.subParamRanges = rangesFrom 0 stored := by
    rw [hranges, h.ranges, List.map_map]
    refine (List.map_congr_left fun range hrange => ?_).trans (List.map_id _)
    have hbounds := rangesFrom_bounds hrange
    ext
    · exact Nat.mod_eq_of_lt (by omega)
    · exact Nat.mod_eq_of_lt (by omega)
  have hsub : p.subParams.length = subLength stored := by rw [h.subParameters, subLength]
  constructor
  · rw [← Nat.zero_add (subLength stored)] at hsub
    exact {
      length := by rw [hfrom, length_rangesFrom, h.parameters, List.length_map]
      first := by
        rw [hfrom]
        rcases stored with _ | ⟨first, stored⟩
        · rintro _ ⟨⟩
        · rintro _ ⟨⟩
          rfl
      contiguous := by
        rw [hfrom]
        exact isChain_rangesFrom 0 stored
      inBounds := by
        rw [hfrom, hsub]
        exact fun range => rangesFrom_bounds
      last := by
        rw [hfrom, hsub]
        rcases List.eq_nil_or_concat stored with rfl | ⟨front, field, rfl⟩
        · rintro _ ⟨⟩
        · rw [List.concat_eq_append, rangesFrom_concat, List.getLast?_concat, subLength_append]
          rintro _ ⟨⟩
          rw [subLength_cons, subLength, Nat.add_assoc]
          rfl }
  · refine List.ext_getElem ?_ fun index hindex hstored => ?_
    · rw [VTParameters.withSubParams, List.length_map, List.length_range, h.parameters,
        List.length_map]
    · obtain ⟨front, back, hsplit, hfront⟩ : ∃ front back,
          stored = front ++ stored[index] :: back ∧ front.length = index :=
        ⟨stored.take index, stored.drop (index + 1),
          by rw [List.getElem_cons_drop, List.take_append_drop],
          by rw [List.length_take]; omega⟩
      obtain ⟨field, hfield⟩ : ∃ field, field = stored[index] := ⟨_, rfl⟩
      rw [← hfield] at hsplit ⊢
      have hparam : p.at_ index = field.1 := by
        rw [VTParameters.at_, h.parameters, hsplit, ← hfront]
        simp
      have hrange : p.subParamRanges[index]? =
          some (subLength front, subLength front + field.2.length) := by
        rw [hfrom, hsplit, rangesFrom_append, ← hfront, ← length_rangesFrom 0 front]
        simp [rangesFrom]
      have hsubs : p.subParamsFor index = field.2 := by
        rw [VTParameters.subParamsFor, hrange, h.subParameters, hsplit]
        simp [subLength]
      simp only [VTParameters.withSubParams, List.getElem_map, List.getElem_range, hparam, hsubs]

/-! ### The fields that are stored -/

/-- What has been read of a string: the number of fields, and the fields that are stored. The
current one is the 32nd if there are more, to which the sub parameters of all later fields are
added. -/
structure Progress where
  count : ℕ := 1
  done : List (List WChar) := []
  current : List WChar := []
  inSub : Bool := false

namespace Progress

/-- One more character. -/
def step (a : Progress) (wch : WChar) : Progress :=
  if wch = semicolon then
    if a.count < maxParameterCount then
      { count := a.count + 1, done := a.done ++ [a.current] }
    else { a with count := a.count + 1, inSub := false }
  else if wch = colon then { a with current := a.current ++ [colon], inSub := true }
  else if a.count ≤ maxParameterCount ∨ a.inSub then { a with current := a.current ++ [wch] }
  else a

/-- What has been stored. -/
def stored (a : Progress) : List (VTParameter × List VTParameter) :=
  a.done.map parseField ++ [parseField a.current]

/-- How the fields are counted, and when the current one has sub parameters. -/
structure Consistent (a : Progress) : Prop where
  done : a.done.length + 1 = min a.count maxParameterCount
  colon_mem : a.inSub → colon ∈ a.current
  colon_notMem : a.count ≤ maxParameterCount → a.inSub = false → colon ∉ a.current

theorem Consistent.step {a : Progress} (h : a.Consistent) (wch : WChar) :
    (a.step wch).Consistent := by
  obtain ⟨hdone, hmem, hnotMem⟩ := h
  rw [Progress.step]
  split_ifs with hsemicolon hcount hcolon hstored
  · refine ⟨?_, by simp, by simp⟩
    rw [List.length_append, List.length_singleton]
    dsimp only
    omega
  · exact ⟨by dsimp only; omega, by simp, fun hle => by dsimp only at hle; omega⟩
  · exact ⟨hdone, fun _ => by simp, by simp⟩
  · refine ⟨hdone, fun hsub => List.mem_append_left _ (hmem hsub), fun hle hsub => ?_⟩
    simp only [List.mem_append, List.mem_singleton, not_or]
    exact ⟨hnotMem hle hsub, fun heq => hcolon heq.symm⟩
  · exact ⟨hdone, hmem, hnotMem⟩

end Progress

/-! ### The fields of a string -/

/-- What has been stored of a string, in terms of its fields. -/
structure Reads (string : List WChar) (a : Progress) : Prop where
  count : a.count = (string.splitOn semicolon).length
  inSub : a.inSub = true ↔ colon ∈ (string.splitOn semicolon).getLastD []
  few : a.count ≤ maxParameterCount → a.done ++ [a.current] = string.splitOn semicolon
  many : maxParameterCount < a.count → ∃ extra,
    a.done = (string.splitOn semicolon).take (maxParameterCount - 1) ∧
    a.current = (string.splitOn semicolon).getD (maxParameterCount - 1) [] ++ extra ∧
    (extra = [] ∨ ∃ rest, extra = colon :: rest) ∧
    extra.count colon =
      ((string.splitOn semicolon).drop maxParameterCount).flatten.count colon

variable {string : List WChar} {a : Progress}

theorem Reads.concat_semicolon (h : Reads string a)
    (ha : a.Consistent) : Reads (string ++ [semicolon]) (a.step semicolon) := by
  obtain ⟨hcount, -, hfew, hmany⟩ := h
  obtain ⟨fields, hfields⟩ : ∃ fields, fields = string.splitOn semicolon := ⟨_, rfl⟩
  rw [← hfields] at hcount hfew hmany
  have hsplit : (string ++ [semicolon]).splitOn semicolon = fields ++ [[]] := by
    rw [splitOn_concat_self, hfields]
  have hdone := ha.done
  rw [Progress.step, if_pos rfl]
  split_ifs with hlt
  · refine ⟨?_, ?_, fun _ => ?_, fun hgt => ?_⟩
    · rw [hsplit, List.length_append, ← hcount]
      rfl
    · rw [hsplit, List.getLastD_concat]
      simp
    · rw [hsplit, ← hfew (by omega)]
    · dsimp only at hgt
      omega
  · have hlength : maxParameterCount ≤ fields.length := by omega
    refine ⟨?_, ?_, fun hle => ?_, fun _ => ?_⟩
    · rw [hsplit, List.length_append, ← hcount]
      rfl
    · rw [hsplit, List.getLastD_concat]
      simp
    · dsimp only at hle
      omega
    · have htake : (fields ++ [[]]).take (maxParameterCount - 1) =
          fields.take (maxParameterCount - 1) :=
        List.take_append_of_le_length (by omega)
      have hget : (fields ++ [[]]).getD (maxParameterCount - 1) [] =
          fields.getD (maxParameterCount - 1) [] := by
        rw [List.getD_append]
        rw [maxParameterCount] at hlength ⊢
        omega
      have hdrop : ((fields ++ [[]]).drop maxParameterCount).flatten =
          (fields.drop maxParameterCount).flatten := by
        rw [List.drop_append_of_le_length hlength, List.flatten_concat, List.append_nil]
      rw [hsplit, htake, hget, hdrop]
      rcases Nat.lt_or_ge maxParameterCount a.count with hgt | hle
      · exact hmany hgt
      · -- The 32 fields so far are all stored.
        have heq := hfew hle
        have hlast : fields.length = maxParameterCount := by omega
        have hfront : a.done.length = maxParameterCount - 1 := by omega
        refine ⟨[], ?_, ?_, .inl rfl, ?_⟩
        · rw [← heq]
          exact (List.take_left' hfront).symm
        · rw [← heq, List.append_nil, List.getD_append_right _ _ _ _ (Nat.le_of_eq hfront),
            hfront, Nat.sub_self]
          rfl
        · rw [List.drop_of_length_le (Nat.le_of_eq hlast)]
          rfl

theorem Reads.concat_other (h : Reads string a) {wch : WChar}
    (hwch : wch ≠ semicolon) : Reads (string ++ [wch]) (a.step wch) := by
  obtain ⟨front, last, hsplit, -, hgrown⟩ := exists_splitOn_concat semicolon string
  replace hgrown := hgrown wch hwch
  obtain ⟨hcount, hinSub, hfew, hmany⟩ := h
  rw [hsplit] at hcount hinSub hfew hmany
  rw [List.getLastD_concat] at hinSub
  rw [List.length_append, List.length_singleton] at hcount
  -- Beyond the 32nd field only the last of the ignored fields grows.
  have hfar (x : List WChar) (hgt : maxParameterCount < a.count) :
      (front ++ [x]).take (maxParameterCount - 1) = front.take (maxParameterCount - 1) ∧
      (front ++ [x]).getD (maxParameterCount - 1) [] = front.getD (maxParameterCount - 1) [] ∧
      ((front ++ [x]).drop maxParameterCount).flatten =
        (front.drop maxParameterCount).flatten ++ x := by
    have hlength : maxParameterCount ≤ front.length := by omega
    refine ⟨List.take_append_of_le_length (by omega), List.getD_append _ _ _ _ ?_, ?_⟩
    · rw [maxParameterCount] at hlength ⊢
      omega
    · rw [List.drop_append_of_le_length hlength, List.flatten_concat]
  replace hmany (hgt : maxParameterCount < a.count) : ∃ extra,
      a.done = front.take (maxParameterCount - 1) ∧
      a.current = front.getD (maxParameterCount - 1) [] ++ extra ∧
      (extra = [] ∨ ∃ rest, extra = colon :: rest) ∧
      extra.count colon =
        (front.drop maxParameterCount).flatten.count colon + last.count colon := by
    obtain ⟨htake, hget, hdrop⟩ := hfar last hgt
    rw [← List.count_append, ← hdrop, ← htake, ← hget]
    exact hmany hgt
  have hnear (hle : a.count ≤ maxParameterCount) : a.done = front ∧ a.current = last := by
    obtain ⟨hdone, hcurrent⟩ := List.append_inj' (hfew hle) rfl
    exact ⟨hdone, List.singleton_inj.mp hcurrent⟩
  have hcount' : a.count = ((string ++ [wch]).splitOn semicolon).length := by
    rw [hgrown, List.length_append, List.length_singleton, hcount]
  rw [Progress.step, if_neg hwch]
  split_ifs with hcolon hstored
  · subst hcolon
    refine ⟨hcount', ?_, fun hle => ?_, fun hgt => ?_⟩
    · rw [hgrown, List.getLastD_concat]
      simp
    · obtain ⟨hdone, hcurrent⟩ := hnear hle
      rw [hgrown, ← hdone, ← hcurrent]
    · obtain ⟨extra, hdone, hcurrent, hextra, hcolons⟩ := hmany hgt
      obtain ⟨htake, hget, hdrop⟩ := hfar (last ++ [colon]) hgt
      rw [hgrown, htake, hget, hdrop]
      refine ⟨extra ++ [colon], hdone, by rw [hcurrent, List.append_assoc], .inr ?_, ?_⟩
      · rcases hextra with rfl | ⟨rest, rfl⟩
        · exact ⟨[], rfl⟩
        · exact ⟨rest ++ [colon], rfl⟩
      · simp only [List.count_append]
        omega
  · refine ⟨hcount', ?_, fun hle => ?_, fun hgt => ?_⟩
    · rw [hgrown, List.getLastD_concat, hinSub]
      simp [Ne.symm hcolon]
    · obtain ⟨hdone, hcurrent⟩ := hnear hle
      rw [hgrown, ← hdone, ← hcurrent]
    · obtain ⟨extra, hdone, hcurrent, hextra, hcolons⟩ := hmany hgt
      obtain ⟨htake, hget, hdrop⟩ := hfar (last ++ [wch]) hgt
      rw [hgrown, htake, hget, hdrop]
      refine ⟨extra ++ [wch], hdone, by rw [hcurrent, List.append_assoc], .inr ?_, ?_⟩
      · rcases hextra with rfl | ⟨rest, rfl⟩
        · -- The digit belongs to a sub parameter, which has been stored.
          have hmem := hinSub.mp (hstored.resolve_left (Nat.not_le_of_lt hgt))
          have hpos := List.count_pos_iff.mpr hmem
          rw [List.count_nil] at hcolons
          omega
        · exact ⟨rest ++ [wch], rfl⟩
      · simp only [List.count_append]
        omega
  · rw [not_or] at hstored
    refine ⟨hcount', ?_, fun hle => absurd hle hstored.1, fun hgt => ?_⟩
    · rw [hgrown, List.getLastD_concat, hinSub]
      simp [Ne.symm hcolon]
    · obtain ⟨extra, hdone, hcurrent, hextra, hcolons⟩ := hmany hgt
      obtain ⟨htake, hget, hdrop⟩ := hfar (last ++ [wch]) hgt
      have hdigit : [wch].count colon = 0 := by simp [hcolon]
      rw [hgrown, htake, hget, hdrop]
      refine ⟨extra, hdone, hcurrent, hextra, ?_⟩
      simp only [List.count_append]
      omega

theorem reads_foldl (string : List WChar) :
    Reads string (string.foldl Progress.step {}) ∧
      (string.foldl Progress.step {}).Consistent := by
  induction string using List.reverseRecOn with
  | nil =>
    exact ⟨⟨rfl, by simp [List.splitOn_nil], fun _ => rfl, fun h => absurd h (by decide)⟩,
      ⟨rfl, by simp, by simp⟩⟩
  | append_singleton string wch ih =>
    obtain ⟨hreads, hconsistent⟩ := ih
    rw [List.foldl_append]
    refine ⟨?_, hconsistent.step wch⟩
    by_cases hwch : wch = semicolon
    · subst hwch
      exact hreads.concat_semicolon hconsistent
    · exact hreads.concat_other hwch

/-! ### The state machine -/

namespace StateMachine

section Collect

variable {σ κ : Type} {e : IStateMachineEngine σ κ}
  {callback : κ → StateMachine σ κ → Option (StateMachine σ κ)} {m : StateMachine σ κ}
  {a : Progress} {wch : WChar}

/-- The state machine has collected what has been read of a string. Without any character it has no
parameter yet, and the first action adds one. -/
structure Collected (m : StateMachine σ κ) (a : Progress) : Prop where
  stores : Stores m.pushFirstParameter.parameters m.pushFirstParameter.subParameters
    m.pushFirstParameter.subParameterRanges a.stored
  overflowed : m.parameterLimitOverflowed = decide (maxParameterCount < a.count)
  counter : m.subParameterCounter.toNat = min maxSubParameterCount (a.current.count colon)
  subOverflowed : m.subParameterLimitOverflowed =
    decide (maxSubParameterCount < a.current.count colon)
  state : if a.inSub then m.state = .csiSubParam else m.state = .csiEntry ∨ m.state = .csiParam
  begun : m.parameters = [] → a = {}

theorem Collected.length (h : m.Collected a) (ha : a.Consistent) :
    m.pushFirstParameter.parameters.length = min a.count maxParameterCount := by
  rw [h.stores.parameters, Progress.stored, List.length_map, List.length_append, List.length_map,
    List.length_singleton, ha.done]

theorem Collected.of_ne (hne : m.parameters ≠ [])
    (stores : Stores m.parameters m.subParameters m.subParameterRanges a.stored)
    (overflowed : m.parameterLimitOverflowed = decide (maxParameterCount < a.count))
    (counter : m.subParameterCounter.toNat = min maxSubParameterCount (a.current.count colon))
    (subOverflowed : m.subParameterLimitOverflowed =
      decide (maxSubParameterCount < a.current.count colon))
    (state : if a.inSub then m.state = .csiSubParam
      else m.state = .csiEntry ∨ m.state = .csiParam) :
    m.Collected a :=
  ⟨by rwa [pushFirstParameter_of_ne m hne], overflowed, counter, subOverflowed, state,
    fun hempty => absurd hempty hne⟩

theorem Collected.actionParam_semicolon (h : m.Collected a) (ha : a.Consistent) :
    ((m.actionParam semicolon).enter .csiParam).Collected (a.step semicolon) := by
  have hlength := h.length ha
  have hne := m.pushFirstParameter_ne
  obtain ⟨hstores, hover, hcounter, hsubOver, -, hbegun⟩ := h
  by_cases hcount : maxParameterCount < a.count
  · -- The field is ignored, and only the state changes.
    have hstep : a.step semicolon = { a with count := a.count + 1, inSub := false } := by
      rw [Progress.step, if_pos rfl, if_neg (by omega)]
    have hparam : m.actionParam semicolon = m := by
      rw [actionParam, if_pos (by rw [hover]; exact decide_eq_true hcount)]
    rw [hparam, hstep]
    refine ⟨?_, ?_, hcounter, hsubOver, .inr rfl, fun hempty => ?_⟩
    · rw [pushFirstParameter_enter]
      exact hstores
    · exact hover.trans (by simp only [decide_eq_decide]; omega)
    · rw [hbegun hempty] at hcount
      exact absurd hcount (by decide)
  have hfalse : ¬ m.parameterLimitOverflowed = true := by
    rw [hover]
    simpa using hcount
  have hdelimiter : isParameterDelimiter semicolon = true := rfl
  obtain ⟨parameters, ranges, hpush⟩ := m.exists_pushFirstParameter
  rw [hpush] at hstores hlength hne
  dsimp only at hstores hlength hne
  rw [actionParam, if_neg hfalse, hpush]
  simp only [hdelimiter, if_true]
  by_cases hfull : parameters.length ≥ maxParameterCount
  · -- There have been 32 fields, and the next one is ignored.
    have hstep : a.step semicolon = { a with count := a.count + 1, inSub := false } := by
      rw [Progress.step, if_pos rfl, if_neg (by omega)]
    rw [if_pos hfull, hstep]
    exact .of_ne hne hstores (by simp only [enter, true_eq_decide_iff]; omega) hcounter hsubOver
      (.inr rfl)
  · have hstep : a.step semicolon =
        { count := a.count + 1, done := a.done ++ [a.current] } := by
      rw [Progress.step, if_pos rfl, if_pos (by omega)]
    rw [if_neg hfull, hstep]
    have hstored : Progress.stored { count := a.count + 1, done := a.done ++ [a.current] } =
        a.stored ++ [(none, [])] := by
      rw [Progress.stored, List.map_append]
      rfl
    have hroom : a.stored.length < maxParameterCount := by
      rw [hstores.parameters, List.length_map] at hfull
      omega
    refine .of_ne (by simp [enter]) ?_ ?_ rfl rfl (.inr rfl)
    · rw [hstored]
      exact hstores.pushParameter hroom
    · exact hover.trans (by simp only [decide_eq_decide]; omega)

theorem Collected.actionSubParam_colon (h : m.Collected a) :
    ((m.actionSubParam colon).enter .csiSubParam).Collected (a.step colon) := by
  have hne := m.pushFirstParameter_ne
  obtain ⟨hstores, hover, hcounter, hsubOver, -, hbegun⟩ := h
  have hstep : a.step colon = { a with current := a.current ++ [colon], inSub := true } := by
    rw [Progress.step, if_neg (by decide), if_pos rfl]
  have hcount : (a.current ++ [colon]).count colon = a.current.count colon + 1 := by simp
  have hfield := parseField_colon a.current
  have hlength := length_parseField a.current
  rw [hstep]
  have hstored : Progress.stored { a with current := a.current ++ [colon], inSub := true } =
      a.done.map parseField ++ [parseField (a.current ++ [colon])] := rfl
  by_cases hmany : maxSubParameterCount < a.current.count colon
  · -- The sub parameter is ignored, and only the state changes.
    have hparam : m.actionSubParam colon = m := by
      rw [actionSubParam, if_pos (by rw [hsubOver]; exact decide_eq_true hmany)]
    rw [if_neg (by omega)] at hfield
    rw [hparam]
    refine ⟨?_, hover, ?_, ?_, rfl, fun hempty => ?_⟩
    · rw [pushFirstParameter_enter, hstored, hfield]
      exact hstores
    · rw [hcount]
      exact hcounter.trans (by omega)
    · rw [hcount]
      exact hsubOver.trans (by simp only [decide_eq_decide]; omega)
    · rw [hbegun hempty] at hmany
      exact absurd hmany (by decide)
  have hfalse : ¬ m.subParameterLimitOverflowed = true := by
    rw [hsubOver]
    simpa using hmany
  have hdelimiter : isSubParameterDelimiter colon = true := rfl
  obtain ⟨parameters, ranges, hpush⟩ := m.exists_pushFirstParameter
  rw [hpush] at hstores hne
  dsimp only at hstores hne
  rw [actionSubParam, if_neg hfalse, hpush]
  simp only [hdelimiter, if_true]
  by_cases hfull : m.subParameterCounter.toNat ≥ maxSubParameterCount
  · -- There have been 6 sub parameters, and the next one is ignored.
    rw [if_neg (by omega)] at hfield
    rw [if_pos hfull]
    refine .of_ne hne ?_ hover ?_ ?_ rfl
    · rw [hstored, hfield]
      exact hstores
    · rw [hcount]
      exact hcounter.trans (by omega)
    · rw [hcount]
      simp only [enter, true_eq_decide_iff]
      omega
  · have hroom : a.current.count colon < maxSubParameterCount := by omega
    rw [if_pos hroom] at hfield
    rw [if_neg hfull]
    refine .of_ne hne ?_ hover ?_ ?_ rfl
    · rw [hstored, hfield]
      exact hstores.pushSubParameter (hlength.trans_lt (by omega))
    · have hsucc : (m.subParameterCounter + 1).toNat = m.subParameterCounter.toNat + 1 := by
        have hsix : maxSubParameterCount = 6 := rfl
        rw [UInt8.toNat_add]
        change (m.subParameterCounter.toNat + 1) % 2 ^ 8 = _
        omega
      rw [hcount]
      exact hsucc.trans (by omega)
    · rw [hcount]
      exact hsubOver.trans (by simp only [decide_eq_decide]; omega)

theorem ne_of_isNumericParamValue (h : isNumericParamValue wch) :
    wch ≠ colon ∧ wch ≠ semicolon := by
  constructor <;> rintro rfl <;> cases h

theorem Collected.actionParam_digit (h : m.Collected a) (ha : a.Consistent)
    (hsub : a.inSub = false) (hdigit : isNumericParamValue wch) :
    ((m.actionParam wch).enter .csiParam).Collected (a.step wch) := by
  obtain ⟨hcolon, hsemicolon⟩ := ne_of_isNumericParamValue hdigit
  have hne := m.pushFirstParameter_ne
  obtain ⟨hstores, hover, hcounter, hsubOver, -, hbegun⟩ := h
  by_cases hmany : maxParameterCount < a.count
  · -- The field is ignored, and only the state changes.
    have hstep : a.step wch = a := by
      rw [Progress.step, if_neg hsemicolon, if_neg hcolon, if_neg (by simp [hsub, hmany])]
    have hparam : m.actionParam wch = m := by
      rw [actionParam, if_pos (by rw [hover]; exact decide_eq_true hmany)]
    rw [hparam, hstep]
    refine ⟨?_, hover, hcounter, hsubOver, ?_, fun hempty => ?_⟩
    · rw [pushFirstParameter_enter]
      exact hstores
    · rw [hsub]
      exact .inr rfl
    · rw [hbegun hempty] at hmany
      exact absurd hmany (by decide)
  have hstep : a.step wch = { a with current := a.current ++ [wch] } := by
    rw [Progress.step, if_neg hsemicolon, if_neg hcolon, if_pos (.inl (by omega))]
  have hfield := parseField_digit (ha.colon_notMem (by omega) hsub) hcolon
  have hcount : (a.current ++ [wch]).count colon = a.current.count colon := by simp [hcolon]
  have hfalse : ¬ m.parameterLimitOverflowed = true := by
    rw [hover]
    simpa using hmany
  have hdelimiter : isParameterDelimiter wch = false := by
    simpa [isParameterDelimiter, semicolon] using hsemicolon
  obtain ⟨parameters, ranges, hpush⟩ := m.exists_pushFirstParameter
  rw [hpush] at hstores hne
  dsimp only at hstores hne
  rw [actionParam, if_neg hfalse, hpush, hstep]
  simp only [hdelimiter, Bool.false_eq_true, if_false]
  have hstored : Progress.stored { a with current := a.current ++ [wch] } =
      a.done.map parseField ++ [parseField (a.current ++ [wch])] := rfl
  have hmodified := hstores.modifyParameter fun value => some (accumulateTo wch (value.getD 0))
  refine .of_ne ?_ ?_ hover ?_ ?_ ?_
  · intro hempty
    have hparameters := hmodified.parameters.symm.trans hempty
    simp at hparameters
  · rw [hstored, hfield]
    exact hmodified
  · rw [hcount]
    exact hcounter
  · rw [hcount]
    exact hsubOver
  · dsimp only
    rw [hsub]
    exact .inr rfl

theorem Collected.actionSubParam_digit (h : m.Collected a) (ha : a.Consistent)
    (hsub : a.inSub = true) (hdigit : isNumericParamValue wch) :
    (m.actionSubParam wch).Collected (a.step wch) := by
  obtain ⟨hcolon, hsemicolon⟩ := ne_of_isNumericParamValue hdigit
  have hne := m.pushFirstParameter_ne
  obtain ⟨hstores, hover, hcounter, hsubOver, hstate, hbegun⟩ := h
  have hstep : a.step wch = { a with current := a.current ++ [wch] } := by
    rw [Progress.step, if_neg hsemicolon, if_neg hcolon, if_pos (.inr hsub)]
  have hmem := ha.colon_mem hsub
  have hfield := parseField_subDigit hmem hcolon
  have hcount : (a.current ++ [wch]).count colon = a.current.count colon := by simp [hcolon]
  have hstored : Progress.stored { a with current := a.current ++ [wch] } =
      a.done.map parseField ++ [parseField (a.current ++ [wch])] := rfl
  rw [hstep]
  by_cases hmany : maxSubParameterCount < a.current.count colon
  · -- The sub parameter is ignored.
    have hparam : m.actionSubParam wch = m := by
      rw [actionSubParam, if_pos (by rw [hsubOver]; exact decide_eq_true hmany)]
    rw [if_neg (by omega)] at hfield
    rw [hparam]
    refine ⟨?_, hover, ?_, ?_, hstate, fun hempty => ?_⟩
    · rw [hstored, hfield]
      exact hstores
    · rw [hcount]
      exact hcounter
    · rw [hcount]
      exact hsubOver
    · rw [hbegun hempty] at hmany
      exact absurd hmany (by decide)
  have hfalse : ¬ m.subParameterLimitOverflowed = true := by
    rw [hsubOver]
    simpa using hmany
  have hdelimiter : isSubParameterDelimiter wch = false := by
    simpa [isSubParameterDelimiter, colon] using hcolon
  obtain ⟨parameters, ranges, hpush⟩ := m.exists_pushFirstParameter
  rw [hpush] at hstores hne
  dsimp only at hstores hne
  rw [actionSubParam, if_neg hfalse, hpush]
  simp only [hdelimiter, Bool.false_eq_true, if_false]
  rw [if_pos (by omega)] at hfield
  have hsubs : (parseField a.current).2 ≠ [] := by
    have hlength := length_parseField a.current
    have hpos := List.count_pos_iff.mpr hmem
    rw [← List.length_pos_iff_ne_nil, hlength, maxSubParameterCount]
    omega
  refine .of_ne hne ?_ hover ?_ ?_ hstate
  · rw [hstored, hfield]
    exact hstores.modifySubParameter hsubs _
  · rw [hcount]
    exact hcounter
  · rw [hcount]
    exact hsubOver

theorem state_actionParam (m : StateMachine σ κ) (wch : WChar) :
    (m.actionParam wch).state = m.state := by
  rw [← show (m.enter m.state).actionParam wch = m.actionParam wch from rfl, actionParam_enter]
  rfl

theorem state_actionSubParam (m : StateMachine σ κ) (wch : WChar) :
    (m.actionSubParam wch).state = m.state := by
  rw [← show (m.enter m.state).actionSubParam wch = m.actionSubParam wch from rfl,
    actionSubParam_enter]
  rfl

theorem enter_of_state {state : VTStates} (h : m.state = state) : m.enter state = m := by
  rw [← h]
  rfl

theorem eq_semicolon (h : isParameterDelimiter wch) : wch = semicolon := eq_of_beq h

theorem eq_colon (h : isSubParameterDelimiter wch) : wch = colon := eq_of_beq h

theorem notControl_of_csiParameter (h : isCsiParameter wch) :
    isC0Code wch = false ∧ isDelete wch = false ∧ isIntermediate wch = false := by
  refine ⟨?_, ?_, ?_⟩ <;> grind [isCsiParameter, isNumericParamValue, isParameterDelimiter,
    isSubParameterDelimiter, isC0Code, isDelete, isIntermediate]

theorem IsPlain.of_csiParameter (h : isCsiParameter wch) : IsPlain wch := by
  constructor <;> grind [isCsiParameter, isNumericParamValue, isParameterDelimiter,
    isSubParameterDelimiter, isC1ControlCharacter, isFromAnywhereChar, isEscape, esc, can, sub]

theorem event_param (hm : m.state = .csiEntry ∨ m.state = .csiParam) (hwch : isCsiParameter wch)
    (h : isNumericParamValue wch = true ∨ isParameterDelimiter wch = true) :
    m.event e callback wch = some ((m.actionParam wch).enter .csiParam) := by
  obtain ⟨hc0, hdelete, hinter⟩ := notControl_of_csiParameter hwch
  rcases hm with hm | hm
  · simp [event, hm, eventCsiEntry, hc0, hdelete, hinter, h]
  · rw [enter_of_state ((state_actionParam m wch).trans hm)]
    simp [event, hm, eventCsiParam, hc0, hdelete, h]

theorem event_colon (hm : m.state = .csiEntry ∨ m.state = .csiParam) :
    m.event e callback colon = some ((m.actionSubParam colon).enter .csiSubParam) := by
  rcases hm with hm | hm <;>
    simp [event, hm, eventCsiEntry, eventCsiParam, colon, isC0Code, isDelete, isIntermediate,
      isNumericParamValue, isSubParameterDelimiter, isParameterDelimiter]

theorem event_subParam (hm : m.state = .csiSubParam) (hwch : isCsiParameter wch)
    (h : isNumericParamValue wch = true ∨ isSubParameterDelimiter wch = true) :
    m.event e callback wch = some ((m.actionSubParam wch).enter .csiSubParam) := by
  obtain ⟨hc0, hdelete, -⟩ := notControl_of_csiParameter hwch
  rw [enter_of_state ((state_actionSubParam m wch).trans hm)]
  simp [event, hm, eventCsiSubParam, hc0, hdelete, h]

theorem event_semicolon (hm : m.state = .csiSubParam) :
    m.event e callback semicolon = some ((m.actionParam semicolon).enter .csiParam) := by
  simp [event, hm, eventCsiSubParam, semicolon, isC0Code, isDelete, isNumericParamValue,
    isSubParameterDelimiter, isParameterDelimiter]

theorem Collected.processCharacter (e : IStateMachineEngine σ κ)
    (callback : κ → StateMachine σ κ → Option (StateMachine σ κ)) (h : m.Collected a)
    (ha : a.Consistent) (hwch : isCsiParameter wch) :
    ∃ m', m.processCharacter e callback wch = some m' ∧ m'.Collected (a.step wch) ∧
      m'.host = m.host ∧ m'.identifier = m.identifier := by
  rw [processCharacter_of_isPlain (.of_csiParameter hwch)]
  have hkind := hwch
  simp only [isCsiParameter, Bool.or_eq_true] at hkind
  have hstate := h.state
  have hparam := And.intro (m.actionParam_host wch) (m.actionParam_identifier wch)
  have hsubParam := And.intro (m.actionSubParam_host wch) (m.actionSubParam_identifier wch)
  by_cases hsub : a.inSub = true
  · rw [if_pos hsub] at hstate
    rcases hkind with (hdigit | hsemicolon) | hcolon
    · refine ⟨_, event_subParam hstate hwch (.inl hdigit), ?_, hsubParam⟩
      rw [enter_of_state ((state_actionSubParam m wch).trans hstate)]
      exact h.actionSubParam_digit ha hsub hdigit
    · obtain rfl := eq_semicolon hsemicolon
      exact ⟨_, event_semicolon hstate, h.actionParam_semicolon ha, hparam⟩
    · obtain rfl := eq_colon hcolon
      exact ⟨_, event_subParam hstate hwch (.inr hcolon), h.actionSubParam_colon, hsubParam⟩
  · rw [if_neg hsub] at hstate
    rw [Bool.not_eq_true] at hsub
    rcases hkind with (hdigit | hsemicolon) | hcolon
    · exact ⟨_, event_param hstate hwch (.inl hdigit), h.actionParam_digit ha hsub hdigit, hparam⟩
    · obtain rfl := eq_semicolon hsemicolon
      exact ⟨_, event_param hstate hwch (.inr hsemicolon), h.actionParam_semicolon ha, hparam⟩
    · obtain rfl := eq_colon hcolon
      exact ⟨_, event_colon hstate, h.actionSubParam_colon, hsubParam⟩

theorem Collected.processCharacters (e : IStateMachineEngine σ κ)
    (callback : κ → StateMachine σ κ → Option (StateMachine σ κ)) {string : List WChar}
    (hstring : ∀ wch ∈ string, isCsiParameter wch) (h : m.Collected a) (ha : a.Consistent) :
    ∃ m', StateMachine.processCharacters e callback string m = some m' ∧
      m'.Collected (string.foldl Progress.step a) ∧ m'.host = m.host ∧
      m'.identifier = m.identifier := by
  induction string generalizing m a with
  | nil => exact ⟨m, rfl, h, rfl, rfl⟩
  | cons wch string ih =>
    obtain ⟨m₁, hstep, h₁, hhost₁, hid₁⟩ :=
      h.processCharacter e callback ha (hstring wch List.mem_cons_self)
    obtain ⟨m₂, hrun, h₂, hhost₂, hid₂⟩ :=
      ih (fun x hx => hstring x (List.mem_cons_of_mem _ hx)) h₁ (ha.step wch)
    exact ⟨m₂, by rw [StateMachine.processCharacters, hstep, Option.bind_some, hrun], h₂,
      hhost₂.trans hhost₁, hid₂.trans hid₁⟩

end Collect

end StateMachine

/-! ### Comparison with the grammar -/

/-- No field beyond the 32nd has sub parameters, or the 32nd has 6 of its own. -/
def SubParamsBelong (string : List WChar) : Prop :=
  (∀ field ∈ (fields string).drop maxParameterCount, colon ∉ field) ∨
    maxSubParameterCount ≤ ((fields string).getD (maxParameterCount - 1) []).count colon

theorem parseField_append_iff (field : List WChar) {extra : List WChar}
    (h : extra = [] ∨ ∃ rest, extra = colon :: rest) :
    parseField (field ++ extra) = parseField field ↔
      extra.count colon = 0 ∨ maxSubParameterCount ≤ field.count colon := by
  constructor
  · intro heq
    have hlength := congrArg (fun parsed => parsed.2.length) heq
    simp only [length_parseField, List.count_append] at hlength
    omega
  · rintro (hzero | hfull)
    · rcases h with rfl | ⟨rest, rfl⟩
      · rw [List.append_nil]
      · simp at hzero
    · rcases h with rfl | ⟨rest, rfl⟩
      · rw [List.append_nil]
      · obtain ⟨first, others, hsplit⟩ :=
          List.exists_cons_of_ne_nil (List.splitOn_ne_nil colon field)
        have hlength := length_splitOn colon field
        rw [hsplit, List.length_cons, Nat.add_right_cancel_iff] at hlength
        rw [parseField, parseField, List.splitOn_append_cons_self, hsplit]
        simp only [List.cons_append, List.headD_cons, List.tail_cons]
        rw [List.take_append_of_le_length (by omega)]

theorem stored_eq_grammar_iff (hne : string ≠ [])
    (h : Reads string a) : a.stored = grammar string ↔ SubParamsBelong string := by
  obtain ⟨hcount, -, hfew, hmany⟩ := h
  have hfields : fields string = string.splitOn semicolon := if_neg hne
  rw [SubParamsBelong, grammar, hfields]
  rcases Nat.lt_or_ge maxParameterCount a.count with hgt | hle
  · obtain ⟨extra, hdone, hcurrent, hextra, hcolons⟩ := hmany hgt
    obtain ⟨last, hlast⟩ : ∃ last, last =
        (string.splitOn semicolon).getD (maxParameterCount - 1) [] := ⟨_, rfl⟩
    have hlt : maxParameterCount - 1 < (string.splitOn semicolon).length := by omega
    have htake : (string.splitOn semicolon).take maxParameterCount = a.done ++ [last] := by
      rw [hdone, hlast, List.getD_eq_getElem _ _ hlt, List.take_concat_get']
      rfl
    rw [← hlast] at hcurrent
    rw [Progress.stored, htake, List.map_append, List.map_singleton, List.append_cancel_left_eq,
      List.singleton_inj, ← hlast, hcurrent, parseField_append_iff last hextra, hcolons,
      List.count_eq_zero]
    simp only [List.mem_flatten, not_exists, not_and]
  · have hall := hfew hle
    rw [← hall] at hcount ⊢
    have hstored : a.stored = (a.done ++ [a.current]).map parseField := by
      rw [Progress.stored, List.map_append, List.map_singleton]
    rw [List.take_of_length_le (by omega), List.drop_of_length_le (by omega), hstored]
    simp

/-! ### Dispatching -/

section Dispatch

open StateMachine

variable {σ κ : Type} {e : IStateMachineEngine σ κ}
  {callback : κ → StateMachine σ κ → Option (StateMachine σ κ)} {m m₀ : StateMachine σ κ}

theorem exists_enterCleared_of_entry
    (hentry : processCharacters e callback [esc, 0x5B] m = some m₀) (hm₀ : m₀.state = .csiEntry) :
    ∃ m₁ : StateMachine σ κ, m₀ = m₁.enterCleared .csiEntry := by
  obtain ⟨m₁, rfl⟩ := exists_eventEscape ⟨rfl, rfl, rfl⟩ rfl hentry
  have hevent : (m₁.enterCleared .escape).eventEscape e 0x5B =
      if m₁.host.ansi then (m₁.enterCleared .escape).enterCleared .csiEntry
      else ((m₁.enterCleared .escape).actionVt52EscDispatch e 0x5B).enterGround := rfl
  rw [hevent] at hm₀ ⊢
  split_ifs at hm₀ ⊢
  · exact ⟨_, rfl⟩
  · cases hm₀

theorem collected_enterCleared (m : StateMachine σ κ) :
    (m.enterCleared .csiEntry).Collected {} := by
  refine ⟨?_, rfl, rfl, rfl, .inl rfl, fun _ => rfl⟩
  exact ⟨rfl, rfl, rfl, by decide, by simp [Progress.stored, parseField]⟩

theorem processCharacter_csiFinal {final : WChar} (h : isCsiFinal final)
    (hm : m.state = .csiEntry ∨ m.state = .csiParam ∨ m.state = .csiSubParam) :
    m.processCharacter e callback final = m.completeCsi e callback final := by
  have hplain : IsPlain final := by
    constructor <;> grind [isCsiFinal, isDelete, isC1ControlCharacter, isFromAnywhereChar,
      isEscape, esc, can, sub]
  have hother : isC0Code final = false ∧ isDelete final = false ∧
      isNumericParamValue final = false ∧ isParameterDelimiter final = false ∧
      isSubParameterDelimiter final = false ∧ isIntermediate final = false ∧
      isCsiPrivateMarker final = false := by
    refine ⟨?_, ?_, ?_, ?_, ?_, ?_, ?_⟩ <;> grind [isCsiFinal, isC0Code, isDelete,
      isNumericParamValue, isParameterDelimiter, isSubParameterDelimiter, isIntermediate,
      isCsiPrivateMarker]
  obtain ⟨hc0, hdelete, hnumeric, hdelimiter, hsub, hinter, hprivate⟩ := hother
  rw [processCharacter_of_isPlain hplain]
  rcases hm with hm | hm | hm
  · simp [event, hm, eventCsiEntry, hc0, hdelete, hnumeric, hdelimiter, hsub, hinter, hprivate]
  · simp [event, hm, eventCsiParam, isParameterInvalid, hc0, hdelete, hnumeric, hdelimiter, hsub,
      hinter, hprivate]
  · simp [event, hm, eventCsiSubParam, isParameterInvalid, hc0, hdelete, hnumeric, hdelimiter, hsub,
      hinter, hprivate]

/-- A control sequence is dispatched with contiguous ranges of sub parameters. Its parameters are
those of the grammar exactly if its sub parameters belong to the fields that are stored. -/
theorem csi_parameters_iff (e : IStateMachineEngine σ κ)
    (callback : κ → StateMachine σ κ → Option (StateMachine σ κ))
    (hentry : processCharacters e callback [esc, 0x5B] m = some m₀) (hm₀ : m₀.state = .csiEntry)
    {string : List WChar} (hstring : ∀ wch ∈ string, isCsiParameter wch) {final : WChar}
    (hfinal : isCsiFinal final) :
    ∃ m₁ : StateMachine σ κ,
      processCharacters e callback (esc :: 0x5B :: string) m = some m₁ ∧ m₁.host = m₀.host ∧
      processCharacters e callback (esc :: 0x5B :: string ++ [final]) m =
        (m₁.safeExecute e (e.actionCsiDispatch (({} : VTIDBuilder).finalize final)
          m₁.vtParametersWithSubParameters)).enterGround.executeCsiCompleteCallback callback ∧
      RangesContiguous m₁.vtParametersWithSubParameters ∧
      (m₁.vtParametersWithSubParameters.withSubParams = grammar string ↔
        SubParamsBelong string) := by
  obtain ⟨m', rfl⟩ := exists_enterCleared_of_entry hentry hm₀
  obtain ⟨hreads, hconsistent⟩ := reads_foldl string
  obtain ⟨m₁, hrun, hcollected, hhost, hid⟩ := (collected_enterCleared m').processCharacters e
    callback hstring ⟨rfl, by simp, by simp⟩
  have hbehind (text : List WChar) : processCharacters e callback (esc :: 0x5B :: text) m =
      processCharacters e callback text (m'.enterCleared .csiEntry) := by
    have hsplit := processCharacters_append e callback m [esc, 0x5B] text
    rw [hentry, Option.bind_some] at hsplit
    exact hsplit
  have hstate : m₁.state = .csiEntry ∨ m₁.state = .csiParam ∨ m₁.state = .csiSubParam := by
    have hstate := hcollected.state
    split_ifs at hstate
    · exact .inr (.inr hstate)
    · rcases hstate with hstate | hstate
      · exact .inl hstate
      · exact .inr (.inl hstate)
  refine ⟨m₁, by rw [hbehind, hrun], hhost, ?_, ?_⟩
  · rw [List.cons_append, List.cons_append, hbehind, processCharacters_append, hrun,
      Option.bind_some, processCharacters_singleton, processCharacter_csiFinal hfinal hstate,
      completeCsi, actionCsiDispatch, hid]
    rfl
  · by_cases hempty : string = []
    · subst hempty
      obtain rfl : m'.enterCleared .csiEntry = m₁ := Option.some_inj.mp hrun
      have hstores : Stores [] [] [] [] := ⟨rfl, rfl, rfl, Nat.zero_le _, by simp⟩
      obtain ⟨hranges, hnone⟩ := Stores.vtParameters (p := {}) hstores rfl
      exact ⟨hranges, iff_of_true hnone (.inl (by simp [fields]))⟩
    · have hne : m₁.parameters ≠ [] := fun hnone => by
        rw [hcollected.begun hnone] at hreads
        have hsplit := hreads.few (by decide)
        have hjoined : [semicolon].intercalate (string.splitOn semicolon) = string :=
          List.intercalate_splitOn semicolon
        rw [← hsplit] at hjoined
        exact hempty hjoined.symm
      have hstores := hcollected.stores
      rw [pushFirstParameter_of_ne m₁ hne] at hstores
      obtain ⟨hranges, hstored⟩ :=
        Stores.vtParameters (p := m₁.vtParametersWithSubParameters) hstores rfl
      rw [hstored]
      exact ⟨hranges, stored_eq_grammar_iff hempty hreads⟩

end Dispatch

section Example

open StateMachine

/-- What `CSI` and a string have collected in a new machine. -/
def collectedBy (string : List WChar) : Option (List (VTParameter × List VTParameter)) :=
  (processCharacters idleEngine nofun (esc :: 0x5B :: string) { host := { engine := () } }).map
    fun m => m.vtParametersWithSubParameters.withSubParams

/-- `CSI 4 : 3 m` is dispatched with one parameter and its sub parameter. -/
theorem csi_parameters_underline :
    collectedBy [0x34, colon, 0x33] = some (grammar [0x34, colon, 0x33]) := by
  have hstring : ∀ wch ∈ [0x34, colon, 0x33], isCsiParameter wch := by
    simp [isCsiParameter, isNumericParamValue, isSubParameterDelimiter, colon]
  have hentry : processCharacters idleEngine nofun [esc, 0x5B] { host := { engine := () } } =
      some (enterCleared { host := { engine := () } } .csiEntry) := by
    simp [processCharacters, processCharacter, processNonC1, event, eventEscape, enterCleared,
      enter, actionClear, actionInterrupt, isC1ControlCharacter, isFromAnywhereChar, isEscape,
      isC0Code, isDelete, isIntermediate, isCsiIndicator, esc, can, sub]
  obtain ⟨m, hrun, -, -, -, hiff⟩ :=
    csi_parameters_iff idleEngine nofun hentry rfl hstring (show isCsiFinal 0x6D from rfl)
  rw [collectedBy, hrun, Option.map_some, hiff.mpr (.inl (by decide +kernel))]

/-- The sub parameter of the 33rd field is dispatched with the 32nd parameter. -/
theorem csi_parameters_33rd :
    collectedBy (List.replicate 32 semicolon ++ [0x31, colon, 0x32]) =
        some (List.replicate 31 (none, []) ++ [(none, [some 2])]) ∧
      grammar (List.replicate 32 semicolon ++ [0x31, colon, 0x32]) =
        List.replicate 32 (none, []) := by
  constructor <;> decide +kernel

end Example

end IntelligentTerminal.Vt
