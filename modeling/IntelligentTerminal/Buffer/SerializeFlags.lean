import IntelligentTerminal.Buffer.SerializeRow

/-!
# The character attributes behind a run

What the sequences that `_SerializeRow` emits for the character attributes do to the attribute in
effect, bit by bit. `Intense` and `Faint` share the option that turns them off, and every other flag
has options of its own.
-/

namespace IntelligentTerminal.Buffer

open IntelligentTerminal.Vt

@[simp] theorem after_nil (a : TextAttribute) : after a [] = a := rfl

theorem after_append (a : TextAttribute) (chunks chunks' : List Chunk) :
    after a (chunks ++ chunks') = after (after a chunks) chunks' := by
  induction chunks generalizing a with
  | nil => rfl
  | cons chunk chunks ih => cases chunk <;> exact ih _

theorem replay_append (a : TextAttribute) (chunks chunks' : List Chunk) :
    replay a (chunks ++ chunks') = replay a chunks ++ replay (after a chunks) chunks' := by
  induction chunks generalizing a with
  | nil => rfl
  | cons chunk chunks ih =>
    cases chunk with
    | text chars => exact congrArg (a :: ·) (ih a)
    | _ => exact ih _

/-! ### The effect of a sequence -/

theorem after_sgrChunk (a : TextAttribute) {n : ℕ} (hfg : n ≠ 38) (hbg : n ≠ 48) :
    after a [sgrChunk [n]] = applyPlainOption n a := by
  have happly : applyGraphicsOption (sgrParameters [⟨n, []⟩]) 0 a = (1, applyPlainOption n a) := by
    unfold applyGraphicsOption
    have hsub : (sgrParameters [⟨n, []⟩]).hasSubParamsFor 0 = false := rfl
    have hopt : valueAt (sgrParameters [⟨n, []⟩]).params 0 = n := rfl
    rw [hsub, if_neg Bool.false_ne_true]
    simp only [hopt]
  change applyGraphicsOptions (sgrParameters [⟨n, []⟩]) a = applyPlainOption n a
  unfold applyGraphicsOptions
  change applyGraphicsOptionsFrom _ 1 0 a = _
  unfold applyGraphicsOptionsFrom
  have hsize : 0 < (sgrParameters [⟨n, []⟩]).size := Nat.one_pos
  rw [if_pos hsize, happly]
  rfl

/-- A flag that has changed is given its new value. -/
def flagStep (attrDelta attr flag : UInt16) (k : ℕ) (attrs : UInt16) : UInt16 :=
  if bit attrDelta k then updateFlag attrs flag (bit attr k) else attrs

theorem bit_flagStep {flag : UInt16} {k : ℕ} (hflag : IsFlag flag k)
    (attrDelta attr attrs : UInt16) (i : ℕ) :
    bit (flagStep attrDelta attr flag k attrs) i =
      if k = i ∧ bit attrDelta k then bit attr k else bit attrs i := by
  unfold flagStep
  cases bit attrDelta k with
  | false => simp
  | true => simp [bit_updateFlag hflag]

/-- `Intense` that is turned off takes `Faint` with it. -/
def intenseStep (attrDelta attr attrs : UInt16) : UInt16 :=
  if bit attrDelta 0 ∧ !bit attr 0 then clearAllFlags attrs intenseOrFaint
  else flagStep attrDelta attr CharacterAttributes.intense 0 attrs

/-- `Faint` that is turned off takes `Intense` with it. -/
def faintStep (attrDelta attr attrs : UInt16) : UInt16 :=
  if bit attrDelta 5 ∧ !bit attr 5 then clearAllFlags attrs intenseOrFaint
  else flagStep attrDelta attr CharacterAttributes.faint 5 attrs

theorem bit_intenseOrFaint (i : ℕ) : bit intenseOrFaint i = (decide (0 = i) || decide (5 = i)) := by
  rw [intenseOrFaint, bit_or, CharacterAttributes.isFlag_intense.bit_eq,
    CharacterAttributes.isFlag_faint.bit_eq]

theorem bit_intenseStep (attrDelta attr attrs : UInt16) (i : ℕ) :
    bit (intenseStep attrDelta attr attrs) i =
      if 0 = i ∧ bit attrDelta 0 then bit attr 0
      else if 5 = i ∧ bit attrDelta 0 ∧ !bit attr 0 then false else bit attrs i := by
  unfold intenseStep
  by_cases hoff : bit attrDelta 0 ∧ !bit attr 0
  · rw [if_pos hoff, bit_clearAllFlags, bit_intenseOrFaint]
    by_cases h0 : 0 = i
    · simp [h0]
      grind
    · by_cases h5 : 5 = i <;> simp [h0, h5, hoff]
  · rw [if_neg hoff, bit_flagStep CharacterAttributes.isFlag_intense]
    simp only [hoff, and_false, if_false]

theorem bit_faintStep (attrDelta attr attrs : UInt16) (i : ℕ) :
    bit (faintStep attrDelta attr attrs) i =
      if 5 = i ∧ bit attrDelta 5 then bit attr 5
      else if 0 = i ∧ bit attrDelta 5 ∧ !bit attr 5 then false else bit attrs i := by
  unfold faintStep
  by_cases hoff : bit attrDelta 5 ∧ !bit attr 5
  · rw [if_pos hoff, bit_clearAllFlags, bit_intenseOrFaint]
    by_cases h5 : 5 = i
    · simp [h5]
      grind
    · by_cases h0 : 0 = i <;> simp [h0, h5, hoff]
  · rw [if_neg hoff, bit_flagStep CharacterAttributes.isFlag_faint]
    simp only [hoff, and_false, if_false]

theorem after_mappingChunks (a : TextAttribute) {flag : UInt16} {off on k : ℕ}
    (hflag : IsFlag flag k)
    (hoff : after a [sgrChunk [off]] = a.mapAttrs (updateFlag · flag false))
    (hon : after a [sgrChunk [on]] = a.mapAttrs (updateFlag · flag true)) (attrDelta attr : UInt16) :
    after a (mappingChunks attrDelta attr (flag, off, on)) =
      a.mapAttrs (flagStep attrDelta attr flag k) := by
  unfold mappingChunks flagStep
  dsimp only
  rw [isAnyFlagSet_eq_bit hflag, isAnyFlagSet_eq_bit hflag]
  cases bit attrDelta k with
  | false => rfl
  | true =>
    rw [if_pos rfl]
    cases bit attr k with
    | false => exact hoff
    | true => exact hon

theorem after_notIntenseOrFaint (a : TextAttribute) :
    after a [sgrChunk [22]] = a.mapAttrs (clearAllFlags · intenseOrFaint) := by
  rw [after_sgrChunk a (by decide) (by decide)]
  change a.mapAttrs (fun attrs => updateFlag (updateFlag attrs CharacterAttributes.intense false)
    CharacterAttributes.faint false) = _
  congr 1
  funext attrs
  refine eq_of_bit_eq fun i _ => ?_
  rw [bit_updateFlag CharacterAttributes.isFlag_faint, bit_updateFlag CharacterAttributes.isFlag_intense,
    bit_clearAllFlags, bit_intenseOrFaint]
  by_cases h0 : 0 = i
  · simp [h0]
  · by_cases h5 : 5 = i <;> simp [h0, h5]

theorem after_intenseChunks (a : TextAttribute) (attrDelta attr : UInt16) :
    after a (mappingChunks attrDelta attr (CharacterAttributes.intense, 22, 1)) =
      a.mapAttrs (intenseStep attrDelta attr) := by
  unfold mappingChunks intenseStep flagStep
  dsimp only
  rw [isAnyFlagSet_eq_bit CharacterAttributes.isFlag_intense,
    isAnyFlagSet_eq_bit CharacterAttributes.isFlag_intense]
  cases bit attrDelta 0 with
  | false => rfl
  | true =>
    cases bit attr 0 with
    | false => exact after_notIntenseOrFaint a
    | true => rfl

theorem after_faintChunks (a : TextAttribute) (attrDelta attr : UInt16) :
    after a (mappingChunks attrDelta attr (CharacterAttributes.faint, 22, 2)) =
      a.mapAttrs (faintStep attrDelta attr) := by
  unfold mappingChunks faintStep flagStep
  dsimp only
  rw [isAnyFlagSet_eq_bit CharacterAttributes.isFlag_faint,
    isAnyFlagSet_eq_bit CharacterAttributes.isFlag_faint]
  cases bit attrDelta 5 with
  | false => rfl
  | true =>
    cases bit attr 5 with
    | false => exact after_notIntenseOrFaint a
    | true => rfl

/-- The flags after the sequences for all flags. -/
def flagsAfter (attrDelta attr attrs : UInt16) : UInt16 :=
  flagStep attrDelta attr CharacterAttributes.reverseVideo 14 <|
  flagStep attrDelta attr CharacterAttributes.topGridline 10 <|
  faintStep attrDelta attr <|
  flagStep attrDelta attr CharacterAttributes.crossedOut 4 <|
  flagStep attrDelta attr CharacterAttributes.invisible 3 <|
  flagStep attrDelta attr CharacterAttributes.blinking 2 <|
  flagStep attrDelta attr CharacterAttributes.italics 1 <|
  intenseStep attrDelta attr attrs

open CharacterAttributes in
theorem after_attributeMappings (a : TextAttribute) (attrDelta attr : UInt16) :
    after a (attributeMappings.flatMap (mappingChunks attrDelta attr)) =
      a.mapAttrs (flagsAfter attrDelta attr) := by
  unfold attributeMappings
  simp only [List.flatMap_cons, List.flatMap_nil, List.append_nil, after_append]
  rw [after_intenseChunks, after_mappingChunks _ isFlag_italics rfl rfl,
    after_mappingChunks _ isFlag_blinking rfl rfl, after_mappingChunks _ isFlag_invisible rfl rfl,
    after_mappingChunks _ isFlag_crossedOut rfl rfl, after_faintChunks,
    after_mappingChunks _ isFlag_topGridline rfl rfl,
    after_mappingChunks _ isFlag_reverseVideo rfl rfl]
  rfl

theorem after_underlineStyleChunk (a : TextAttribute) {style : UInt16} (hstyle : style ≤ 5) :
    after a [underlineStyleChunk style] = a.setUnderlineStyle style := by
  obtain rfl | rfl | rfl | rfl | rfl | rfl :
      style = 0 ∨ style = 1 ∨ style = 2 ∨ style = 3 ∨ style = 4 ∨ style = 5 := by
    have hle : style.toNat ≤ 5 := UInt16.le_iff_toNat_le.mp hstyle
    simp only [← UInt16.toNat_inj]
    change style.toNat = 0 ∨ style.toNat = 1 ∨ style.toNat = 2 ∨ style.toNat = 3 ∨
      style.toNat = 4 ∨ style.toNat = 5
    omega
  all_goals rfl

/-! ### The character attributes -/

variable {i : ℕ} {v : TextAttribute}

theorem bit_underlineStyle (hi : i < 16) :
    bit CharacterAttributes.underlineStyle i = decide (6 ≤ i ∧ i ≤ 8) := by
  interval_cases i <;> rfl

theorem bit_setUnderlineStyle (a v : TextAttribute) (hi : i < 16) :
    bit (a.setUnderlineStyle v.getUnderlineStyle).attrs i =
      if 6 ≤ i ∧ i ≤ 8 then bit v.attrs i else bit a.attrs i := by
  unfold TextAttribute.setUnderlineStyle TextAttribute.getUnderlineStyle TextAttribute.mapAttrs
  dsimp only
  rw [bit_or, bit_and, bit_not _ hi, bit_underlineStyle hi]
  have hshift : bit (((v.attrs &&& CharacterAttributes.underlineStyle) >>> underlineStyleShift) <<<
      underlineStyleShift) i = (decide (6 ≤ i) && bit (v.attrs &&& CharacterAttributes.underlineStyle) i) := by
    unfold bit
    simp only [UInt16.toBitVec_shiftLeft, UInt16.toBitVec_shiftRight]
    change (((v.attrs &&& CharacterAttributes.underlineStyle).toBitVec >>> 6) <<< 6).getLsbD i = _
    rw [BitVec.getLsbD_shiftLeft, BitVec.getLsbD_ushiftRight]
    by_cases h6 : i < 6
    · simp [h6, hi]
    · rw [Nat.add_sub_cancel' (by omega)]
      simp [h6, hi, Nat.le_of_not_lt h6]
  rw [hshift, bit_and, bit_underlineStyle hi]
  by_cases h6 : 6 ≤ i <;> by_cases h8 : i ≤ 8 <;> simp [h6, h8]

theorem bit_of_not_isAnyFlagSet {x : UInt16}
    (h : isAnyFlagSet x CharacterAttributes.underlineStyle = false) (h6 : 6 ≤ i)
    (h8 : i ≤ 8) : bit x i = false := by
  have hzero : x &&& CharacterAttributes.underlineStyle = 0 := by simpa [isAnyFlagSet] using h
  have hbit := congrArg (bit · i) hzero
  simpa [bit_underlineStyle (show i < 16 by omega), h6, h8] using hbit

theorem isAnyFlagSet_intenseOrFaint (x : UInt16) :
    isAnyFlagSet x intenseOrFaint = (bit x 0 || bit x 5) := by
  have hand : x &&& intenseOrFaint =
      (x &&& CharacterAttributes.intense) ||| (x &&& CharacterAttributes.faint) := by
    refine eq_of_bit_eq fun i _ => ?_
    rw [intenseOrFaint, bit_and, bit_or, bit_or, bit_and, bit_and, Bool.and_or_distrib_left]
  rw [← isAnyFlagSet_eq_bit CharacterAttributes.isFlag_intense,
    ← isAnyFlagSet_eq_bit CharacterAttributes.isFlag_faint]
  unfold isAnyFlagSet
  rw [hand, Bool.eq_iff_iff]
  simp only [bne_iff_ne, ne_eq, Bool.or_eq_true, UInt16.or_eq_zero_iff]
  tauto

theorem areAllFlagsSet_intenseOrFaint (x : UInt16) :
    areAllFlagsSet x intenseOrFaint = (bit x 0 && bit x 5) := by
  unfold areAllFlagsSet
  rw [Bool.eq_iff_iff, beq_iff_eq, Bool.and_eq_true]
  constructor
  · intro h
    have h0 := congrArg (bit · 0) h
    have h5 := congrArg (bit · 5) h
    simpa [bit_intenseOrFaint] using And.intro h0 h5
  · rintro ⟨h0, h5⟩
    refine eq_of_bit_eq fun i _ => ?_
    rw [bit_and, bit_intenseOrFaint]
    by_cases hi : 0 = i
    · subst hi; simp [h0]
    · by_cases hi' : 5 = i
      · subst hi'; simp [h5]
      · simp [hi, hi']
theorem TextAttribute.Expressible.bit_eq_false (h : v.Expressible)
    (hi : bit TextAttribute.sgrFlags i = false) : bit v.attrs i = false := by
  rcases Nat.lt_or_ge i 16 with hlt | hge
  · have hbit := congrArg (bit · i) h.attrs
    simpa [bit_not _ hlt, hi] using hbit
  · exact bit_of_ge _ hge

theorem bit_flagsAfter (attrDelta attr attrs : UInt16) (hi : i < 16) :
    bit (flagsAfter attrDelta attr attrs) i =
      if i = 0 then
        if bit attrDelta 5 ∧ !bit attr 5 then false
        else if bit attrDelta 0 then bit attr 0 else bit attrs 0
      else if i = 5 then
        if bit attrDelta 5 then bit attr 5
        else if bit attrDelta 0 ∧ !bit attr 0 then false else bit attrs 5
      else if bit attrDelta i ∧ i ∈ [1, 2, 3, 4, 10, 14] then bit attr i else bit attrs i := by
  unfold flagsAfter
  simp only [bit_flagStep CharacterAttributes.isFlag_reverseVideo,
    bit_flagStep CharacterAttributes.isFlag_topGridline, bit_faintStep,
    bit_flagStep CharacterAttributes.isFlag_crossedOut,
    bit_flagStep CharacterAttributes.isFlag_invisible,
    bit_flagStep CharacterAttributes.isFlag_blinking,
    bit_flagStep CharacterAttributes.isFlag_italics, bit_intenseStep]
  interval_cases i <;> simp

theorem bit_sgrFlags : ∀ i < 16, i ≠ 0 → i ≠ 5 → ¬(6 ≤ i ∧ i ≤ 8) → i ∉ [1, 2, 3, 4, 10, 14] →
    bit TextAttribute.sgrFlags i = false := by
  intro i hi
  interval_cases i <;> decide

/-- The word has the flags of `previousAttr` except the one that stands for no run. -/
structure Restored (attrs previousAttr : UInt16) : Prop where
  bit_eq : ∀ i, i ≠ 9 → bit attrs i = bit previousAttr i
  unused : bit attrs 9 = false
  sgr : ∀ i, bit TextAttribute.sgrFlags i = false → bit attrs i = false

/-- The underline style, if it has changed. -/
def styleStep (attrDelta : UInt16) (v : TextAttribute) (attrs : UInt16) : UInt16 :=
  if isAnyFlagSet attrDelta CharacterAttributes.underlineStyle then
    ({ attrs : TextAttribute }.setUnderlineStyle v.getUnderlineStyle).attrs
  else attrs

theorem bit_styleStep_outside (attrDelta : UInt16) (v : TextAttribute) (attrs : UInt16)
    (hi : i < 16) (houtside : ¬(6 ≤ i ∧ i ≤ 8)) : bit (styleStep attrDelta v attrs) i = bit attrs i := by
  unfold styleStep
  cases isAnyFlagSet attrDelta CharacterAttributes.underlineStyle with
  | false => rfl
  | true => rw [if_pos rfl, bit_setUnderlineStyle _ _ hi, if_neg houtside]

theorem bit_styleStep_flagsAfter (hv : v.Expressible)
    {previousAttr attrs attrDelta : UInt16}
    (hattrs : ∀ i, i ≠ 0 → i ≠ 5 → i ≠ 9 → bit attrs i = bit previousAttr i)
    (hsgr : ∀ i, bit TextAttribute.sgrFlags i = false → bit attrs i = false)
    (hdelta : ∀ i, i ≠ 0 → i ≠ 5 → bit attrDelta i = (bit v.attrs i ^^ bit previousAttr i))
    (hi : i < 16) (h0 : i ≠ 0) (h5 : i ≠ 5) :
    bit (styleStep attrDelta v (flagsAfter attrDelta v.attrs attrs)) i = bit v.attrs i := by
  have hflags : bit (flagsAfter attrDelta v.attrs attrs) i =
      if bit attrDelta i ∧ i ∈ [1, 2, 3, 4, 10, 14] then bit v.attrs i else bit attrs i := by
    rw [bit_flagsAfter _ _ _ hi, if_neg h0, if_neg h5]
  have hstyle : bit (styleStep attrDelta v (flagsAfter attrDelta v.attrs attrs)) i =
      if isAnyFlagSet attrDelta CharacterAttributes.underlineStyle ∧ 6 ≤ i ∧ i ≤ 8 then
        bit v.attrs i
      else bit (flagsAfter attrDelta v.attrs attrs) i := by
    unfold styleStep
    cases isAnyFlagSet attrDelta CharacterAttributes.underlineStyle with
    | false => simp
    | true => simp only [if_true, true_and, bit_setUnderlineStyle _ _ hi]
  rw [hstyle, hflags]
  by_cases hinside : 6 ≤ i ∧ i ≤ 8
  · cases hset : isAnyFlagSet attrDelta CharacterAttributes.underlineStyle with
    | true => simp [hinside]
    | false =>
      have hbit := bit_of_not_isAnyFlagSet hset hinside.1 hinside.2
      rw [hdelta i h0 h5] at hbit
      have hsame : bit v.attrs i = bit previousAttr i := by simpa using hbit
      simp only [Bool.false_eq_true, false_and, if_false, hdelta i h0 h5, hbit,
        hattrs i h0 h5 (by omega)]
      exact hsame.symm
  · rw [if_neg (fun h => hinside h.2)]
    by_cases hmem : i ∈ [1, 2, 3, 4, 10, 14]
    · cases hbit : bit attrDelta i with
      | true => simp [hmem]
      | false =>
        have hne : i ≠ 9 := by
          rintro rfl
          simp at hmem
        rw [hdelta i h0 h5] at hbit
        have hsame : bit v.attrs i = bit previousAttr i := by simpa using hbit
        rw [if_neg (by simp), hattrs i h0 h5 hne, hsame]
    · have hout : bit TextAttribute.sgrFlags i = false := bit_sgrFlags i hi h0 h5 hinside hmem
      rw [if_neg (fun h => hmem h.2), hsgr i hout, hv.bit_eq_false hout]

/-- `Faint` is replaced by `Intense`. -/
def FaintToIntense (previousAttr attr : UInt16) : Prop :=
  bit previousAttr 5 ∧ !bit previousAttr 0 ∧ bit attr 0 ∧ !bit attr 5

theorem after_resets (a v : TextAttribute) (hv : ¬(bit v.attrs 0 ∧ bit v.attrs 5)) :
    ∃ attrs, after a
        [sgrChunk
          (if isAnyFlagSet v.attrs intenseOrFaint then
            [22, if isAnyFlagSet v.attrs CharacterAttributes.intense then 1 else 2]
          else [22])] = { a with attrs } ∧
      (∀ i, i ≠ 0 → i ≠ 5 → bit attrs i = bit a.attrs i) ∧ bit attrs 0 = bit v.attrs 0 ∧
      bit attrs 5 = bit v.attrs 5 := by
  have hclear (i : ℕ) : bit (clearAllFlags a.attrs intenseOrFaint) i =
      (bit a.attrs i && !(decide (0 = i) || decide (5 = i))) := by
    rw [bit_clearAllFlags, bit_intenseOrFaint]
  have hothers {i : ℕ} (h0 : i ≠ 0) (h5 : i ≠ 5) :
      bit (clearAllFlags a.attrs intenseOrFaint) i = bit a.attrs i := by
    rw [hclear, decide_eq_false h0.symm, decide_eq_false h5.symm]
    simp
  rw [isAnyFlagSet_intenseOrFaint, isAnyFlagSet_eq_bit CharacterAttributes.isFlag_intense]
  cases h0 : bit v.attrs 0 with
  | true =>
    have h5 : bit v.attrs 5 = false := by simpa [h0] using hv
    refine ⟨updateFlag (clearAllFlags a.attrs intenseOrFaint) CharacterAttributes.intense true, ?_,
      fun i hi hi' => ?_, ?_, ?_⟩
    · have hfirst := after_notIntenseOrFaint a
      have hsecond : after a [sgrChunk [22, 1]] = after (after a [sgrChunk [22]]) [sgrChunk [1]] := rfl
      simp only [Bool.true_or, if_true, hsecond, hfirst]
      rfl
    · rw [bit_updateFlag CharacterAttributes.isFlag_intense, if_neg hi.symm, hothers hi hi']
    · rw [bit_updateFlag CharacterAttributes.isFlag_intense, if_pos rfl]
    · rw [bit_updateFlag CharacterAttributes.isFlag_intense, if_neg (by decide), hclear, h5]
      simp
  | false =>
    cases h5 : bit v.attrs 5 with
    | true =>
      refine ⟨updateFlag (clearAllFlags a.attrs intenseOrFaint) CharacterAttributes.faint true, ?_,
        fun i hi hi' => ?_, ?_, ?_⟩
      · have hfirst := after_notIntenseOrFaint a
        have hsecond : after a [sgrChunk [22, 2]] = after (after a [sgrChunk [22]]) [sgrChunk [2]] :=
          rfl
        simp only [Bool.or_true, if_true, Bool.false_eq_true, if_false, hsecond, hfirst]
        rfl
      · rw [bit_updateFlag CharacterAttributes.isFlag_faint, if_neg hi'.symm, hothers hi hi']
      · rw [bit_updateFlag CharacterAttributes.isFlag_faint, if_neg (by decide), hclear]
        simp
      · rw [bit_updateFlag CharacterAttributes.isFlag_faint, if_pos rfl]
    | false =>
      refine ⟨clearAllFlags a.attrs intenseOrFaint, after_notIntenseOrFaint a,
        fun i hi hi' => hothers hi hi', ?_, ?_⟩
      · simp [hclear]
      · simp [hclear]

theorem after_characterChunks {a v : TextAttribute} {previousAttr : UInt16} (hv : v.Expressible)
    (h : Restored a.attrs previousAttr) :
    ∃ attrs, after a (characterChunks previousAttr v) = { a with attrs } ∧
      (attrs = v.attrs ↔ ¬FaintToIntense previousAttr v.attrs) := by
  by_cases heq : previousAttr = v.attrs
  · refine ⟨a.attrs, by rw [characterChunks, if_pos heq]; rfl, ?_⟩
    have hattrs : a.attrs = v.attrs := by
      refine eq_of_bit_eq fun i _ => ?_
      by_cases hi : i = 9
      · rw [hi, h.unused, hv.bit_eq_false rfl]
      · rw [h.bit_eq i hi, heq]
    simp only [hattrs, heq, FaintToIntense, true_iff]
    grind
  · -- what is emitted first, and what has still to change behind it
    obtain ⟨resets, attrDelta, attrs, hchunks, hresets, hdelta, hattrs, h0, h5, hboth, hfaint⟩ :
        ∃ resets attrDelta attrs,
          characterChunks previousAttr v =
            resets ++ attributeMappings.flatMap (mappingChunks attrDelta v.attrs) ++
              (if isAnyFlagSet attrDelta CharacterAttributes.underlineStyle then
                [underlineStyleChunk v.getUnderlineStyle] else []) ∧
          after a resets = { a with attrs } ∧
          (∀ i, i ≠ 0 → i ≠ 5 → bit attrDelta i = (bit v.attrs i ^^ bit previousAttr i)) ∧
          (∀ i, i ≠ 0 → i ≠ 5 → bit attrs i = bit a.attrs i) ∧
          bit attrDelta 0 = (bit v.attrs 0 ^^ bit attrs 0) ∧
          bit attrDelta 5 = (bit v.attrs 5 ^^ bit attrs 5) ∧
          ¬(bit attrs 0 ∧ bit attrs 5 ∧ (bit attrDelta 0 ∨ bit attrDelta 5)) ∧
          (FaintToIntense attrs v.attrs ↔ FaintToIntense previousAttr v.attrs) := by
      unfold characterChunks
      rw [if_neg heq]
      dsimp only
      rw [areAllFlagsSet_intenseOrFaint, isAnyFlagSet_intenseOrFaint, bit_xor, bit_xor]
      cases hboth : bit previousAttr 0 && bit previousAttr 5 &&
          (bit v.attrs 0 ^^ bit previousAttr 0 || bit v.attrs 5 ^^ bit previousAttr 5) with
      | false =>
        refine ⟨[], _, a.attrs, rfl, rfl, fun i _ _ => bit_xor _ _ i, fun _ _ _ => rfl, ?_, ?_, ?_, ?_⟩
        · simp [h.bit_eq]
        · simp [h.bit_eq]
        · simp only [Bool.false_eq_true, if_false, bit_xor, h.bit_eq 0 (by decide),
            h.bit_eq 5 (by decide)]
          grind
        · simp only [FaintToIntense, h.bit_eq 0 (by decide), h.bit_eq 5 (by decide)]
      | true =>
        simp only [Bool.and_eq_true, Bool.or_eq_true] at hboth
        obtain ⟨⟨hp0, hp5⟩, hchanged⟩ := hboth
        obtain ⟨attrs, hattrs, hothers, h0, h5⟩ := after_resets a v (by grind)
        have hclear (i : ℕ) : bit (clearAllFlags (v.attrs ^^^ previousAttr) intenseOrFaint) i =
            ((bit v.attrs i ^^ bit previousAttr i) && !(decide (0 = i) || decide (5 = i))) := by
          rw [bit_clearAllFlags, bit_xor, bit_intenseOrFaint]
        refine ⟨_, _, attrs, rfl, hattrs, fun i hi hi' => ?_, hothers, ?_, ?_, ?_, ?_⟩
        · simp [hclear, hi.symm, hi'.symm]
        · simp [hclear, h0]
        · simp [hclear, h5]
        · simp [hclear]
        · simp only [FaintToIntense, h0, h5, hp0]
          grind
    have hbits : ∀ i < 16, i ≠ 0 → i ≠ 5 →
        bit (styleStep attrDelta v (flagsAfter attrDelta v.attrs attrs)) i = bit v.attrs i :=
      fun i hi hi0 hi5 => bit_styleStep_flagsAfter hv
        (fun i hi0 hi5 hi9 => (hattrs i hi0 hi5).trans (h.bit_eq i hi9))
        (fun i hi => (hattrs i (by rintro rfl; cases hi) (by rintro rfl; cases hi)).trans (h.sgr i hi))
        hdelta hi hi0 hi5
    have hbit0 : bit (styleStep attrDelta v (flagsAfter attrDelta v.attrs attrs)) 0 =
        bit (flagsAfter attrDelta v.attrs attrs) 0 := bit_styleStep_outside _ _ _ (by decide) (by decide)
    have hbit5 : bit (styleStep attrDelta v (flagsAfter attrDelta v.attrs attrs)) 5 =
        bit (flagsAfter attrDelta v.attrs attrs) 5 := bit_styleStep_outside _ _ _ (by decide) (by decide)
    rw [bit_flagsAfter _ _ _ (by decide), if_pos rfl] at hbit0
    rw [bit_flagsAfter _ _ _ (by decide), if_neg (by decide), if_pos rfl] at hbit5
    refine ⟨styleStep attrDelta v (flagsAfter attrDelta v.attrs attrs), ?_, ?_⟩
    · rw [hchunks, after_append, after_append, hresets, after_attributeMappings]
      unfold styleStep
      cases isAnyFlagSet attrDelta CharacterAttributes.underlineStyle with
      | false => rfl
      | true =>
        rw [if_pos rfl, after_underlineStyleChunk _ hv.underlineStyle]
        rfl
    · rw [← hfaint]
      constructor
      · intro hrestored
        rw [hrestored] at hbit0 hbit5
        simp only [FaintToIntense]
        grind
      · intro hkept
        refine eq_of_bit_eq fun i hi => ?_
        by_cases hi0 : i = 0
        · subst hi0
          simp only [FaintToIntense] at hkept
          grind
        · by_cases hi5 : i = 5
          · subst hi5
            grind
          · exact hbits i hi hi0 hi5

end IntelligentTerminal.Buffer
