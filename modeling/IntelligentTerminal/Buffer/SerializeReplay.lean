import IntelligentTerminal.Buffer.SerializeFlags

/-!
# Serialized attributes replay to themselves

The SGR sequences that `_SerializeRow` has emitted before the text of a run put the attribute of that
run into effect, if and only if no run before was left with a wrong one. Two changes go wrong: faint
to intense, and a new color of the underline whose type is not that of the foreground.
-/

namespace IntelligentTerminal.Buffer

open IntelligentTerminal.Vt

/-! ### The colors -/

theorem toUInt8_toNat (b : UInt8) : b.toNat.toUInt8 = b := UInt8.ofNat_toNat

theorem toNat_le (b : UInt8) : b.toNat ≤ 255 := Nat.le_of_lt_succ b.toNat_lt

theorem ite_index256 (a : TextAttribute) (f : TextColor → TextAttribute) (index : UInt8) :
    (if index.toNat ≤ 255 then f (.ofIndex index.toNat.toUInt8 true) else a) =
      f (.ofIndex index true) := by
  rw [if_pos (toNat_le index), toUInt8_toNat]

theorem ite_rgb (a : TextAttribute) (f : TextColor → TextAttribute) (r g b : UInt8) :
    (if r.toNat ≤ 255 ∧ g.toNat ≤ 255 ∧ b.toNat ≤ 255 then
      f (.ofRgb r.toNat.toUInt8 g.toNat.toUInt8 b.toNat.toUInt8) else a) = f (.ofRgb r g b) := by
  rw [if_pos ⟨toNat_le r, toNat_le g, toNat_le b⟩, toUInt8_toNat, toUInt8_toNat, toUInt8_toNat]

theorem exists_index {index : UInt8} (hlt : index < 16) : ∃ n < 16, index = UInt8.ofNat n :=
  ⟨index.toNat, UInt8.lt_iff_toNat_lt.mp hlt, by simp⟩

theorem after_foregroundChunk (a : TextAttribute) {c : TextColor} (hc : c.WellFormed) :
    after a [colorChunk 39 30 90 38 c] = a.setForeground c := by
  rcases hc with rfl | ⟨hc, hlt⟩ | hc | hc
  · rfl
  · obtain ⟨n, hn, hindex⟩ := exists_index hlt
    rw [hc, hindex]
    interval_cases n <;> rfl
  · rw [hc]
    exact ite_index256 a a.setForeground c.getIndex
  · rw [hc]
    exact ite_rgb a a.setForeground c.red c.green c.blue

theorem after_backgroundChunk (a : TextAttribute) {c : TextColor} (hc : c.WellFormed) :
    after a [colorChunk 49 40 100 48 c] = a.setBackground c := by
  rcases hc with rfl | ⟨hc, hlt⟩ | hc | hc
  · rfl
  · obtain ⟨n, hn, hindex⟩ := exists_index hlt
    rw [hc, hindex]
    interval_cases n <;> rfl
  · rw [hc]
    exact ite_index256 a a.setBackground c.getIndex
  · rw [hc]
    exact ite_rgb a a.setBackground c.red c.green c.blue

theorem after_foregroundChunks (a : TextAttribute) {fg : TextColor} (hfg : fg.WellFormed) :
    after a (foregroundChunks a.foreground fg) = { a with foreground := fg } := by
  unfold foregroundChunks
  by_cases heq : a.foreground = fg
  · rw [if_neg (not_not.mpr heq), ← heq]
    rfl
  · rw [if_pos heq, after_foregroundChunk a hfg]
    rfl

theorem after_backgroundChunks (a : TextAttribute) {bg : TextColor} (hbg : bg.WellFormed) :
    after a (backgroundChunks a.background bg) = { a with background := bg } := by
  unfold backgroundChunks
  by_cases heq : a.background = bg
  · rw [if_neg (not_not.mpr heq), ← heq]
    rfl
  · rw [if_pos heq, after_backgroundChunk a hbg]
    rfl

theorem after_underlineColorChunks (a : TextAttribute) (fg : TextColor) {ul : TextColor}
    (hul : ul.WellFormed) (htype : ul.colorType ≠ .isIndex16) :
    ∃ color, after a (underlineColorChunks fg a.underlineColor ul) =
        { a with underlineColor := color } ∧
      (color = ul ↔ ul = a.underlineColor ∨ fg.colorType = ul.colorType) := by
  unfold underlineColorChunks
  by_cases heq : a.underlineColor = ul
  · rw [if_neg (not_not.mpr heq)]
    exact ⟨a.underlineColor, rfl, by simp [heq]⟩
  · rw [if_pos heq]
    have hne : ul ≠ a.underlineColor := Ne.symm heq
    have hform := hul.of_colorType
    simp only [hne, false_or]
    cases hfg : fg.colorType with
    | isDefault =>
      refine ⟨{}, rfl, fun h => by rw [← h], fun h => ?_⟩
      rw [← h] at hform
      exact hform.symm
    | isIndex16 => exact ⟨a.underlineColor, rfl, fun h => absurd h heq, fun h => absurd h.symm htype⟩
    | isIndex256 =>
      refine ⟨.ofIndex ul.getIndex true, ite_index256 a a.setUnderlineColor ul.getIndex,
        fun h => by rw [← h]; rfl, fun h => ?_⟩
      rw [← h] at hform
      exact hform.symm
    | isRgb =>
      refine ⟨.ofRgb ul.red ul.green ul.blue, ?_, fun h => by rw [← h]; rfl, fun h => ?_⟩
      · have hvalid : (0 = 0) ∧ ul.red.toNat ≤ 255 ∧ ul.green.toNat ≤ 255 ∧ ul.blue.toNat ≤ 255 :=
          ⟨rfl, toNat_le _, toNat_le _, toNat_le _⟩
        have happly : after a
            [.sgr [⟨58, [some 2, none, some ul.red.toNat, some ul.green.toNat, some ul.blue.toNat]⟩]] =
              a.setUnderlineColor
                (.ofRgb ul.red.toNat.toUInt8 ul.green.toNat.toUInt8 ul.blue.toNat.toUInt8) :=
          if_pos hvalid
        rw [happly, toUInt8_toNat, toUInt8_toNat, toUInt8_toNat]
        rfl
      · rw [← h] at hform
        exact hform.symm

/-! ### Runs -/

/-- The attribute in effect is that of the run before, which has no flags but those that SGR can set
and the one that stands for no run. -/
structure InEffect (a previous : TextAttribute) : Prop where
  attrs : Restored a.attrs previous.attrs
  foreground : a.foreground = previous.foreground
  background : a.background = previous.background
  underlineColor : a.underlineColor = previous.underlineColor
  hyperlinkId : a.hyperlinkId = 0
  markKind : a.markKind = .none

theorem inEffect_default : InEffect {} (effectivePreviousTextAttr none) where
  attrs := by
    refine ⟨fun i hi => ?_, rfl, fun i _ => bit_zero i⟩
    have hflag : IsFlag CharacterAttributes.unused1 9 := ⟨rfl, by decide⟩
    change bit 0 i = bit CharacterAttributes.unused1 i
    rw [bit_zero, hflag.bit_eq, decide_eq_false hi.symm]
  foreground := rfl
  background := rfl
  underlineColor := rfl
  hyperlinkId := rfl
  markKind := rfl

theorem TextAttribute.Expressible.inEffect {v : TextAttribute} (h : v.Expressible) :
    InEffect v.rendition (effectivePreviousTextAttr (some v)) where
  attrs := ⟨fun _ _ => rfl, h.bit_eq_false rfl, fun _ hi => h.bit_eq_false hi⟩
  foreground := rfl
  background := rfl
  underlineColor := rfl
  hyperlinkId := rfl
  markKind := rfl

theorem replays_iff (previous value : TextAttribute) :
    Replays previous value ↔ ¬FaintToIntense previous.attrs value.attrs ∧
      (value.underlineColor = previous.underlineColor ∨
        value.foreground.colorType = value.underlineColor.colorType) := by
  unfold Replays FaintToIntense
  rw [isAnyFlagSet_eq_bit CharacterAttributes.isFlag_faint,
    isAnyFlagSet_eq_bit CharacterAttributes.isFlag_intense,
    isAnyFlagSet_eq_bit CharacterAttributes.isFlag_faint,
    isAnyFlagSet_eq_bit CharacterAttributes.isFlag_intense]
  simp only [Bool.not_eq_true, Bool.not_eq_eq_eq_not, Bool.not_true]

theorem after_attributeChunks_iff {a previous value : TextAttribute} (h : InEffect a previous)
    (hvalue : value.Expressible) :
    after a (attributeChunks previous value) = value.rendition ↔ Replays previous value := by
  obtain ⟨attrs, hattrs, hrestored⟩ := after_characterChunks hvalue h.attrs
  have hfg := after_foregroundChunks { a with attrs } hvalue.foreground
  have hbg := after_backgroundChunks { a with attrs, foreground := value.foreground }
    hvalue.background
  obtain ⟨color, hcolor, hul⟩ := after_underlineColorChunks
    { a with attrs, foreground := value.foreground, background := value.background }
    value.foreground hvalue.underlineColor hvalue.underlineType
  dsimp only at hfg hbg hcolor hul
  rw [replays_iff, attributeChunks, ← h.foreground, ← h.background, ← h.underlineColor, after_append,
    after_append, after_append, hattrs, hfg, hbg, hcolor, ← hrestored, ← hul]
  simp only [TextAttribute.rendition, TextAttribute.mk.injEq, h.hyperlinkId, h.markKind, true_and,
    and_true]

section Rows

variable {previous : TextAttribute} {values values' : List TextAttribute} {out out' : List Chunk}
  {chunk : Chunk}

/-- What is emitted for the runs with the attributes `values` behind a run with `previous`. -/
structure Emitted (previous : TextAttribute) (values : List TextAttribute) (out : List Chunk) :
    Prop where
  length_replay : ∀ a, (replay a out).length = values.length
  replay_iff : ∀ a, InEffect a previous →
    (replay a out = values.map TextAttribute.rendition ↔ (previous :: values).IsChain Replays)

/-- What is emitted leaves the last attribute in effect, if all attributes were restored. -/
structure Continues (previous : TextAttribute) (values : List TextAttribute) (out : List Chunk) : Prop
    extends Emitted previous values out where
  inEffect : ∀ a, InEffect a previous → (previous :: values).IsChain Replays →
    InEffect (after a out) (values.getLastD previous)

theorem isChain_append_iff {R : TextAttribute → TextAttribute → Prop} (previous : TextAttribute)
    (values values' : List TextAttribute) :
    (previous :: (values ++ values')).IsChain R ↔
      (previous :: values).IsChain R ∧ (values.getLastD previous :: values').IsChain R := by
  induction values generalizing previous with
  | nil => simp
  | cons value values ih =>
    rw [List.cons_append, List.isChain_cons_cons, List.isChain_cons_cons, ih, and_assoc,
      List.getLastD_cons]

theorem getLastD_append (previous : TextAttribute) (values values' : List TextAttribute) :
    (values ++ values').getLastD previous = values'.getLastD (values.getLastD previous) := by
  induction values generalizing previous with
  | nil => rfl
  | cons value values ih => rw [List.cons_append, List.getLastD_cons, List.getLastD_cons, ih]

theorem Continues.append_emitted (h : Continues previous values out)
    (h' : Emitted (values.getLastD previous) values' out') :
    Emitted previous (values ++ values') (out ++ out') where
  length_replay a := by
    rw [replay_append, List.length_append, List.length_append, h.length_replay, h'.length_replay]
  replay_iff a ha := by
    have hlength : (replay a out).length = (values.map TextAttribute.rendition).length := by
      rw [h.length_replay, List.length_map]
    rw [replay_append, List.map_append, isChain_append_iff, ← h.replay_iff a ha]
    constructor
    · intro heq
      obtain ⟨hfirst, hsecond⟩ := List.append_inj heq hlength
      have hafter := h.inEffect a ha ((h.replay_iff a ha).mp hfirst)
      exact ⟨hfirst, (h'.replay_iff _ hafter).mp hsecond⟩
    · rintro ⟨hfirst, hchain⟩
      have hafter := h.inEffect a ha ((h.replay_iff a ha).mp hfirst)
      rw [hfirst, (h'.replay_iff _ hafter).mpr hchain]

theorem Continues.append (h : Continues previous values out)
    (h' : Continues (values.getLastD previous) values' out') :
    Continues previous (values ++ values') (out ++ out') where
  toEmitted := h.append_emitted h'.toEmitted
  inEffect a ha hchain := by
    obtain ⟨hfirst, hsecond⟩ := (isChain_append_iff previous values values').mp hchain
    rw [after_append]
    have hafter := h'.inEffect _ (h.inEffect a ha hfirst) hsecond
    rwa [getLastD_append]

theorem Continues.of_plain (previous : TextAttribute) {out : List Chunk}
    (hreplay : ∀ a, replay a out = []) (hafter : ∀ a, after a out = a) :
    Continues previous [] out where
  length_replay a := by rw [hreplay, List.length_nil]
  replay_iff a _ := by simp [hreplay]
  inEffect a ha _ := by rwa [hafter]

theorem Emitted.append_closing (h : Emitted previous values out)
    (hclosing : ∀ a, replay a out' = []) : Emitted previous values (out ++ out') where
  length_replay a := by rw [replay_append, hclosing, List.append_nil, h.length_replay]
  replay_iff a ha := by rw [replay_append, hclosing, List.append_nil, h.replay_iff a ha]

/-- The chunk is an SGR sequence. -/
def Chunk.IsSgr (chunk : Chunk) : Prop := ∃ options, chunk = .sgr options

theorem isSgr_sgrChunk (ns : List ℕ) : (sgrChunk ns).IsSgr := ⟨_, rfl⟩

theorem isSgr_underlineStyleChunk (style : UInt16) : (underlineStyleChunk style).IsSgr := by
  unfold underlineStyleChunk
  split <;> exact ⟨_, rfl⟩

theorem isSgr_colorChunk (default_ dark bright extended : ℕ) (color : TextColor) :
    (colorChunk default_ dark bright extended color).IsSgr := by
  unfold colorChunk
  split <;> exact isSgr_sgrChunk _

theorem isSgr_of_mem_ite {p : Prop} [Decidable p] {chunk chunk' : Chunk} (hchunk : chunk'.IsSgr)
    (h : chunk ∈ if p then [chunk'] else []) : chunk.IsSgr := by
  by_cases hp : p
  · rw [if_pos hp] at h
    rwa [List.mem_singleton.mp h]
  · rw [if_neg hp] at h
    cases h

theorem isSgr_of_mem_characterChunks {previousAttr : UInt16} {value : TextAttribute}
    (h : chunk ∈ characterChunks previousAttr value) : chunk.IsSgr := by
  unfold characterChunks at h
  by_cases heq : previousAttr = value.attrs
  · rw [if_pos heq] at h
    cases h
  · rw [if_neg heq] at h
    rcases List.mem_append.mp h with h | h
    · rcases List.mem_append.mp h with h | h
      · exact isSgr_of_mem_ite (isSgr_sgrChunk _) h
      · obtain ⟨mapping, -, hmem⟩ := List.mem_flatMap.mp h
        exact isSgr_of_mem_ite (isSgr_sgrChunk _) hmem
    · exact isSgr_of_mem_ite (isSgr_underlineStyleChunk _) h

theorem isSgr_of_mem_underlineColorChunks {fg previousUl ul : TextColor}
    (h : chunk ∈ underlineColorChunks fg previousUl ul) : chunk.IsSgr := by
  unfold underlineColorChunks at h
  by_cases heq : previousUl = ul
  · rw [if_neg (not_not.mpr heq)] at h
    cases h
  · rw [if_pos heq] at h
    cases hfg : fg.colorType <;> rw [hfg] at h
    case isIndex16 => cases h
    all_goals
      rw [List.mem_singleton.mp h]
      exact ⟨_, rfl⟩

theorem isSgr_of_mem_attributeChunks {previous value : TextAttribute}
    (h : chunk ∈ attributeChunks previous value) : chunk.IsSgr := by
  rw [attributeChunks, List.mem_append, List.mem_append, List.mem_append] at h
  rcases h with ((h | h) | h) | h
  · exact isSgr_of_mem_characterChunks h
  · exact isSgr_of_mem_ite (isSgr_colorChunk _ _ _ _ _) h
  · exact isSgr_of_mem_ite (isSgr_colorChunk _ _ _ _ _) h
  · exact isSgr_of_mem_underlineColorChunks h

theorem replay_of_isSgr (a : TextAttribute) {chunks : List Chunk} (h : ∀ chunk ∈ chunks, chunk.IsSgr) :
    replay a chunks = [] := by
  induction chunks generalizing a with
  | nil => rfl
  | cons chunk chunks ih =>
    obtain ⟨options, rfl⟩ := h chunk List.mem_cons_self
    exact ih _ fun chunk hchunk => h chunk (List.mem_cons_of_mem _ hchunk)

theorem after_hyperlinkChunks (uriFromId : UInt16 → List WChar) (a : TextAttribute)
    (previousId id : UInt16) : after a (hyperlinkChunks uriFromId previousId id) = a ∧
      replay a (hyperlinkChunks uriFromId previousId id) = [] := by
  unfold hyperlinkChunks
  split_ifs <;> exact ⟨rfl, rfl⟩

theorem continues_run (uriFromId : UInt16 → List WChar) (previous value : TextAttribute)
    (hvalue : value.Expressible) (previousId id : UInt16) (delayedLineBreak clearToEndOfLine : Bool)
    (chars : List WChar) :
    Continues previous [value]
      (attributeChunks previous value ++ hyperlinkChunks uriFromId previousId id ++
        (if delayedLineBreak then [.lineBreak] else []) ++ [.text chars] ++
        (if clearToEndOfLine then [.eraseInLine] else [])) := by
  have hreplay (a : TextAttribute) : replay a (attributeChunks previous value ++
      hyperlinkChunks uriFromId previousId id ++ (if delayedLineBreak then [.lineBreak] else []) ++
      [.text chars] ++ (if clearToEndOfLine then [.eraseInLine] else [])) =
        [after a (attributeChunks previous value)] := by
    simp only [replay_append, after_append, replay_of_isSgr a fun _ => isSgr_of_mem_attributeChunks,
      after_hyperlinkChunks]
    cases delayedLineBreak <;> cases clearToEndOfLine <;> rfl
  have hafter (a : TextAttribute) : after a (attributeChunks previous value ++
      hyperlinkChunks uriFromId previousId id ++ (if delayedLineBreak then [.lineBreak] else []) ++
      [.text chars] ++ (if clearToEndOfLine then [.eraseInLine] else [])) =
        after a (attributeChunks previous value) := by
    simp only [after_append, after_hyperlinkChunks]
    cases delayedLineBreak <;> cases clearToEndOfLine <;> rfl
  refine ⟨⟨fun a => by rw [hreplay]; rfl, fun a ha => ?_⟩, fun a ha hchain => ?_⟩
  · rw [hreplay, List.map_singleton, List.cons.injEq, and_iff_left rfl,
      after_attributeChunks_iff ha hvalue, List.isChain_pair]
  · rw [List.isChain_pair] at hchain
    rw [hafter, (after_attributeChunks_iff ha hvalue).mpr hchain]
    exact hvalue.inEffect

theorem continues_serializeRun (uriFromId : UInt16 → List WChar) (row : ROW) (first : TextAttribute)
    (isLast : Bool) {run : Run TextAttribute} (hrun : run.value.Expressible) (oldX : ℤ)
    (s : SerializeState) :
    ∃ out, (serializeRun uriFromId row first isLast run oldX s).2.buffer = s.buffer ++ out ∧
      Continues (effectivePreviousTextAttr s.previousTextAttr) [run.value] out := by
  obtain ⟨clearToEndOfLine, chars, hbuffer⟩ : ∃ (clearToEndOfLine : Bool) (chars : List WChar),
      (serializeRun uriFromId row first isLast run oldX s).2.buffer =
        s.buffer ++ attributeChunks (effectivePreviousTextAttr s.previousTextAttr) run.value ++
          hyperlinkChunks uriFromId (effectivePreviousTextAttr s.previousTextAttr).hyperlinkId
            run.value.hyperlinkId ++
          (if s.delayedLineBreak then [.lineBreak] else []) ++ [.text chars] ++
          (if clearToEndOfLine then [.eraseInLine] else []) := ⟨_, _, rfl⟩
  refine ⟨_, ?_, continues_run uriFromId _ run.value hrun
    (effectivePreviousTextAttr s.previousTextAttr).hyperlinkId run.value.hyperlinkId s.delayedLineBreak
    clearToEndOfLine chars⟩
  rw [hbuffer]
  simp only [List.append_assoc]

theorem continues_serializeRuns (uriFromId : UInt16 → List WChar) (row : ROW) (first : TextAttribute)
    (runs : List (Run TextAttribute)) (hruns : ∀ run ∈ runs, run.value.Expressible) (oldX : ℤ)
    (s : SerializeState) :
    ∃ out, (serializeRuns uriFromId row first runs oldX s).buffer = s.buffer ++ out ∧
      Continues (effectivePreviousTextAttr s.previousTextAttr) (runs.map Run.value) out ∧
      effectivePreviousTextAttr (serializeRuns uriFromId row first runs oldX s).previousTextAttr =
        (runs.map Run.value).getLastD (effectivePreviousTextAttr s.previousTextAttr) := by
  induction runs generalizing oldX s with
  | nil => exact ⟨[], (List.append_nil _).symm, .of_plain _ (fun _ => rfl) fun _ => rfl, rfl⟩
  | cons run runs ih =>
    obtain ⟨out, hout, hrun⟩ := continues_serializeRun uriFromId row first runs.isEmpty
      (hruns run List.mem_cons_self) oldX s
    obtain ⟨out', hout', hcontinues, hprevious⟩ :=
      ih (fun x hx => hruns x (List.mem_cons_of_mem _ hx))
        (serializeRun uriFromId row first runs.isEmpty run oldX s).1
        (serializeRun uriFromId row first runs.isEmpty run oldX s).2
    refine ⟨out ++ out', ?_, hrun.append hcontinues, ?_⟩
    · rw [hout, List.append_assoc] at hout'
      exact hout'
    · rw [List.map_cons, List.getLastD_cons]
      exact hprevious

theorem after_lineRenditionChunks (a : TextAttribute) (lr : LineRendition) :
    after a (lineRenditionChunks lr) = a ∧ replay a (lineRenditionChunks lr) = [] := by
  cases lr <;> exact ⟨rfl, rfl⟩

theorem replay_closingChunks (a : TextAttribute) (previousTextAttr : Option TextAttribute)
    (addLineBreak : Bool) : replay a (closingChunks previousTextAttr addLineBreak) = [] := by
  unfold closingChunks
  rw [replay_append, replay_append]
  cases previousTextAttr with
  | none => cases addLineBreak <;> rfl
  | some attr =>
    dsimp only
    split_ifs <;> rfl

theorem continues_serializeRow (uriFromId : UInt16 → List WChar) (req : RowRequest)
    (hreq : ∀ value ∈ req.values, value.Expressible) (isLastRow : Bool) (s : SerializeState) :
    ∃ out closing, (serializeRow uriFromId req isLastRow s).buffer = s.buffer ++ (out ++ closing) ∧
      Continues (effectivePreviousTextAttr s.previousTextAttr) req.values out ∧
      (∀ a, replay a closing = []) ∧ (isLastRow = false → closing = []) ∧
      effectivePreviousTextAttr (serializeRow uriFromId req isLastRow s).previousTextAttr =
        req.values.getLastD (effectivePreviousTextAttr s.previousTextAttr) := by
  have hruns : ∀ run ∈ req.runs, run.value.Expressible := fun run hrun =>
    hreq run.value (List.mem_map_of_mem hrun)
  obtain ⟨out, hout, hcontinues, hprevious⟩ := continues_serializeRuns uriFromId req.row
    ((req.runs.head?.map Run.value).getD {}) req.runs hruns req.startX
    { s with buffer := s.buffer ++ lineRenditionChunks req.row.lineRendition }
  set s' := serializeRuns uriFromId req.row ((req.runs.head?.map Run.value).getD {}) req.runs req.startX
    { s with buffer := s.buffer ++ lineRenditionChunks req.row.lineRendition } with hs'
  refine ⟨lineRenditionChunks req.row.lineRendition ++ out ++
      (if s'.delayedLineBreak then [.lineBreak] else []),
    if isLastRow then closingChunks s'.previousTextAttr req.addLineBreak else [], ?_, ?_, fun a => ?_,
    fun hlast => ?_, hprevious⟩
  · change s'.buffer ++ _ ++ _ = _
    rw [hout]
    simp only [List.append_assoc]
    rfl
  · have hfront := Continues.of_plain (effectivePreviousTextAttr s.previousTextAttr)
      (fun a => (after_lineRenditionChunks a req.row.lineRendition).2)
      fun a => (after_lineRenditionChunks a req.row.lineRendition).1
    have hback : Continues (req.values.getLastD (effectivePreviousTextAttr s.previousTextAttr)) []
        (if s'.delayedLineBreak then [.lineBreak] else []) := by
      cases s'.delayedLineBreak <;> exact .of_plain _ (fun _ => rfl) fun _ => rfl
    have happend := (hfront.append hcontinues).append hback
    rwa [List.append_nil] at happend
  · cases isLastRow with
    | false => rfl
    | true => exact replay_closingChunks a _ _
  · rw [hlast]
    rfl

theorem emitted_serializeRows (uriFromId : UInt16 → List WChar) (reqs : List RowRequest)
    (hreqs : ∀ req ∈ reqs, ∀ value ∈ req.values, value.Expressible) (s : SerializeState) :
    ∃ out, (serializeRows uriFromId reqs s).buffer = s.buffer ++ out ∧
      Emitted (effectivePreviousTextAttr s.previousTextAttr) (reqs.flatMap RowRequest.values) out := by
  induction reqs generalizing s with
  | nil =>
    exact ⟨[], (List.append_nil _).symm,
      (Continues.of_plain _ (fun _ => rfl) fun _ => rfl).toEmitted⟩
  | cons req reqs ih =>
    obtain ⟨out, closing, hrow, hcontinues, hclosing, hnone, hprevious⟩ :=
      continues_serializeRow uriFromId req (hreqs req List.mem_cons_self) reqs.isEmpty s
    obtain ⟨out', hrows, hemitted⟩ :=
      ih (fun req hreq => hreqs req (List.mem_cons_of_mem _ hreq))
        (serializeRow uriFromId req reqs.isEmpty s)
    rw [hprevious] at hemitted
    refine ⟨out ++ closing ++ out', ?_, ?_⟩
    · exact hrows.trans (by rw [hrow, List.append_assoc, List.append_assoc])
    · rw [List.flatMap_cons]
      cases reqs with
      | nil =>
        have hnil : out' = [] := List.append_right_eq_self.mp hrows.symm
        rw [hnil, List.append_nil, List.flatMap_nil, List.append_nil]
        exact hcontinues.toEmitted.append_closing hclosing
      | cons req' reqs =>
        rw [hnone rfl, List.append_nil]
        exact hcontinues.append_emitted hemitted

/-- Before the text of each run, the attribute of that run is in effect, if and only if the attribute
of each run can be restored behind that of the run before. -/
theorem replay_serializeRows_iff (uriFromId : UInt16 → List WChar) (reqs : List RowRequest)
    (hreqs : ∀ req ∈ reqs, ∀ value ∈ req.values, value.Expressible) :
    replay {} (serializeRows uriFromId reqs {}).buffer =
        (reqs.flatMap RowRequest.values).map TextAttribute.rendition ↔
      (({} : TextAttribute) :: reqs.flatMap RowRequest.values).IsChain Replays := by
  obtain ⟨out, hout, hemitted⟩ := emitted_serializeRows uriFromId reqs hreqs {}
  rw [hout, SerializeState.buffer, List.nil_append, hemitted.replay_iff {} inEffect_default]
  cases reqs.flatMap RowRequest.values with
  | nil => simp
  | cons value values =>
    rw [List.isChain_cons_cons, List.isChain_cons_cons]
    rfl

def twoColumns (first second : TextAttribute) : RowRequest where
  row := { chars := [0x61, 0x62], charOffsets := [0, 1, 2], attr := [first, second], columnCount := 2 }
  startX := 0
  endX := 2
  addLineBreak := true

/-- Two rows with changes of either kind that are restored. -/
theorem replay_serializeRows_sample :
    let faint : TextAttribute := { attrs := CharacterAttributes.faint }
    let both : TextAttribute := { attrs := intenseOrFaint }
    let red : TextAttribute :=
      { foreground := .ofRgb 1 2 3, underlineColor := .ofRgb 255 0 0 }
    replay {} (serializeRows (fun _ => []) [twoColumns faint both, twoColumns red {}] {}).buffer =
      [faint, both, red, {}] := by
  intro faint both red
  exact (replay_serializeRows_iff (fun _ => []) [twoColumns faint both, twoColumns red {}]
    (by decide +kernel)).mpr (by decide +kernel)

/-- Intense behind faint is lost, and so is a red underline below text of the default color. -/
theorem replay_serializeRows_lost :
    let faint : TextAttribute := { attrs := CharacterAttributes.faint }
    let intense : TextAttribute := { attrs := CharacterAttributes.intense }
    let red : TextAttribute := { underlineColor := .ofRgb 255 0 0 }
    (faint.Expressible ∧ intense.Expressible ∧ red.Expressible) ∧
    ¬ replay {} (serializeRows (fun _ => []) [twoColumns faint intense] {}).buffer =
      ([twoColumns faint intense].flatMap RowRequest.values).map TextAttribute.rendition ∧
    ¬ replay {} (serializeRows (fun _ => []) [twoColumns {} red] {}).buffer =
      ([twoColumns {} red].flatMap RowRequest.values).map TextAttribute.rendition := by
  decide +kernel

end Rows

end IntelligentTerminal.Buffer
