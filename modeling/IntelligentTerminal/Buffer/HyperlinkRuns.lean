import IntelligentTerminal.Buffer.Hyperlinks
import IntelligentTerminal.Data.Run

/-!
# Hyperlinks over whole runs

An id is never given out twice in fewer than 65535 starts, so an id that has lost its entry stays
without one. Pruning keeps the ids of all rows but the first, and the first is recycled. What is left
to go wrong is that the current attributes have an id that has been pruned, and that two URIs with
one custom id have one hash.

Source: `src/buffer/out/textBuffer.cpp`, lines 728-746, 1427-1471 and 2963-3032.
-/

namespace IntelligentTerminal.Buffer

/-! ### Rows -/

namespace ROW

variable {r r' : ROW} {cwd : CodepointWidthDetector}

theorem mem_getHyperlinks {id : UInt16} :
    id ∈ r.getHyperlinks ↔ id ≠ 0 ∧ ∃ a ∈ r.attr, a.hyperlinkId = id := by
  have hmem (a : TextAttribute) : a ∈ (Run.encode r.attr).map Run.value ↔ a ∈ r.attr := by
    rw [← Run.mem_decode (Run.compact_encode _), Run.decode_encode]
  unfold getHyperlinks
  simp only [List.mem_filter, List.mem_map, ne_eq, decide_eq_true_eq, ← hmem]
  constructor
  · rintro ⟨⟨run, hrun, rfl⟩, hne⟩
    exact ⟨hne, run.value, ⟨run, hrun, rfl⟩, rfl⟩
  · rintro ⟨hne, a, ⟨run, hrun, rfl⟩, rfl⟩
    exact ⟨⟨run, hrun, rfl⟩, hne⟩

theorem sameAttributes_writeText (cwd : CodepointWidthDetector) (w : WriteHelper) (r : ROW) :
    (w.replaceText cwd r).1.SameAttributes r := by
  unfold WriteHelper.replaceText
  dsimp only
  split_ifs
  · unfold WriteHelper.replaceTextUnicode
    dsimp only
    split_ifs <;> exact ⟨rfl, rfl⟩
  · exact ⟨rfl, rfl⟩

theorem sameAttributes_replaceText {state state' : RowWriteState}
    (h : r.replaceText cwd state = .ok (r', state')) : r'.SameAttributes r := by
  unfold replaceText at h
  dsimp only at h
  split_ifs at h
  · rw [← (Prod.mk.inj (Except.ok.inj h)).1]
    exact ⟨rfl, rfl⟩
  · split at h
    · cases h
    · next w hfinish =>
      rw [← (Prod.mk.inj (Except.ok.inj h)).1]
      exact (sameAttributes_finish hfinish).trans (sameAttributes_writeText cwd _ r)

theorem replaceText_error {state : RowWriteState}
    (h : r.replaceText cwd state = .error r') : r' = r.thrown := by
  unfold replaceText at h
  dsimp only at h
  split_ifs at h
  split at h
  · exact (Except.error.inj h).symm
  · cases h

end ROW

theorem RowAttributes.getElem?_replaceValue {attr attr' : RowAttributes} {startIndex endIndex : ℕ}
    {value : TextAttribute} (h : attr.replaceValue startIndex endIndex value = some attr') :
    attr'.length = attr.length ∧ ∀ i : ℕ, attr'[i]? =
      if startIndex ≤ i ∧ i < min endIndex attr.length then some value else attr[i]? := by
  unfold replaceValue replace at h
  dsimp only at h
  split_ifs at h with hle
  rw [← Option.some.inj h]
  have htake : (attr.take startIndex).length = startIndex := by
    rw [List.length_take]
    omega
  constructor
  · simp only [List.length_append, List.length_take, List.length_drop, List.length_replicate]
    omega
  · intro i
    rw [List.append_assoc, List.getElem?_append, List.getElem?_append, htake, List.length_replicate,
      List.getElem?_take, List.getElem?_replicate, List.getElem?_drop]
    split_ifs <;> first | rfl | omega | skip
    · congr 1
      omega

/-! ### The shape of the buffer -/

namespace TextBuffer

variable {b : TextBuffer}

/-- The rows have the width of the buffer, and the origin is inside of it. -/
structure Shaped (b : TextBuffer) : Prop where
  height_pos : 0 < b.height
  width_pos : 0 < b.width
  firstRow_nonneg : 0 ≤ b.firstRow
  firstRow_lt : b.firstRow < b.height
  columnCount : ∀ y : ℤ, 0 ≤ y → y < b.height → (b.row y).columnCount = b.width
  length_attr : ∀ y : ℤ, 0 ≤ y → y < b.height → (b.row y).attr.length = b.width

theorem Shaped.store (h : b.Shaped) (y : ℤ) {r : ROW} (hcolumns : r.columnCount = b.width)
    (hattr : r.attr.length = b.width) : ((b.getRow y).2.setRow y r).Shaped := by
  have hshape := b.store_sameShape y r
  refine ⟨?_, ?_, ?_, ?_, fun z hz hz' => ?_, fun z hz hz' => ?_⟩
  · rw [hshape.height]
    exact h.height_pos
  · rw [hshape.width]
    exact h.width_pos
  · rw [hshape.firstRow]
    exact h.firstRow_nonneg
  · rw [hshape.firstRow, hshape.height]
    exact h.firstRow_lt
  all_goals
    rw [hshape.height] at hz'
    rw [hshape.width, row_store h.height_pos y r hz hz']
    split_ifs
  · exact hcolumns
  · exact h.columnCount z hz hz'
  · exact hattr
  · exact h.length_attr z hz hz'

theorem shaped_new (width height : ℕ) (attributes : TextAttribute) (cursorSize : ℕ) :
    (new width height attributes cursorSize).Shaped := by
  have hrow (y : ℤ) : (new width height attributes cursorSize).row y =
      ROW.construct (max width 1) attributes := rfl
  refine ⟨?_, ?_, le_rfl, ?_, fun y _ _ => rfl, fun y _ _ => ?_⟩
  · exact Nat.lt_of_lt_of_le Nat.one_pos (Nat.le_max_right height 1)
  · exact Nat.lt_of_lt_of_le Nat.one_pos (Nat.le_max_right width 1)
  · have hpos : 0 < max height 1 := Nat.lt_of_lt_of_le Nat.one_pos (Nat.le_max_right height 1)
    change (0 : ℤ) < (max height 1 : ℕ)
    exact_mod_cast hpos
  · rw [hrow]
    exact List.length_replicate

theorem row_incrementFirstRow (h : b.Shaped) (z : ℤ) : b.incrementFirstRow.row z = b.row (z + 1) := by
  have hindex : b.incrementFirstRow.rowIndex z = b.rowIndex (z + 1) := by
    have hleft := b.incrementFirstRow.rowIndex_eq h.height_pos z
    have hright := b.rowIndex_eq h.height_pos (z + 1)
    have hfirst : (b.incrementFirstRow.firstRow + z) % b.height = (b.firstRow + (z + 1)) % b.height := by
      have hlt := h.firstRow_lt
      change ((if b.firstRow + 1 ≥ b.height then 0 else b.firstRow + 1) + z) % b.height = _
      split_ifs with hwrap
      · have heq : b.firstRow + (z + 1) = z + b.height := by omega
        rw [zero_add, heq, Int.add_emod_right]
      · congr 1
        omega
    have hheight : b.incrementFirstRow.height = b.height := rfl
    rw [hheight, hfirst] at hleft
    omega
  rw [row, row, hindex]
  rfl

theorem Shaped.incrementFirstRow (h : b.Shaped) : b.incrementFirstRow.Shaped := by
  have hpos : (0 : ℤ) < b.height := by exact_mod_cast h.height_pos
  have hfirst : 0 ≤ b.incrementFirstRow.firstRow ∧ b.incrementFirstRow.firstRow < b.height := by
    have hnonneg := h.firstRow_nonneg
    change 0 ≤ (if b.firstRow + 1 ≥ b.height then 0 else b.firstRow + 1) ∧
      (if b.firstRow + 1 ≥ b.height then 0 else b.firstRow + 1) < b.height
    split_ifs with hwrap <;> omega
  refine ⟨h.height_pos, h.width_pos, hfirst.1, hfirst.2, fun z _ _ => ?_, fun z _ _ => ?_⟩
  all_goals rw [row_incrementFirstRow h, row_emod h.height_pos]
  · exact h.columnCount _ (Int.emod_nonneg _ hpos.ne') (Int.emod_lt_of_pos _ hpos)
  · exact h.length_attr _ (Int.emod_nonneg _ hpos.ne') (Int.emod_lt_of_pos _ hpos)

end TextBuffer

/-! ### The maps -/

namespace LinkedBuffer

variable {s : LinkedBuffer}

theorem buffer_pruneHyperlinks (s : LinkedBuffer) : s.pruneHyperlinks.buffer = s.buffer ∧
    s.pruneHyperlinks.currentAttributes = s.currentAttributes ∧
    s.pruneHyperlinks.currentHyperlinkId = s.currentHyperlinkId := by
  unfold pruneHyperlinks
  generalize obsoleteHyperlinks s.buffer = ids
  induction ids generalizing s with
  | nil => exact ⟨rfl, rfl, rfl⟩
  | cons id ids ih => exact ih (s.removeHyperlinkFromMap id)

theorem lookup_pruneHyperlinks (s : LinkedBuffer) (id : UInt16) :
    s.pruneHyperlinks.hyperlinkMap.lookup id =
      if id ∈ obsoleteHyperlinks s.buffer then none else s.hyperlinkMap.lookup id := by
  unfold pruneHyperlinks
  generalize obsoleteHyperlinks s.buffer = ids
  induction ids generalizing s with
  | nil => simp
  | cons id' ids ih =>
    rw [List.foldl_cons, ih]
    change (if id ∈ ids then none else (s.hyperlinkMap.erase id').lookup id) = _
    rw [Table.lookup_erase_eq]
    by_cases hid : id = id'
    · simp [hid]
    · simp [hid]

theorem lookup_custom_pruneHyperlinks {key : List WChar} {id : UInt16}
    (h : s.pruneHyperlinks.hyperlinkCustomIdMap.lookup key = some id) :
    s.hyperlinkCustomIdMap.lookup key = some id := by
  unfold pruneHyperlinks at h
  generalize obsoleteHyperlinks s.buffer = ids at h
  induction ids generalizing s with
  | nil => exact h
  | cons id' ids ih =>
    have hremoved := ih (s := s.removeHyperlinkFromMap id') h
    unfold removeHyperlinkFromMap at hremoved
    dsimp only at hremoved
    split at hremoved
    · rw [Table.lookup_erase_eq] at hremoved
      split_ifs at hremoved
      exact hremoved
    · exact hremoved

theorem not_mem_obsoleteHyperlinks {b : TextBuffer} {y : ℤ} (hy : 0 < y) (hy' : y < b.height)
    {a : TextAttribute} (ha : a ∈ (b.row y).attr) : a.hyperlinkId ∉ obsoleteHyperlinks b := by
  intro hmem
  obtain ⟨hfirst, hothers⟩ := List.mem_filter.mp hmem
  rw [List.mem_dedup, ROW.mem_getHyperlinks] at hfirst
  refine of_decide_eq_true hothers (List.mem_flatMap.mpr ⟨(y - 1).toNat, ?_, ?_⟩)
  · rw [List.mem_range]
    omega
  · have hrow : (((y - 1).toNat : ℕ) : ℤ) + 1 = y := by omega
    rw [hrow, ROW.mem_getHyperlinks]
    exact ⟨hfirst.1, a, ha, rfl⟩

theorem getHyperlinkId_cases (hash : List WChar → ℕ) (s : LinkedBuffer) (uri id : List WChar)
    (hpos : 0 < s.currentHyperlinkId.toNat) (hlt : s.currentHyperlinkId.toNat < 65535) :
    (id ≠ [] ∧ ∃ numericId, s.hyperlinkCustomIdMap.lookup (customKey hash uri id) = some numericId ∧
      s.getHyperlinkId hash uri id = (numericId, s)) ∨
    (id ≠ [] → s.hyperlinkCustomIdMap.lookup (customKey hash uri id) = none) ∧
    ∃ customIds, s.getHyperlinkId hash uri id = (s.currentHyperlinkId,
        { s with
          hyperlinkCustomIdMap := customIds, currentHyperlinkId := s.currentHyperlinkId + 1 }) ∧
      ∀ key numericId, customIds.lookup key = some numericId →
        s.hyperlinkCustomIdMap.lookup key = some numericId ∨ numericId = s.currentHyperlinkId := by
  have hne : s.currentHyperlinkId ≠ 0 := by
    intro hzero
    rw [hzero] at hpos
    exact absurd hpos (by decide)
  have hnext : s.currentHyperlinkId + 1 ≠ 0 := by
    intro hzero
    have htoNat := congrArg UInt16.toNat hzero
    rw [UInt16.toNat_add] at htoNat
    change (s.currentHyperlinkId.toNat + 1) % 65536 = 0 at htoNat
    omega
  unfold getHyperlinkId
  by_cases hid : id = []
  · refine .inr ⟨fun hne => absurd hid hne, s.hyperlinkCustomIdMap, ?_, fun key numericId h => .inl h⟩
    simp only [hid, List.isEmpty_nil, if_true, if_neg hnext]
  · have hempty : id.isEmpty = false := by simpa using hid
    cases hlookup : s.hyperlinkCustomIdMap.lookup (customKey hash uri id) with
    | some numericId =>
      refine .inl ⟨hid, numericId, rfl, ?_⟩
      simp only [hempty, Bool.false_eq_true, if_false, hlookup, if_neg hne]
    | none =>
      refine .inr ⟨fun _ => rfl,
        s.hyperlinkCustomIdMap.insert (customKey hash uri id) s.currentHyperlinkId, ?_,
        fun key numericId h => ?_⟩
      · simp only [hempty, Bool.false_eq_true, if_false, hlookup, if_neg hnext]
      · rw [Table.lookup_insert_eq] at h
        split_ifs at h
        · exact .inr (Option.some.inj h).symm
        · exact .inl h

theorem replace_cases (cwd : CodepointWidthDetector) (s : LinkedBuffer) (hs : s.buffer.Shaped) (y : ℤ)
    (attributes : TextAttribute) (state : RowWriteState) :
    ∃ r, (s.replace cwd y attributes state).2 =
        { s with buffer := (s.buffer.getRow y).2.setRow y r } ∧
      r.columnCount = s.buffer.width ∧ r.attr.length = s.buffer.width ∧
      (((s.replace cwd y attributes state).1 = none ∧ ∀ a ∈ r.attr, a.hyperlinkId = 0) ∨
        ∃ columnBegin columnEnd,
          (s.replace cwd y attributes state).1 = some (columnBegin, columnEnd) ∧
          columnEnd ≤ s.buffer.width ∧
          ∀ column : ℕ, r.attr[column]? = if columnBegin ≤ column ∧ column < columnEnd then
            some attributes else (s.buffer.row (y % s.buffer.height)).attr[column]?) := by
  have hpos : (0 : ℤ) < s.buffer.height := by exact_mod_cast hs.height_pos
  have hlt := Int.emod_lt_of_pos y hpos
  have hnonneg := Int.emod_nonneg y hpos.ne'
  have hcolumns := hs.columnCount _ hnonneg hlt
  have hlength := hs.length_attr _ hnonneg hlt
  have hrow : (s.buffer.getRow y).1 = s.buffer.row (y % s.buffer.height) := by
    rw [TextBuffer.getRow_fst, TextBuffer.row_emod hs.height_pos]
  unfold replace
  dsimp only
  rw [hrow]
  cases htext : (s.buffer.row (y % s.buffer.height)).replaceText cwd state with
  | error r =>
    rw [ROW.replaceText_error htext]
    refine ⟨_, rfl, hcolumns, ?_, .inl ⟨rfl, fun a ha => ?_⟩⟩
    · exact (List.length_replicate).trans hcolumns
    · rw [List.eq_of_mem_replicate ha]
  | ok result =>
    obtain ⟨r, state'⟩ := result
    have hsame := ROW.sameAttributes_replaceText htext
    have hlength' : r.attr.length = s.buffer.width := by rw [hsame.attr, hlength]
    have hcolumns' : r.columnCount = s.buffer.width := by rw [hsame.columnCount, hcolumns]
    dsimp only
    cases hattr : r.replaceAttributes state'.columnBegin state'.columnEnd attributes with
    | none =>
      refine ⟨r, rfl, hcolumns', hlength', .inr ⟨0, 0, rfl, Nat.zero_le _, fun column => ?_⟩⟩
      rw [if_neg (by omega), hsame.attr]
    | some r' =>
      unfold ROW.replaceAttributes at hattr
      obtain ⟨attr, hreplace, rfl⟩ := Option.map_eq_some_iff.mp hattr
      obtain ⟨hlen, hget⟩ := RowAttributes.getElem?_replaceValue hreplace
      have hend : (r.attributeColumns state'.columnBegin state'.columnEnd).2 ≤ s.buffer.width := by
        rw [← hcolumns']
        exact r.clampedColumnInclusive_le _
      refine ⟨_, rfl, hcolumns', hlen.trans hlength', .inr ⟨_, _, rfl, hend, fun column => ?_⟩⟩
      rw [hget column, hlength', Nat.min_eq_left hend, hsame.attr]
      rfl

theorem row_incrementCircularBuffer (s : LinkedBuffer) (hs : s.buffer.Shaped)
    (fillAttributes : TextAttribute) :
    (s.incrementCircularBuffer fillAttributes).buffer.Shaped ∧
    (s.incrementCircularBuffer fillAttributes).buffer.height = s.buffer.height ∧
    ∀ z : ℤ, 0 ≤ z → z < s.buffer.height →
      ((s.incrementCircularBuffer fillAttributes).buffer.row z).attr =
        if z + 1 = s.buffer.height then List.replicate s.buffer.width fillAttributes
        else (s.buffer.row (z + 1)).attr := by
  obtain ⟨hbuffer, -, -⟩ := buffer_pruneHyperlinks s
  set b := (s.buffer.getRow 0).2.setRow 0 ((s.buffer.getRow 0).1.reset fillAttributes) with hb
  have heq : (s.incrementCircularBuffer fillAttributes).buffer = b.incrementFirstRow := by
    rw [incrementCircularBuffer, hbuffer]
  have hpos : (0 : ℤ) < s.buffer.height := by exact_mod_cast hs.height_pos
  have hfirst := hs.columnCount 0 le_rfl hpos
  have hshape : b.SameShape s.buffer := s.buffer.store_sameShape 0 _
  have hreset : ((s.buffer.getRow 0).1.reset fillAttributes).attr =
      List.replicate s.buffer.width fillAttributes := by
    rw [TextBuffer.getRow_fst, ← hfirst]
    rfl
  have hshaped : b.Shaped := by
    refine hs.store 0 ?_ ?_
    · rw [TextBuffer.getRow_fst]
      exact hfirst
    · rw [hreset, List.length_replicate]
  rw [heq]
  refine ⟨hshaped.incrementFirstRow, hshape.height, fun z hz hz' => ?_⟩
  have hlt := Int.emod_lt_of_pos (z + 1) hpos
  have hnonneg := Int.emod_nonneg (z + 1) hpos.ne'
  rw [TextBuffer.row_incrementFirstRow hshaped, TextBuffer.row_emod hshaped.height_pos, hshape.height, hb,
    TextBuffer.row_store hs.height_pos _ _ hnonneg hlt, Int.zero_emod]
  by_cases hlast : z + 1 = s.buffer.height
  · rw [if_pos hlast, hlast, Int.emod_self, if_pos rfl]
    exact hreset
  · rw [if_neg hlast, Int.emod_eq_of_lt (by omega) (by omega), if_neg (by omega)]

end LinkedBuffer

/-! ### Steps -/

namespace LinkState

variable {s : LinkState} {cwd : CodepointWidthDetector} {hash : List WChar → ℕ} {op : LinkOp}

/-- What holds in each state of a run in which no id dangles. -/
structure Inv (s : LinkState) : Prop where
  shaped : s.linked.buffer.Shaped
  noDangling : s.NoDangling
  cells_lt : ∀ y : ℤ, 0 ≤ y → y < s.linked.buffer.height → ∀ a ∈ (s.linked.buffer.row y).attr,
    a.hyperlinkId.toNat < s.linked.currentHyperlinkId.toNat
  current : s.linked.currentAttributes.hyperlinkId ≠ 0 →
    ∃ uri, s.page.current = some uri ∧
      ∀ uri', s.linked.hyperlinkMap.lookup s.linked.currentAttributes.hyperlinkId = some uri' →
        uri' = uri
  current_lt : s.linked.currentAttributes.hyperlinkId.toNat < s.linked.currentHyperlinkId.toNat
  custom_lt : ∀ key id, s.linked.hyperlinkCustomIdMap.lookup key = some id →
    id.toNat < s.linked.currentHyperlinkId.toNat
  starts : s.linked.currentHyperlinkId.toNat ≤ s.page.starts + 1

theorem inv_new (width height : ℕ) {defaultAttributes : TextAttribute}
    (hdefault : defaultAttributes.hyperlinkId = 0) (cursorSize : ℕ) :
    Inv { linked := .new width height defaultAttributes cursorSize } := by
  have hrow (y : ℤ) : ((TextBuffer.new width height defaultAttributes cursorSize).row y).attr =
      List.replicate (max width 1) defaultAttributes := rfl
  refine ⟨TextBuffer.shaped_new width height defaultAttributes cursorSize,
    fun y _ _ column a ha hne => ?_, fun y _ _ a ha => ?_, fun hne => absurd hdefault hne, ?_,
    fun key id h => ?_, le_rfl⟩
  · rw [LinkedBuffer.new, hrow] at ha
    rw [List.eq_of_mem_replicate (List.mem_of_getElem? ha)] at hne
    exact absurd hdefault hne
  · rw [LinkedBuffer.new, hrow] at ha
    rw [List.eq_of_mem_replicate ha, hdefault]
    exact Nat.one_pos
  · change defaultAttributes.hyperlinkId.toNat < 1
    rw [hdefault]
    exact Nat.one_pos
  · cases h

theorem Inv.startHyperlink (h : s.Inv) {uri params : List WChar}
    (hkeeps : s.KeepsLinks cwd hash (.startHyperlink uri params))
    (hstarts : s.page.starts + 1 < 65535) : (s.step cwd hash (.startHyperlink uri params)).Inv := by
  have hpos : 0 < s.linked.currentHyperlinkId.toNat := Nat.zero_lt_of_lt h.current_lt
  have hlt : s.linked.currentHyperlinkId.toNat < 65535 := Nat.lt_of_le_of_lt h.starts hstarts
  rcases LinkedBuffer.getHyperlinkId_cases hash s.linked uri params hpos hlt with
    ⟨hparams, id, hlookup, hid⟩ | ⟨-, customIds, hid, hcustom⟩
  · -- the custom id is known
    have heq : s.linked.startHyperlink hash uri params =
        { s.linked with
          currentAttributes := { s.linked.currentAttributes with hyperlinkId := id }
          hyperlinkMap := s.linked.hyperlinkMap.insert id uri } := by
      rw [LinkedBuffer.startHyperlink, hid]
      rfl
    rw [step, heq]
    refine ⟨h.shaped, fun y hy hy' column a ha hne => ?_, h.cells_lt, fun _ => ⟨uri, rfl, ?_⟩,
      h.custom_lt _ _ hlookup, h.custom_lt, Nat.le_succ_of_le h.starts⟩
    · obtain ⟨uri', hlookup', hcell⟩ := h.noDangling y hy hy' column a ha hne
      refine ⟨uri', ?_, hcell⟩
      unfold LinkedBuffer.getHyperlinkUriFromId at hlookup' ⊢
      rw [Table.lookup_insert_eq]
      split_ifs with hsame
      · have hkept := hkeeps hparams id hlookup y hy hy' a (List.mem_of_getElem? ha) hsame
          (hsame ▸ hne)
        rw [← hkept, ← hsame]
        exact hlookup'
      · exact hlookup'
    · intro uri' huri'
      rw [Table.lookup_insert_eq, if_pos rfl] at huri'
      exact (Option.some.inj huri').symm
  · -- the id is new
    have heq : s.linked.startHyperlink hash uri params =
        { s.linked with
          currentAttributes :=
            { s.linked.currentAttributes with hyperlinkId := s.linked.currentHyperlinkId }
          hyperlinkMap := s.linked.hyperlinkMap.insert s.linked.currentHyperlinkId uri
          hyperlinkCustomIdMap := customIds
          currentHyperlinkId := s.linked.currentHyperlinkId + 1 } := by
      rw [LinkedBuffer.startHyperlink, hid]
      rfl
    have hnext : (s.linked.currentHyperlinkId + 1).toNat = s.linked.currentHyperlinkId.toNat + 1 := by
      rw [UInt16.toNat_add]
      change (s.linked.currentHyperlinkId.toNat + 1) % 65536 = _
      omega
    rw [step, heq]
    refine ⟨h.shaped, fun y hy hy' column a ha hne => ?_, fun y hy hy' a ha => ?_,
      fun _ => ⟨uri, rfl, ?_⟩, ?_, fun key id hkey => ?_, ?_⟩
    · obtain ⟨uri', hlookup', hcell⟩ := h.noDangling y hy hy' column a ha hne
      refine ⟨uri', ?_, hcell⟩
      unfold LinkedBuffer.getHyperlinkUriFromId at hlookup' ⊢
      have hother : a.hyperlinkId ≠ s.linked.currentHyperlinkId := by
        intro hsame
        have hless := h.cells_lt y hy hy' a (List.mem_of_getElem? ha)
        rw [hsame] at hless
        exact lt_irrefl _ hless
      rw [Table.lookup_insert_eq, if_neg hother]
      exact hlookup'
    · have hless := h.cells_lt y hy hy' a ha
      change _ < (s.linked.currentHyperlinkId + 1).toNat
      omega
    · intro uri' huri'
      rw [Table.lookup_insert_eq, if_pos rfl] at huri'
      exact (Option.some.inj huri').symm
    · change s.linked.currentHyperlinkId.toNat < (s.linked.currentHyperlinkId + 1).toNat
      omega
    · change _ < (s.linked.currentHyperlinkId + 1).toNat
      rcases hcustom key id hkey with hold | rfl
      · have hless := h.custom_lt key id hold
        omega
      · omega
    · have hle := h.starts
      change (s.linked.currentHyperlinkId + 1).toNat ≤ s.page.starts + 1 + 1
      omega

theorem Inv.endHyperlink (h : s.Inv) : (s.step cwd hash .endHyperlink).Inv where
  shaped := h.shaped
  noDangling := h.noDangling
  cells_lt := h.cells_lt
  current hne := absurd rfl hne
  current_lt := Nat.zero_lt_of_lt h.current_lt
  custom_lt := h.custom_lt
  starts := h.starts

theorem Inv.lookup_current (h : s.Inv) (hne : s.linked.currentAttributes.hyperlinkId ≠ 0)
    (hentry : s.linked.hyperlinkMap.lookup s.linked.currentAttributes.hyperlinkId ≠ none) :
    ∃ uri, s.linked.hyperlinkMap.lookup s.linked.currentAttributes.hyperlinkId = some uri ∧
      s.page.current = some uri := by
  obtain ⟨uri, hcurrent, hsame⟩ := h.current hne
  obtain ⟨uri', huri'⟩ := Option.ne_none_iff_exists'.mp hentry
  rw [hsame uri' huri'] at huri'
  exact ⟨uri, huri', hcurrent⟩

theorem Inv.write (h : s.Inv) {y : ℤ} {state : RowWriteState}
    (hkeeps : s.KeepsLinks cwd hash (.write y state)) : (s.step cwd hash (.write y state)).Inv := by
  obtain ⟨r, hbuffer, hcolumns, hlength, hcells⟩ :=
    LinkedBuffer.replace_cases cwd s.linked h.shaped y s.linked.currentAttributes state
  have hshape := s.linked.buffer.store_sameShape y r
  have hrow {z : ℤ} (hz : 0 ≤ z) (hz' : z < s.linked.buffer.height) :=
    TextBuffer.row_store h.shaped.height_pos y r hz hz'
  rw [step]
  dsimp only
  rw [hbuffer]
  refine ⟨h.shaped.store y hcolumns hlength, fun z hz hz' column a ha hne => ?_,
    fun z hz hz' a ha => ?_, h.current, h.current_lt, h.custom_lt, h.starts⟩
  all_goals
    change z < ((s.linked.buffer.getRow y).2.setRow y r).height at hz'
    rw [hshape.height] at hz'
  · change (((s.linked.buffer.getRow y).2.setRow y r).row z).attr[column]? = some a at ha
    rw [hrow hz hz'] at ha
    by_cases hsame : z = y % s.linked.buffer.height
    · rw [if_pos hsame] at ha
      rcases hcells with ⟨-, hnone⟩ | ⟨columnBegin, columnEnd, hrange, -, hget⟩
      · exact absurd (hnone a (List.mem_of_getElem? ha)) hne
      · rw [hget] at ha
        have hpage : s.writtenCells y (some (columnBegin, columnEnd)) z column =
            if columnBegin ≤ column ∧ column < columnEnd then s.page.current
            else s.page.cells z column := if_pos hsame
        dsimp only
        rw [hrange, hpage]
        by_cases hinside : columnBegin ≤ column ∧ column < columnEnd
        · rw [if_pos hinside] at ha ⊢
          rw [← Option.some.inj ha] at hne ⊢
          exact h.lookup_current hne (hkeeps _ _ hrange (by omega) hne)
        · rw [if_neg hinside] at ha ⊢
          rw [← hsame] at ha
          exact h.noDangling z hz hz' column a ha hne
    · rw [if_neg hsame] at ha
      have hpage : s.writtenCells y (s.linked.replace cwd y s.linked.currentAttributes state).1 z
          column = s.page.cells z column := if_neg hsame
      dsimp only
      rw [hpage]
      exact h.noDangling z hz hz' column a ha hne
  · change a ∈ (((s.linked.buffer.getRow y).2.setRow y r).row z).attr at ha
    rw [hrow hz hz'] at ha
    by_cases hsame : z = y % s.linked.buffer.height
    · rw [if_pos hsame] at ha
      rcases hcells with ⟨-, hnone⟩ | ⟨columnBegin, columnEnd, -, -, hget⟩
      · rw [hnone a ha]
        exact Nat.zero_lt_of_lt h.current_lt
      · obtain ⟨column, hcolumn⟩ := List.mem_iff_getElem?.mp ha
        rw [hget] at hcolumn
        split_ifs at hcolumn
        · rw [← Option.some.inj hcolumn]
          exact h.current_lt
        · rw [← hsame] at hcolumn
          exact h.cells_lt z hz hz' a (List.mem_of_getElem? hcolumn)
    · rw [if_neg hsame] at ha
      exact h.cells_lt z hz hz' a ha

theorem Inv.incrementCircularBuffer (h : s.Inv) {fillAttributes : Option TextAttribute}
    (hkeeps : s.KeepsLinks cwd hash (.incrementCircularBuffer fillAttributes)) :
    (s.step cwd hash (.incrementCircularBuffer fillAttributes)).Inv := by
  obtain ⟨hshaped, hheight, hrow⟩ :=
    s.linked.row_incrementCircularBuffer h.shaped (s.fillWith fillAttributes)
  obtain ⟨-, hattributes, hid⟩ := LinkedBuffer.buffer_pruneHyperlinks s.linked
  have hlookup (id : UInt16) : (s.linked.incrementCircularBuffer
      (s.fillWith fillAttributes)).hyperlinkMap.lookup id =
        if id ∈ LinkedBuffer.obsoleteHyperlinks s.linked.buffer then none
        else s.linked.hyperlinkMap.lookup id := s.linked.lookup_pruneHyperlinks id
  have hcurrentId : (s.linked.incrementCircularBuffer
      (s.fillWith fillAttributes)).currentHyperlinkId = s.linked.currentHyperlinkId := hid
  have hcurrentAttributes : (s.linked.incrementCircularBuffer
      (s.fillWith fillAttributes)).currentAttributes = s.linked.currentAttributes := hattributes
  have hfill (hne : (s.fillWith fillAttributes).hyperlinkId ≠ 0) : fillAttributes = none := by
    cases fillAttributes with
    | none => rfl
    | some attributes => exact absurd rfl hne
  rw [step]
  refine ⟨hshaped, fun z hz hz' column a ha hne => ?_, fun z hz hz' a ha => ?_, fun hne => ?_, ?_,
    fun key id hkey => ?_, ?_⟩
  · dsimp only at hz' ha ⊢
    rw [hheight] at hz'
    rw [hrow z hz hz'] at ha
    rw [LinkedBuffer.getHyperlinkUriFromId, hlookup]
    by_cases hlast : z + 1 = s.linked.buffer.height
    · rw [if_pos hlast] at ha ⊢
      rw [List.eq_of_mem_replicate (List.mem_of_getElem? ha)] at hne ⊢
      obtain rfl := hfill hne
      obtain ⟨hentry, hnot⟩ := hkeeps hne
      rw [fillWith, if_neg hnot]
      exact h.lookup_current hne hentry
    · rw [if_neg hlast] at ha ⊢
      rw [if_neg (LinkedBuffer.not_mem_obsoleteHyperlinks (by omega) (by omega)
        (List.mem_of_getElem? ha))]
      exact h.noDangling (z + 1) (by omega) (by omega) column a ha hne
  · dsimp only at hz' ha ⊢
    rw [hheight] at hz'
    rw [hrow z hz hz'] at ha
    rw [hcurrentId]
    split_ifs at ha
    · rw [List.eq_of_mem_replicate ha]
      cases fillAttributes with
      | none => exact h.current_lt
      | some attributes => exact Nat.zero_lt_of_lt h.current_lt
    · exact h.cells_lt (z + 1) (by omega) (by omega) a ha
  · dsimp only at hne ⊢
    rw [hcurrentAttributes] at hne ⊢
    obtain ⟨uri, hcurrent, hsame⟩ := h.current hne
    refine ⟨uri, hcurrent, fun uri' huri' => ?_⟩
    rw [hlookup] at huri'
    split_ifs at huri'
    exact hsame uri' huri'
  · dsimp only
    rw [hcurrentAttributes, hcurrentId]
    exact h.current_lt
  · dsimp only at hkey ⊢
    rw [hcurrentId]
    exact h.custom_lt key id (LinkedBuffer.lookup_custom_pruneHyperlinks hkey)
  · dsimp only
    rw [hcurrentId]
    exact h.starts

theorem Inv.step (h : s.Inv) (hkeeps : s.KeepsLinks cwd hash op)
    (hstarts : (s.step cwd hash op).page.starts < 65535) : (s.step cwd hash op).Inv := by
  cases op with
  | startHyperlink uri params => exact h.startHyperlink hkeeps hstarts
  | endHyperlink => exact h.endHyperlink
  | write y state => exact h.write hkeeps
  | incrementCircularBuffer fillAttributes => exact h.incrementCircularBuffer hkeeps

theorem Inv.not_noDangling (h : s.Inv) (hkeeps : ¬s.KeepsLinks cwd hash op)
    (hstarts : (s.step cwd hash op).page.starts < 65535) : ¬(s.step cwd hash op).NoDangling := by
  have hpos : (0 : ℤ) < s.linked.buffer.height := by exact_mod_cast h.shaped.height_pos
  intro hno
  cases op with
  | endHyperlink => exact hkeeps trivial
  | startHyperlink uri params =>
    refine hkeeps fun hparams id hlookup y hy hy' a ha hid hne => ?_
    have hidPos : 0 < s.linked.currentHyperlinkId.toNat := Nat.zero_lt_of_lt h.current_lt
    have hlt : s.linked.currentHyperlinkId.toNat < 65535 := Nat.lt_of_le_of_lt h.starts hstarts
    obtain ⟨column, hcolumn⟩ := List.mem_iff_getElem?.mp ha
    obtain ⟨uri', hentry, hcell⟩ := h.noDangling y hy hy' column a hcolumn (hid ▸ hne)
    rcases LinkedBuffer.getHyperlinkId_cases hash s.linked uri params hidPos hlt with
      ⟨-, id', hlookup', hget⟩ | ⟨hnew, -⟩
    · obtain rfl : id = id' := Option.some.inj (hlookup.symm.trans hlookup')
      have heq : s.linked.startHyperlink hash uri params =
          { s.linked with
            currentAttributes := { s.linked.currentAttributes with hyperlinkId := id }
            hyperlinkMap := s.linked.hyperlinkMap.insert id uri } := by
        rw [LinkedBuffer.startHyperlink, hget]
        rfl
      rw [LinkState.step, heq] at hno
      obtain ⟨uri'', hentry', hcell'⟩ := hno y hy hy' column a hcolumn (hid ▸ hne)
      have hinsert : (s.linked.hyperlinkMap.insert id uri).lookup a.hyperlinkId = some uri'' := hentry'
      have hsame : uri' = uri'' := Option.some.inj (hcell.symm.trans hcell')
      rw [hid, Table.lookup_insert_eq, if_pos rfl] at hinsert
      rw [← hid, ← hsame.trans (Option.some.inj hinsert).symm]
      exact hentry
    · rw [hnew hparams] at hlookup
      cases hlookup
  | write y state =>
    obtain ⟨r, hbuffer, -, -, hcells⟩ :=
      LinkedBuffer.replace_cases cwd s.linked h.shaped y s.linked.currentAttributes state
    refine hkeeps fun columnBegin columnEnd hrange hlt hne hentry => ?_
    rcases hcells with ⟨hnone, -⟩ | ⟨columnBegin', columnEnd', hrange', hend, hget⟩
    · rw [hnone] at hrange
      cases hrange
    · rw [hrange', Option.some.injEq, Prod.mk.injEq] at hrange
      obtain ⟨rfl, rfl⟩ := hrange
      have hlt' := Int.emod_lt_of_pos y hpos
      have hnonneg := Int.emod_nonneg y hpos.ne'
      have hcell : (((s.linked.buffer.getRow y).2.setRow y r).row
          (y % s.linked.buffer.height)).attr[columnBegin']? = some s.linked.currentAttributes := by
        rw [TextBuffer.row_store h.shaped.height_pos y r hnonneg hlt', if_pos rfl, hget,
          if_pos ⟨le_rfl, hlt⟩]
      rw [LinkState.step] at hno
      dsimp only at hno
      rw [hbuffer] at hno
      have hheight : y % (s.linked.buffer.height : ℤ) <
          (((s.linked.buffer.getRow y).2.setRow y r).height : ℤ) := by
        rw [(s.linked.buffer.store_sameShape y r).height]
        exact hlt'
      obtain ⟨uri, hentry', -⟩ := hno (y % s.linked.buffer.height) hnonneg hheight columnBegin' _
        hcell hne
      have hlookup : s.linked.hyperlinkMap.lookup s.linked.currentAttributes.hyperlinkId = some uri :=
        hentry'
      rw [hentry] at hlookup
      cases hlookup
  | incrementCircularBuffer fillAttributes =>
    cases fillAttributes with
    | some attributes => exact hkeeps trivial
    | none =>
      refine hkeeps fun hne => ?_
      obtain ⟨-, hheight, hrow⟩ :=
        s.linked.row_incrementCircularBuffer h.shaped s.linked.currentAttributes
      have hcell : ((s.linked.incrementCircularBuffer s.linked.currentAttributes).buffer.row
          (s.linked.buffer.height - 1)).attr[0]? = some s.linked.currentAttributes := by
        rw [hrow _ (by omega) (by omega), if_pos (by omega), List.getElem?_replicate,
          if_pos h.shaped.width_pos]
      obtain ⟨uri, hentry, -⟩ := hno (s.linked.buffer.height - 1) (by omega)
        (by change (_ : ℤ) < (s.linked.incrementCircularBuffer s.linked.currentAttributes).buffer.height
            rw [hheight]
            omega) 0 _ hcell hne
      have hlookup : s.linked.pruneHyperlinks.hyperlinkMap.lookup
          s.linked.currentAttributes.hyperlinkId = some uri := hentry
      rw [LinkedBuffer.lookup_pruneHyperlinks] at hlookup
      split_ifs at hlookup with hmem
      exact ⟨by rw [hlookup]; exact Option.some_ne_none uri, hmem⟩

end LinkState

/-! ### Runs -/

/-- How many of the operations start a hyperlink. -/
def hyperlinkStarts (ops : List LinkOp) : ℕ :=
  ops.countP fun op => match op with
    | .startHyperlink _ _ => true
    | _ => false

theorem along_starts (cwd : CodepointWidthDetector) (hash : List WChar → ℕ) (ops : List LinkOp)
    (s : LinkState) (h : s.page.starts + hyperlinkStarts ops < 65535) :
    Along (LinkState.step cwd hash)
      (fun s op => (s.step cwd hash op).page.starts < 65535) s ops := by
  induction ops generalizing s with
  | nil => trivial
  | cons op ops ih =>
    have hstep : (s.step cwd hash op).page.starts + hyperlinkStarts ops =
        s.page.starts + hyperlinkStarts (op :: ops) := by
      cases op with
      | startHyperlink uri params =>
        change s.page.starts + 1 + _ = _
        rw [hyperlinkStarts, hyperlinkStarts, List.countP_cons_of_pos rfl]
        omega
      | _ => rfl
    exact ⟨by omega, ih _ (by omega)⟩

/-- In a run with fewer than 65535 starts no id dangles in any state, if and only if no operation
writes an id that has been pruned, or takes a custom id whose key belongs to cells with another URI. -/
theorem noDangling_iff (cwd : CodepointWidthDetector) (hash : List WChar → ℕ) (width height : ℕ)
    (defaultAttributes : TextAttribute) (hdefault : defaultAttributes.hyperlinkId = 0)
    (cursorSize : ℕ) (ops : List LinkOp) (hstarts : hyperlinkStarts ops < 65535) :
    (∀ pre, pre <+: ops → (pre.foldl (LinkState.step cwd hash)
      { linked := .new width height defaultAttributes cursorSize }).NoDangling) ↔
    Along (LinkState.step cwd hash) (LinkState.KeepsLinks cwd hash)
      { linked := .new width height defaultAttributes cursorSize } ops :=
  forall_isPrefix_iff_along_of_enabled (fun _ h => h.noDangling) ops
    (along_starts cwd hash ops _ (by simpa using hstarts))
    (fun _ _ _ h hstarts hkeeps => h.step hkeeps hstarts)
    (fun _ _ _ h hstarts hkeeps => h.not_noDangling hkeeps hstarts)
    (LinkState.inv_new width height hdefault cursorSize)

/-- A hyperlink that has been ended is pruned when its row is recycled. -/
theorem noDangling_iff_recycled :
    ([.startHyperlink [0x75] [], .write 1 { text := [0x61, 0x62] }, .endHyperlink,
        .incrementCircularBuffer none, .incrementCircularBuffer none].foldl
      (LinkState.step .ofMarks fun _ => 0) { linked := .new 3 2 {} 0 }).NoDangling :=
  (noDangling_iff .ofMarks (fun _ => 0) 3 2 {} rfl 0
    [.startHyperlink [0x75] [], .write 1 { text := [0x61, 0x62] }, .endHyperlink,
      .incrementCircularBuffer none, .incrementCircularBuffer none] (by decide)).mpr
    ⟨fun hparams => absurd rfl hparams, fun _ _ _ _ _ => by decide +kernel, trivial,
      fun hne => absurd rfl hne, fun hne => absurd rfl hne, trivial⟩ _ (List.prefix_refl _)

/-- A hyperlink that has not been ended is pruned with its row, and written again behind that. -/
theorem not_noDangling_recycled :
    ¬∀ pre, pre <+: [.startHyperlink [0x75] [], .write 0 { text := [0x61] },
        .incrementCircularBuffer (some {}), .write 0 { text := [0x62] }] →
      (pre.foldl (LinkState.step .ofMarks fun _ => 0) { linked := .new 3 2 {} 0 }).NoDangling := by
  intro h
  obtain ⟨uri, hentry, -⟩ := h _ (List.prefix_refl _) 0 (by decide) (by decide +kernel) 0
    { hyperlinkId := 1 } (by decide +kernel) (by decide)
  have hnone : ([.startHyperlink [0x75] [], .write 0 { text := [0x61] },
      .incrementCircularBuffer (some {}), .write 0 { text := [0x62] }].foldl
      (LinkState.step .ofMarks fun _ => 0)
      { linked := .new 3 2 {} 0 }).linked.getHyperlinkUriFromId 1 = none := by
    decide +kernel
  rw [hnone] at hentry
  cases hentry

end IntelligentTerminal.Buffer
