import IntelligentTerminal.Buffer.RleReads

/-!
# The attributes of a row, run by run

`RowAttributes` is the list that `ROW::_attr` encodes. Whatever changes the runs does to the list
what `RowAttributes` says, and leaves no two runs that could be one.

Source: `src/inc/til/rle.h`, lines 457-535 and 706-1022.
-/

namespace IntelligentTerminal.Buffer

open IntelligentTerminal (Run)

/-- A change of the attributes of a row. -/
inductive AttributesOp
  | replace (startIndex endIndex : ℕ) (value : TextAttribute)
  | replaceValues (oldValue newValue : TextAttribute)
  | resizeTrailingExtent (newSize : ℕ)

namespace AttributesOp

/-- The change of the list. -/
def onList (attr : RowAttributes) : AttributesOp → Option RowAttributes
  | replace startIndex endIndex value => attr.replaceValue startIndex endIndex value
  | replaceValues oldValue newValue =>
    some (attr.map fun value => if value = oldValue then newValue else value)
  | resizeTrailingExtent newSize => some (attr.resizeTrailingExtent newSize)

/-- The change of the runs; `size_type` has 16 bits. -/
def onRuns (rle : BasicRle TextAttribute) : AttributesOp → Option (BasicRle TextAttribute)
  | replace startIndex endIndex value =>
    rle.replace 16 startIndex endIndex [⟨value, min endIndex rle.totalLength - startIndex⟩]
  | replaceValues oldValue newValue => rle.replaceValues 16 oldValue newValue
  | resizeTrailingExtent newSize => rle.resizeTrailingExtent 16 newSize

/-- For an empty range a run without length would be stored, and without values there is none to
repeat. -/
def Allowed (attr : RowAttributes) : AttributesOp → Prop
  | replace startIndex endIndex _ => startIndex < min endIndex attr.length
  | replaceValues .. => True
  | resizeTrailingExtent newSize => attr ≠ [] ∧ newSize < 2 ^ 16

end AttributesOp

/-- Changes that are allowed lead from one list to the other. -/
inductive Changes : RowAttributes → List AttributesOp → RowAttributes → Prop
  | nil (attr : RowAttributes) : Changes attr [] attr
  | cons {attr mid attr' : RowAttributes} {op : AttributesOp} {ops : List AttributesOp}
      (hallowed : op.Allowed attr) (hop : op.onList attr = some mid)
      (hops : Changes mid ops attr') : Changes attr (op :: ops) attr'

namespace BasicRle

structure Encodes (rle : BasicRle TextAttribute) (attr : RowAttributes) : Prop where
  valid : rle.Valid 16
  compact : Run.Compact rle.runs
  decode : Run.decode rle.runs = attr

variable {T : Type} {bits newSize : ℕ} {runs runs' : List (Run T)} {it : ℕ} {f : ℕ → ℕ}

theorem setLength_value (h : setLength runs it f = some runs') :
    runs'.map Run.value = runs.map Run.value := by
  rw [setLength] at h
  split_ifs at h
  obtain rfl := Option.some.inj h
  refine List.ext_getElem? fun j => ?_
  rw [List.getElem?_map, List.getElem?_map, List.getElem?_modify]
  cases runs[j]? <;> simp [apply_ite Run.value]

theorem resizeTrailingExtent_value {rle s : BasicRle T}
    (h : rle.resizeTrailingExtent bits newSize = some s) :
    s.runs.map Run.value <+: rle.runs.map Run.value := by
  rw [resizeTrailingExtent] at h
  split_ifs at h
  · obtain rfl := Option.some.inj h
    exact List.nil_prefix
  · obtain ⟨runs, hruns, h⟩ := Option.bind_eq_some_iff.mp h
    obtain rfl := Option.some.inj h
    rw [← setLength_value hruns, erase, List.drop_length, List.append_nil]
    exact (List.take_prefix _ runs).map _
  · obtain ⟨runs, hruns, h⟩ := Option.bind_eq_some_iff.mp h
    obtain rfl := Option.some.inj h
    rw [← setLength_value hruns]
  · obtain rfl := Option.some.inj h
    exact List.prefix_rfl

variable {rle : BasicRle TextAttribute} {attr attr' : RowAttributes}

namespace Encodes

theorem length (h : rle.Encodes attr) : attr.length = rle.totalLength := by
  rw [← h.decode, h.valid.length_decode]

theorem replace (h : rle.Encodes attr) {startIndex endIndex : ℕ} (value : TextAttribute)
    (hlt : startIndex < min endIndex attr.length)
    (hattr : attr.replaceValue startIndex endIndex value = some attr') :
    ∃ rle', rle.replace 16 startIndex endIndex
      [⟨value, min endIndex rle.totalLength - startIndex⟩] = some rle' ∧ rle'.Encodes attr' := by
  rw [h.length] at hlt
  have hclamp : (if endIndex > rle.totalLength then rle.totalLength else endIndex) =
      min endIndex rle.totalLength := by
    split_ifs <;> omega
  have hfits := h.valid.fits
  have hrun : Run.Compact [⟨value, min endIndex rle.totalLength - startIndex⟩] :=
    ⟨by simpa using hlt, by simp⟩
  obtain ⟨l, r, t, s, hcompact, htake, hdrop, ht, hs, heq⟩ := replaceUnchecked_eq h.compact
    h.valid.total_eq hfits hrun hlt.le (Nat.min_le_right _ _) (by simp; omega)
  have hdecode : Run.decode s = attr' := by
    rw [RowAttributes.replaceValue, RowAttributes.replace] at hattr
    simp only [h.length, if_neg (Nat.not_lt.mpr hlt.le)] at hattr
    rw [← Option.some.inj hattr, hs.decode_eq, ht.decode_eq, htake, hdrop, h.decode]
    simp
  refine ⟨⟨s, Run.total s⟩, ?_, ⟨hcompact.length_pos, rfl, ?_⟩, hcompact, hdecode⟩
  · simp only [BasicRle.replace, hclamp, if_neg (Nat.not_lt.mpr hlt.le), heq]
  · rw [hs.total_eq, ht.total_eq, ← Run.length_decode l, ← Run.length_decode r, htake, hdrop]
    simp [h.valid.length_decode]
    omega

theorem step (h : rle.Encodes attr) {op : AttributesOp} (hallowed : op.Allowed attr)
    (hop : op.onList attr = some attr') :
    ∃ rle', op.onRuns rle = some rle' ∧ rle'.Encodes attr' := by
  cases op with
  | replace startIndex endIndex value => exact h.replace value hallowed hop
  | replaceValues oldValue newValue =>
    obtain ⟨rle', hrle, hvalid, hcompact, hdecode⟩ :=
      replaceValues_spec h.valid oldValue newValue
    exact ⟨rle', hrle, hvalid, hcompact, by rw [hdecode, h.decode]; exact Option.some.inj hop⟩
  | resizeTrailingExtent newSize =>
    obtain ⟨hne, hfits⟩ := hallowed
    have hlast := List.getLast?_eq_some_getLast hne
    have hlast' : attr.getLast hne ∈ (Run.decode rle.runs).getLast? := by rwa [h.decode]
    obtain ⟨rle', hrle, hvalid, hdecode⟩ := resizeTrailingExtent_spec h.valid hlast' hfits
    refine ⟨rle', hrle, hvalid, ⟨hvalid.length_pos, ?_⟩, ?_⟩
    · exact h.compact.distinct.prefix (resizeTrailingExtent_value hrle)
    · rw [hdecode, h.decode, ← Option.some.inj hop, RowAttributes.resizeTrailingExtent, hlast,
        h.length]

end Encodes

/-- Allowed changes of the list are changes of the runs that encode it. -/
theorem attributes_encoded {ops : List AttributesOp} (h : rle.Encodes attr)
    (hops : Changes attr ops attr') :
    ∃ rle', ops.foldlM AttributesOp.onRuns rle = some rle' ∧ rle'.Encodes attr' := by
  induction hops generalizing rle with
  | nil attr => exact ⟨rle, rfl, h⟩
  | cons hallowed hop _ ih =>
    obtain ⟨mid, hmid, henc⟩ := h.step hallowed hop
    obtain ⟨rle', hrle, henc⟩ := ih henc
    exact ⟨rle', by rw [List.foldlM_cons, hmid]; exact hrle, henc⟩

/-- A row of three columns, of which one is written before it becomes wider. -/
theorem attributes_encoded_wider : ∃ rle',
    [.replace 1 2 { attrs := 1 }, .resizeTrailingExtent 5].foldlM AttributesOp.onRuns
      ⟨[⟨{}, 3⟩], 3⟩ = some rle' ∧
    rle'.Encodes [{}, { attrs := 1 }, {}, {}, {}] :=
  attributes_encoded ⟨⟨by simp, rfl, by decide⟩, ⟨by simp, by simp⟩, rfl⟩
    (.cons (show 1 < 2 by decide) rfl (.cons ⟨nofun, by decide⟩ rfl (.nil _)))

end BasicRle

end IntelligentTerminal.Buffer
