import IntelligentTerminal.Data.Grouping
import IntelligentTerminal.Text.GraphemeNext

/-!
# Grapheme clusters from the end of a text

`CodepointWidthDetector::GraphemePrev` returns the cluster before a position. It runs the pairwise
join automaton of `GraphemeNext` in the other direction. `TextBuffer::GraphemeNext` and
`TextBuffer::GraphemePrev` call them with a fresh state.

Source: `src/types/CodepointWidthDetector.cpp`, lines 722-752, 777-801, 899-994, 1062-1122 and
1168-1210; `src/buffer/out/textBuffer.cpp`, lines 390-410.
-/

namespace IntelligentTerminal.Text

open IntelligentTerminal.Buffer (WChar)

/-- `utf16PrevOrFFFD`, on the units before `it`, the nearest first. -/
def utf16PrevOrFFFD : List WChar → Option (Char32 × List WChar)
  | [] => none
  | c :: rest =>
    if c &&& 0xF800 = 0xD800 then
      match rest with
      | [] => some (0xfffd, [])
      | c1 :: rest' =>
        if c &&& 0x400 ≠ 0 ∧ c1 &&& 0xFC00 = 0xD800 then
          some ((c1.toUInt32 <<< 10) - 0x35FDC00 + c.toUInt32, rest')
        else some (0xfffd, rest)
    else some (c.toUInt32, rest)

namespace CodepointWidthDetector

variable (d : CodepointWidthDetector)

/-- The loop of `_graphemePrev` from the label `fetchNext` on: the units before the cluster, the
width, the state and the class of the first codepoint. -/
def fetchPrev : ℕ → List WChar → ℕ → ℤ → ℕ → List WChar × ℕ × ℤ × ℕ
  | 0, rest, width, state, trail => (rest, width, state, trail)
  | fuel + 1, rest, width, state, trail =>
    match utf16PrevOrFFFD rest with
    | none => (rest, width, state, trail)
    | some (cp, next) =>
      let lead := d.ucdLookup cp
      let state := ucdGraphemeJoins state lead trail
      if ucdGraphemeDone state then (rest, width, bitNot 0, 0)
      else
        let width := width + d.graphemeWidth cp lead
        if next = [] then (next, width, state, lead)
        else fetchPrev fuel next width state lead

/-- The units before a position, the nearest first. -/
def unitsBefore (str : StringView) (clusterEnd : ℕ) : List WChar :=
  (str.units.take (clusterEnd - str.data)).reverse

/-- `CodepointWidthDetector::_graphemePrev`. -/
def graphemePrevGraphemes (s : GraphemeState) (str : StringView) : Bool × GraphemeState :=
  let clusterEnd := resetIfOutOfRange str.data str.end_ str.end_ s.beg
  let rest := unitsBefore str clusterEnd
  match utf16PrevOrFFFD rest with
  | none => (false, s)
  | some (cp, next) =>
    let (after, width, state, trail) :=
      if s.state ≠ 0 then d.fetchPrev rest.length rest s.width (bitNot s.state) s.last
      else
        let trail := d.ucdLookup cp
        let width := 0 + d.graphemeWidth cp trail
        if next = [] then (next, width, 0, trail) else d.fetchPrev next.length next width 0 trail
    (after ≠ [],
      { beg := clusterEnd - (rest.length - after.length)
        len := rest.length - after.length
        width := if width > 2 then 2 else width
        state := bitNot state
        last := trail })

/-- The loop of `_graphemePrevWcswidth`: the units before the cluster and its width. -/
def wcswidthPrevLoop : ℕ → List WChar → ℕ → List WChar × ℕ
  | 0, rest, width => (rest, width)
  | fuel + 1, rest, width =>
    match utf16PrevOrFFFD rest with
    | none => (rest, width)
    | some (cp, next) =>
      let width := width + d.characterWidth (d.ucdLookup cp)
      if width ≠ 0 ∨ next = [] then (next, width) else wcswidthPrevLoop fuel next width

def graphemePrevWcswidth (s : GraphemeState) (str : StringView) : Bool × GraphemeState :=
  let clusterEnd := resetIfOutOfRange str.data str.end_ str.end_ s.beg
  let rest := unitsBefore str clusterEnd
  if rest = [] then (false, s)
  else
    let (after, width, delayedCompletion) :=
      if s.state = 0 then
        let (after, width) := d.wcswidthPrevLoop rest.length rest 0
        (after, width, if width ≠ 0 ∧ after = [] then 1 else 0)
      else (rest, s.width, 0)
    (after ≠ [],
      { s with
        beg := clusterEnd - (rest.length - after.length)
        len := rest.length - after.length
        width, state := delayedCompletion })

def graphemePrevConsole (s : GraphemeState) (str : StringView) :
    Bool × GraphemeState × CodepointWidthDetector :=
  let clusterEnd := resetIfOutOfRange str.data str.end_ str.end_ s.beg
  let rest := unitsBefore str clusterEnd
  match utf16PrevOrFFFD rest with
  | none => (false, s, d)
  | some (cp, next) =>
    if s.state = 0 then
      let (width, d) := d.consoleWidth cp
      let delayedCompletion : ℤ := if next = [] then 1 else 0
      (delayedCompletion = 0,
        { s with
          beg := clusterEnd - (rest.length - next.length), len := rest.length - next.length, width,
          state := delayedCompletion }, d)
    else (true, { s with beg := clusterEnd, len := 0, state := 0 }, d)

def graphemePrev (s : GraphemeState) (str : StringView) :
    Bool × GraphemeState × CodepointWidthDetector :=
  match d.mode with
  | .graphemes =>
    let (more, s) := d.graphemePrevGraphemes s str
    (more, s, d)
  | .wcswidth =>
    let (more, s) := d.graphemePrevWcswidth s str
    (more, s, d)
  | .console => d.graphemePrevConsole s str

/-- `TextBuffer::GraphemeNext`, with the state that the call leaves. -/
def textGraphemeNext (chars : StringView) (position : ℕ) :
    ℕ × GraphemeState × CodepointWidthDetector :=
  let (_, state, d) := d.graphemeNext { beg := chars.data + position } chars
  (position + state.len, state, d)

/-- `TextBuffer::GraphemePrev`, with the state that the call leaves. -/
def textGraphemePrev (chars : StringView) (position : ℕ) :
    ℕ × GraphemeState × CodepointWidthDetector :=
  let (_, state, d) := d.graphemePrev { beg := chars.data + position } chars
  (position - state.len, state, d)

/-- The clusters that repeated calls of `TextBuffer::GraphemeNext` find from a position on, up to the
end of the text. -/
def nextClustersN (chars : StringView) : ℕ → CodepointWidthDetector → ℕ → List (Piece ℕ)
  | 0, _, _ => []
  | fuel + 1, d, position =>
    if position < chars.units.length then
      let (next, state, d) := d.textGraphemeNext chars position
      ⟨position, next - position, state.width⟩ :: nextClustersN chars fuel d next
    else []

/-- The clusters that repeated calls of `TextBuffer::GraphemePrev` find from a position on, up to the
start of the text. -/
def prevClustersN (chars : StringView) : ℕ → CodepointWidthDetector → ℕ → List (Piece ℕ)
  | 0, _, _ => []
  | fuel + 1, d, position =>
    if 0 < position then
      let (prev, state, d) := d.textGraphemePrev chars position
      ⟨prev, position - prev, state.width⟩ :: prevClustersN chars fuel d prev
    else []

/-- The clusters from the start of a text. -/
def nextClusters (chars : StringView) : List (Piece ℕ) :=
  nextClustersN chars chars.units.length d 0

/-- The clusters from the end of a text. -/
def prevClusters (chars : StringView) : List (Piece ℕ) :=
  prevClustersN chars chars.units.length d chars.units.length

end CodepointWidthDetector

/-! ### Reading codepoints backwards -/

section Codepoints

variable {before rest : List WChar} {cp : Char32}

theorem utf16PrevOrFFFD_single (c : WChar) : utf16PrevOrFFFD [c] =
    some (if c &&& 0xF800 = 0xD800 then 0xfffd else c.toUInt32, []) := by
  by_cases hsurrogate : c &&& 0xF800 = 0xD800 <;> simp [utf16PrevOrFFFD, hsurrogate]

theorem utf16PrevOrFFFD_cons_cons (c c1 : WChar) (rest : List WChar) :
    utf16PrevOrFFFD (c :: c1 :: rest) =
      if c &&& 0xF800 = 0xD800 ∧ c &&& 0x400 ≠ 0 ∧ c1 &&& 0xFC00 = 0xD800 then
        some ((c1.toUInt32 <<< 10) - 0x35FDC00 + c.toUInt32, rest)
      else some (if c &&& 0xF800 = 0xD800 then 0xfffd else c.toUInt32, c1 :: rest) := by
  by_cases hsurrogate : c &&& 0xF800 = 0xD800
  · by_cases hpair : c &&& 0x400 ≠ 0 ∧ c1 &&& 0xFC00 = 0xD800
    · simp [utf16PrevOrFFFD, hsurrogate, hpair.1, hpair.2]
    · simp only [utf16PrevOrFFFD, hsurrogate, if_true, true_and, if_neg hpair]
  · simp [utf16PrevOrFFFD, hsurrogate]

theorem and_of_and {c mask value : WChar} (small : WChar) (h : c &&& mask = value)
    (hsmall : mask &&& small = small) : c &&& small = value &&& small := by
  rw [← h, UInt16.and_assoc, hsmall]

theorem bit_cases (c : WChar) : c &&& 0x400 = 0 ∨ c &&& 0x400 = 0x400 := by
  have hbit := Nat.and_two_pow c.toNat 10
  cases htest : c.toNat.testBit 10 with
  | false =>
    left
    refine UInt16.toNat_inj.mp ?_
    rw [UInt16.toNat_and]
    rw [htest] at hbit
    exact hbit
  | true =>
    right
    refine UInt16.toNat_inj.mp ?_
    rw [UInt16.toNat_and]
    rw [htest] at hbit
    exact hbit

theorem surrogate_mask (c : WChar) : c &&& 0xFC00 = (c &&& 0xF800) ||| (c &&& 0x400) := by
  refine UInt16.toNat_inj.mp ?_
  rw [UInt16.toNat_or, UInt16.toNat_and, UInt16.toNat_and, UInt16.toNat_and,
    ← Nat.and_or_distrib_left]
  rfl

theorem trail_iff {c : WChar} :
    c &&& 0xFC00 = 0xDC00 ↔ c &&& 0xF800 = 0xD800 ∧ c &&& 0x400 ≠ 0 := by
  constructor
  · intro h
    have hhigh := and_of_and 0xF800 h rfl
    have hbit := and_of_and 0x400 h rfl
    exact ⟨hhigh, by rw [hbit]; decide⟩
  · rintro ⟨hhigh, hbit⟩
    rw [surrogate_mask, hhigh, (bit_cases c).resolve_left hbit]
    rfl

theorem lead_iff {c : WChar} :
    c &&& 0xFC00 = 0xD800 ↔ c &&& 0xF800 = 0xD800 ∧ c &&& 0x400 = 0 := by
  constructor
  · intro h
    exact ⟨and_of_and 0xF800 h rfl, and_of_and 0x400 h rfl⟩
  · rintro ⟨hhigh, hbit⟩
    exact lead_of_surrogate hhigh hbit

theorem codepoints_single (c : WChar) :
    codepoints [c] = [(if c &&& 0xF800 = 0xD800 then 0xfffd else c.toUInt32, 1)] := by
  rw [codepoints_of_next (utf16NextOrFFFD_single c), codepoints_nil]
  rfl

theorem codepoints_of_prev (h : utf16PrevOrFFFD before = some (cp, rest)) :
    (∃ n, 0 < n ∧ n ≤ before.length ∧ rest = before.drop n) ∧
      codepoints before.reverse =
        codepoints rest.reverse ++ [(cp, before.length - rest.length)] := by
  match before with
  | [] => exact absurd h (by simp [utf16PrevOrFFFD])
  | [c] =>
    rw [utf16PrevOrFFFD_single] at h
    obtain ⟨rfl, rfl⟩ : _ = cp ∧ [] = rest := by simpa using h
    refine ⟨⟨1, Nat.one_pos, le_rfl, rfl⟩, ?_⟩
    rw [List.reverse_singleton, codepoints_single, List.reverse_nil, codepoints_nil]
    rfl
  | c :: c1 :: tail =>
    rw [utf16PrevOrFFFD_cons_cons] at h
    by_cases hpair : c &&& 0xF800 = 0xD800 ∧ c &&& 0x400 ≠ 0 ∧ c1 &&& 0xFC00 = 0xD800
    · -- a pair
      rw [if_pos hpair] at h
      obtain ⟨rfl, rfl⟩ : _ = cp ∧ tail = rest := by simpa using h
      obtain ⟨hsurrogate, htrail, hlead⟩ := hpair
      have hboth : c1 &&& 0xF800 = 0xD800 ∧ c1 &&& 0x400 = 0 ∧ c &&& 0xFC00 = 0xDC00 :=
        ⟨(lead_iff.mp hlead).1, (lead_iff.mp hlead).2, trail_iff.mpr ⟨hsurrogate, htrail⟩⟩
      have hnosplit : ¬ SplitsPair tail.reverse [c1, c] := by
        rintro ⟨-, -, c2, hc2, -, htrail2⟩
        obtain rfl : c1 = c2 := by simpa using hc2
        rw [hlead] at htrail2
        exact absurd htrail2 (by decide)
      have hread : codepoints [c1, c] = [((c1.toUInt32 <<< 10) - 0x35FDC00 + c.toUInt32, 2)] := by
        have hnext : utf16NextOrFFFD [c1, c] =
            some ((c1.toUInt32 <<< 10) - 0x35FDC00 + c.toUInt32, []) := by
          rw [utf16NextOrFFFD_cons_cons, if_pos hboth]
        rw [codepoints_of_next hnext, codepoints_nil]
        rfl
      refine ⟨⟨2, by omega, by simp, rfl⟩, ?_⟩
      rw [show (c :: c1 :: tail).reverse = tail.reverse ++ [c1, c] by simp,
        codepoints_append hnosplit, hread, List.length_cons, List.length_cons,
        show tail.length + 1 + 1 - tail.length = 2 by omega]
    · rw [if_neg hpair] at h
      obtain ⟨rfl, rfl⟩ : _ = cp ∧ c1 :: tail = rest := by simpa using h
      have hnosplit : ¬ SplitsPair (c1 :: tail).reverse [c] := by
        rintro ⟨c', hc', c2, hc2, hlead, htrail⟩
        obtain rfl : c1 = c' := by simpa using hc'
        obtain rfl : c = c2 := by simpa using hc2
        exact hpair ⟨(trail_iff.mp htrail).1, (trail_iff.mp htrail).2, hlead⟩
      refine ⟨⟨1, Nat.one_pos, by simp, rfl⟩, ?_⟩
      rw [List.reverse_cons, codepoints_append hnosplit, codepoints_single]
      simp

theorem utf16PrevOrFFFD_eq_none : utf16PrevOrFFFD before = none ↔ before = [] := by
  match before with
  | [] => simp [utf16PrevOrFFFD]
  | [c] => simp [utf16PrevOrFFFD_single]
  | c :: c1 :: rest =>
    rw [utf16PrevOrFFFD_cons_cons]
    split_ifs <;> simp

/-- The codepoints before a position, the nearest first. -/
def codepointsBefore (before : List WChar) : List (Char32 × ℕ) := (codepoints before.reverse).reverse

theorem codepointsBefore_nil : codepointsBefore [] = [] := by
  rw [codepointsBefore, List.reverse_nil, codepoints_nil, List.reverse_nil]

theorem codepointsBefore_eq_nil : codepointsBefore before = [] ↔ before = [] := by
  rw [codepointsBefore, List.reverse_eq_nil_iff, codepoints_eq_nil, List.reverse_eq_nil_iff]

theorem codepointsBefore_of_prev (h : utf16PrevOrFFFD before = some (cp, rest)) :
    ∃ n, 0 < n ∧ n ≤ before.length ∧ rest = before.drop n ∧ before.length - rest.length = n ∧
      codepointsBefore before = (cp, n) :: codepointsBefore rest := by
  obtain ⟨⟨n, hpos, hle, hrest⟩, hread⟩ := codepoints_of_prev h
  have hn : before.length - rest.length = n := by
    rw [hrest, List.length_drop]
    omega
  refine ⟨n, hpos, hle, hrest, hn, ?_⟩
  rw [codepointsBefore, hread, hn, List.reverse_append, codepointsBefore]
  rfl

end Codepoints

/-! ### Clusters as groups of codepoints -/

/-- The units of some codepoints. -/
def unitCount (group : List (Char32 × ℕ)) : ℕ := (group.map Prod.snd).sum

/-- The clusters that some groups of codepoints are, from a position on. -/
def clustersFrom (width : List (Char32 × ℕ) → ℕ) : ℕ → List (List (Char32 × ℕ)) → List (Piece ℕ)
  | _, [] => []
  | position, group :: groups =>
    ⟨position, unitCount group, width group⟩ ::
      clustersFrom width (position + unitCount group) groups

/-- The clusters that some groups of codepoints are, from a position backwards. -/
def clustersBefore (width : List (Char32 × ℕ) → ℕ) : ℕ → List (List (Char32 × ℕ)) → List (Piece ℕ)
  | _, [] => []
  | position, group :: groups =>
    ⟨position - unitCount group, unitCount group, width group⟩ ::
      clustersBefore width (position - unitCount group) groups

namespace CodepointWidthDetector

variable (d : CodepointWidthDetector)

/-- The width that a codepoint adds to a cluster. -/
def codepointWidth (cp : Char32) : ℕ :=
  match d.mode with
  | .graphemes => d.graphemeWidth cp (d.ucdLookup cp)
  | .wcswidth => d.characterWidth (d.ucdLookup cp)
  | .console => (d.consoleWidth cp).1

def clusterWidth (group : List (Char32 × ℕ)) : ℕ :=
  let width := (group.map fun c => d.codepointWidth c.1).sum
  if d.mode = .graphemes then min width 2 else width

/-- The clusters of `GraphemeNext`. -/
def nextGrouper : Grouper (Char32 × ℕ) OpenCluster where
  start c := (d.segmenter.start d.fallbackCache c.1).1
  extend cluster c := d.segmenter.extend cluster c.1

/-- The clusters of `GraphemePrev`, on the codepoints from the end. -/
def prevGrouper : Grouper (Char32 × ℕ) OpenCluster :=
  match d.mode with
  | .graphemes =>
    { start := fun c => ⟨min (d.graphemeWidth c.1 (d.ucdLookup c.1)) 2, 0, d.ucdLookup c.1⟩
      extend := fun cluster c =>
        let state := ucdGraphemeJoins cluster.state (d.ucdLookup c.1) cluster.last
        if ucdGraphemeDone state then none
        else some ⟨min (cluster.width + d.graphemeWidth c.1 (d.ucdLookup c.1)) 2, state,
          d.ucdLookup c.1⟩ }
  | .wcswidth =>
    { start := fun c => ⟨d.characterWidth (d.ucdLookup c.1), 0, 0⟩
      extend := fun cluster c =>
        if cluster.width ≠ 0 then none else some ⟨d.characterWidth (d.ucdLookup c.1), 0, 0⟩ }
  | .console =>
    { start := fun c => ⟨(d.consoleWidth c.1).1, 1, 0⟩
      extend := fun _ _ => none }

variable {d} {k : ℕ} {d' : CodepointWidthDetector} {str : StringView}

theorem clusterWidth_reverse (group : List (Char32 × ℕ)) :
    d.clusterWidth group.reverse = d.clusterWidth group := by
  unfold clusterWidth
  rw [List.map_reverse, List.sum_reverse]

theorem width_nextGrouper (c : Char32 × ℕ) (r : List (Char32 × ℕ)) :
    (d.nextGrouper.takeGroup (d.nextGrouper.start c) r).2.1.width =
      d.clusterWidth (c :: (d.nextGrouper.takeGroup (d.nextGrouper.start c) r).1) := by
  refine d.nextGrouper.takeGroup_spec (P := fun g v => v.width = d.clusterWidth g) (g := [c]) ?_ r ?_
  · intro g v y v' h hy
    simp only [nextGrouper, segmenter, clusterWidth, codepointWidth] at h hy ⊢
    obtain hmode | hmode | hmode := d.mode_cases
    · simp only [hmode] at h hy ⊢
      split_ifs at hy
      rw [← Option.some.inj hy]
      simp only [List.map_append, List.sum_append, List.map_cons, List.map_nil, List.sum_singleton,
        if_true] at h ⊢
      omega
    · simp only [hmode] at h hy ⊢
      split_ifs at hy with hzero
      rw [← Option.some.inj hy]
      simp only [List.map_append, List.sum_append, List.map_cons, List.map_nil, List.sum_singleton,
        reduceCtorEq, if_false] at h ⊢
      omega
    · simp only [hmode] at hy
      exact absurd hy (by simp)
  · obtain hmode | hmode | hmode := d.mode_cases
    · simp [nextGrouper, segmenter, clusterWidth, codepointWidth, hmode]
    · simp [nextGrouper, segmenter, clusterWidth, codepointWidth, hmode]
    · simp only [nextGrouper, start_console hmode]
      simp [clusterWidth, codepointWidth, hmode]

theorem width_prevGrouper (c : Char32 × ℕ) (r : List (Char32 × ℕ)) :
    (d.prevGrouper.takeGroup (d.prevGrouper.start c) r).2.1.width =
      d.clusterWidth (c :: (d.prevGrouper.takeGroup (d.prevGrouper.start c) r).1) := by
  refine d.prevGrouper.takeGroup_spec (P := fun g v => v.width = d.clusterWidth g) (g := [c]) ?_ r ?_
  · intro g v y v' h hy
    simp only [prevGrouper, clusterWidth, codepointWidth] at h hy ⊢
    obtain hmode | hmode | hmode := d.mode_cases
    · simp only [hmode] at h hy ⊢
      split_ifs at hy
      rw [← Option.some.inj hy]
      simp only [List.map_append, List.sum_append, List.map_cons, List.map_nil, List.sum_singleton,
        if_true] at h ⊢
      omega
    · simp only [hmode] at h hy ⊢
      split_ifs at hy with hzero
      rw [← Option.some.inj hy]
      simp only [List.map_append, List.sum_append, List.map_cons, List.map_nil, List.sum_singleton,
        reduceCtorEq, if_false] at h ⊢
      omega
    · simp only [hmode] at hy
      exact absurd hy (by simp)
  · obtain hmode | hmode | hmode := d.mode_cases <;>
      simp [prevGrouper, clusterWidth, codepointWidth, hmode]

/-! ### What a call finds -/

theorem unitCount_cons (c : Char32 × ℕ) (group : List (Char32 × ℕ)) :
    unitCount (c :: group) = c.2 + unitCount group := List.sum_cons

theorem extendAll_eq (cluster : OpenCluster) (symbols : List (Char32 × ℕ)) :
    d.segmenter.extendAll cluster symbols =
      (unitCount (d.nextGrouper.takeGroup cluster symbols).1,
        (d.nextGrouper.takeGroup cluster symbols).2) := by
  induction symbols generalizing cluster with
  | nil => rfl
  | cons c symbols ih =>
    rw [Segmenter.extendAll, Grouper.takeGroup]
    have hextend : d.nextGrouper.extend cluster c = d.segmenter.extend cluster c.1 := rfl
    rw [hextend]
    cases h : d.segmenter.extend cluster c.1 with
    | none => rfl
    | some cluster' =>
      simp only
      rw [ih, unitCount_cons]

theorem graphemeNext_group {cp : Char32} {next : List WChar}
    (hnext : utf16NextOrFFFD (str.units.drop k) = some (cp, next)) :
    ∃ group rest more s, d.nextGrouper.groups (codepoints (str.units.drop k)) =
        group :: d.nextGrouper.groups rest ∧
      d.graphemeNext { beg := str.data + k } str =
        (more, s, { d with fallbackCache := (d.segmenter.start d.fallbackCache cp).2 }) ∧
      s.len = unitCount group ∧ s.width = d.clusterWidth group ∧ 0 < unitCount group ∧
      k + unitCount group ≤ str.units.length ∧
      codepoints (str.units.drop (k + unitCount group)) = rest := by
  have hlt : k < str.units.length := by
    by_contra hge
    rw [List.drop_eq_nil_of_le (Nat.not_lt.mp hge)] at hnext
    exact absurd hnext (by simp [utf16NextOrFFFD])
  obtain ⟨n, hpos, hle, hdrop⟩ := utf16NextOrFFFD_eq_drop hnext
  have hn : (str.units.drop k).length - next.length = n := by
    rw [hdrop, List.length_drop (l := str.units.drop k)]
    omega
  have hptr : resetIfOutOfRange str.data str.end_ str.data (str.data + k + 0) = str.data + k :=
    resetIfOutOfRange_inside _ (Nat.le_add_right _ _) (by rw [StringView.end_]; omega)
  obtain ⟨more, s, hcall, length, cluster, behind, -, hfound, hall⟩ :=
    d.graphemeNext_start (s := { beg := str.data + k }) hptr hnext ⟨rfl, rfl⟩
  rw [extendAll_eq, Prod.mk.injEq] at hall
  obtain ⟨hlength, hrest⟩ := hall
  have hwidth := d.width_nextGrouper (cp, n) (codepoints next)
  have hcodepoints := codepoints_of_next hnext
  rw [hn] at hfound hcodepoints
  have hcount : unitCount ((cp, n) ::
      (d.nextGrouper.takeGroup (d.nextGrouper.start (cp, n)) (codepoints next)).1) = n + length := by
    rw [unitCount_cons, ← hlength]
    rfl
  have hbound := hfound.length_le
  rw [List.length_drop] at hbound
  have hgroups := (congrArg d.nextGrouper.groups hcodepoints).trans (Grouper.groups_cons _ _)
  refine ⟨_, _, more, s, hgroups, hcall, ?_, ?_, ?_, ?_, ?_⟩
  · rw [hfound.len, hcount]
  · rw [hfound.width, ← hwidth]
    exact congrArg OpenCluster.width (Prod.mk.inj hrest).1.symm
  · rw [hcount]
    omega
  · rw [hcount]
    omega
  · rw [hcount, ← List.drop_drop, hfound.codepoints_drop]
    exact (Prod.mk.inj hrest).2.symm

section Prev

variable {rest : List WChar}

theorem fetchPrev_eq (hmode : d.mode = .graphemes) (fuel : ℕ) (hfuel : rest.length ≤ fuel)
    (hrest : rest ≠ []) (width : ℕ) (cluster : OpenCluster)
    (hwidth : min width 2 = cluster.width) :
    ∃ width' state' last', d.fetchPrev fuel rest width cluster.state cluster.last =
        (rest.drop (unitCount (d.prevGrouper.takeGroup cluster (codepointsBefore rest)).1), width',
          state', last') ∧
      unitCount (d.prevGrouper.takeGroup cluster (codepointsBefore rest)).1 ≤ rest.length ∧
      codepointsBefore
          (rest.drop (unitCount (d.prevGrouper.takeGroup cluster (codepointsBefore rest)).1)) =
        (d.prevGrouper.takeGroup cluster (codepointsBefore rest)).2.2 ∧
      min width' 2 = (d.prevGrouper.takeGroup cluster (codepointsBefore rest)).2.1.width := by
  induction fuel generalizing rest width cluster with
  | zero => exact absurd (List.length_eq_zero_iff.mp (by omega)) hrest
  | succ fuel ih =>
    obtain ⟨⟨cp, next⟩, hprev⟩ := Option.ne_none_iff_exists'.mp (mt utf16PrevOrFFFD_eq_none.mp hrest)
    obtain ⟨n, hpos, hle, hdrop, hn, hcodepoints⟩ := codepointsBefore_of_prev hprev
    have hextend : d.prevGrouper.extend cluster (cp, n) =
        if ucdGraphemeDone (ucdGraphemeJoins cluster.state (d.ucdLookup cp) cluster.last) then none
        else some ⟨min (cluster.width + d.graphemeWidth cp (d.ucdLookup cp)) 2,
          ucdGraphemeJoins cluster.state (d.ucdLookup cp) cluster.last, d.ucdLookup cp⟩ := by
      rw [prevGrouper, hmode]
    unfold fetchPrev
    simp only [hprev]
    rw [hcodepoints, Grouper.takeGroup, hextend]
    split_ifs with hdone hend
    · -- the codepoint belongs to the cluster before
      refine ⟨_, _, _, rfl, Nat.zero_le _, hcodepoints, hwidth⟩
    · -- the text starts with the codepoint
      have hlength : n = rest.length := by
        rw [hend] at hn
        simpa using hn.symm
      simp only [hend, codepointsBefore_nil, Grouper.takeGroup, unitCount_cons]
      have hall : n + unitCount [] = rest.length := hlength
      refine ⟨_, _, _, by rw [hall, List.drop_length], hall.le, ?_, ?_⟩
      · rw [hall, List.drop_length, codepointsBefore_nil]
      · omega
    · have hlt : next.length < rest.length := by
        rw [hdrop, List.length_drop]
        omega
      obtain ⟨width', state', last', hfetch, hbound, hbefore, hwidth'⟩ :=
        ih (by omega) hend (width + d.graphemeWidth cp (d.ucdLookup cp))
          ⟨min (cluster.width + d.graphemeWidth cp (d.ucdLookup cp)) 2,
            ucdGraphemeJoins cluster.state (d.ucdLookup cp) cluster.last, d.ucdLookup cp⟩
          (by dsimp only; omega)
      simp only [unitCount_cons]
      rw [← List.drop_drop, ← hdrop]
      refine ⟨width', state', last', hfetch, ?_, hbefore, hwidth'⟩
      rw [hdrop, List.length_drop] at hbound
      rw [← hdrop] at hbound
      omega

theorem wcswidthPrevLoop_eq (hmode : d.mode = .wcswidth) (fuel : ℕ) (hfuel : rest.length ≤ fuel)
    {cp : Char32} {n : ℕ} {r : List (Char32 × ℕ)} (hrest : codepointsBefore rest = (cp, n) :: r) :
    d.wcswidthPrevLoop fuel rest 0 =
        (rest.drop (n + unitCount (d.prevGrouper.takeGroup (d.prevGrouper.start (cp, n)) r).1),
          (d.prevGrouper.takeGroup (d.prevGrouper.start (cp, n)) r).2.1.width) ∧
      n + unitCount (d.prevGrouper.takeGroup (d.prevGrouper.start (cp, n)) r).1 ≤ rest.length ∧
      codepointsBefore
          (rest.drop (n + unitCount (d.prevGrouper.takeGroup (d.prevGrouper.start (cp, n)) r).1)) =
        (d.prevGrouper.takeGroup (d.prevGrouper.start (cp, n)) r).2.2 := by
  have hne : rest ≠ [] := by
    rintro rfl
    rw [codepointsBefore_nil] at hrest
    exact absurd hrest (by simp)
  induction fuel generalizing rest cp n r with
  | zero => exact absurd (List.length_eq_zero_iff.mp (by omega)) hne
  | succ fuel ih =>
    obtain ⟨⟨cp', next⟩, hprev⟩ := Option.ne_none_iff_exists'.mp (mt utf16PrevOrFFFD_eq_none.mp hne)
    obtain ⟨n', hpos, hle, hdrop, hn, hcodepoints⟩ := codepointsBefore_of_prev hprev
    rw [hrest] at hcodepoints
    obtain ⟨⟨rfl, rfl⟩, rfl⟩ : (cp = cp' ∧ n = n') ∧ r = codepointsBefore next := by
      simpa using hcodepoints
    have hstart : ∀ c, d.prevGrouper.start c = ⟨d.characterWidth (d.ucdLookup c.1), 0, 0⟩ := by
      intro c
      rw [prevGrouper, hmode]
    have hextend : ∀ cluster c, d.prevGrouper.extend cluster c =
        if cluster.width ≠ 0 then none else some (d.prevGrouper.start c) := by
      intro cluster c
      rw [hstart, prevGrouper, hmode]
    rw [wcswidthPrevLoop, hprev]
    simp only [Nat.zero_add]
    by_cases hend : d.characterWidth (d.ucdLookup cp) ≠ 0 ∨ next = []
    · -- the codepoint is the first of the cluster
      have htake : d.prevGrouper.takeGroup (d.prevGrouper.start (cp, n)) (codepointsBefore next) =
          ([], d.prevGrouper.start (cp, n), codepointsBefore next) := by
        cases hbefore : codepointsBefore next with
        | nil => rfl
        | cons c before =>
          have hwidth : (d.prevGrouper.start (cp, n)).width ≠ 0 := by
            rw [hstart]
            refine hend.resolve_right fun hnil => ?_
            rw [hnil, codepointsBefore_nil] at hbefore
            exact absurd hbefore (by simp)
          rw [Grouper.takeGroup, hextend, if_pos hwidth]
      have hcount : n + unitCount [] = n := rfl
      rw [if_pos hend, htake]
      simp only [hcount, ← hdrop, hstart]
      exact ⟨trivial, hle, trivial⟩
    · rw [not_or, not_not] at hend
      obtain ⟨hzero, hend⟩ := hend
      have hlt : next.length < rest.length := by
        rw [hdrop, List.length_drop]
        omega
      obtain ⟨c, before, hbefore⟩ := List.exists_cons_of_ne_nil (mt codepointsBefore_eq_nil.mp hend)
      obtain ⟨hloop, hbound, hrest'⟩ := ih (by omega) hbefore hend
      have hwidth : ¬ (d.prevGrouper.start (cp, n)).width ≠ 0 := by
        rw [hstart]
        exact not_not.mpr hzero
      have htake : d.prevGrouper.takeGroup (d.prevGrouper.start (cp, n)) (codepointsBefore next) =
          (c :: (d.prevGrouper.takeGroup (d.prevGrouper.start c) before).1,
            (d.prevGrouper.takeGroup (d.prevGrouper.start c) before).2) := by
        rw [hbefore, Grouper.takeGroup, hextend, if_neg hwidth]
      rw [if_neg (by rw [not_or, not_not]; exact ⟨hzero, hend⟩), htake, hzero]
      simp only [unitCount_cons]
      rw [← List.drop_drop, ← hdrop]
      refine ⟨hloop, ?_, hrest'⟩
      rw [hdrop, List.length_drop] at hbound
      have hbound' : c.2 + unitCount (d.prevGrouper.takeGroup (d.prevGrouper.start c) before).1 ≤
          rest.length - n := hbound
      omega

end Prev

/-- Two detectors find the same widths; they may remember different ones of them. -/
structure SameWidths (d' d : CodepointWidthDetector) : Prop where
  eq : ∃ cache, d' = { d with fallbackCache := cache }
  width : ∀ cp, (d'.consoleWidth cp).1 = (d.consoleWidth cp).1

namespace SameWidths

variable {d' d'' : CodepointWidthDetector}

theorem refl (d : CodepointWidthDetector) : d.SameWidths d := ⟨⟨_, rfl⟩, fun _ => rfl⟩

theorem trans (h : d''.SameWidths d') (h' : d'.SameWidths d) : d''.SameWidths d := by
  obtain ⟨⟨cache, rfl⟩, hwidth⟩ := h
  obtain ⟨⟨cache', rfl⟩, hwidth'⟩ := h'
  exact ⟨⟨cache, rfl⟩, fun cp => (hwidth cp).trans (hwidth' cp)⟩

theorem consoleWidth (d : CodepointWidthDetector) (cp : Char32) :
    (d.consoleWidth cp).2.SameWidths d := by
  refine ⟨d.consoleWidth_snd cp, fun cp' => ?_⟩
  obtain ⟨lookup, cache, method, mode, ambiguousWidth⟩ := d
  unfold CodepointWidthDetector.consoleWidth checkFallbackViaCache
  cases method with
  | none =>
    dsimp only
    split_ifs <;> rfl
  | some method =>
    dsimp only
    by_cases hthree : ucdToCharacterWidth (lookup cp) = 3
    · rw [if_pos hthree]
      cases hcached : cache cp with
      | some width => rfl
      | none =>
        dsimp only
        by_cases hthree' : ucdToCharacterWidth (lookup cp') = 3
        · rw [if_pos hthree', if_pos hthree']
          by_cases hcp : cp' = cp
          · subst hcp
            rw [Function.update_self, hcached]
          · rw [Function.update_of_ne hcp]
            cases cache cp' <;> rfl
        · rw [if_neg hthree', if_neg hthree']
    · rw [if_neg hthree]

theorem nextGrouper_eq (h : d'.SameWidths d) : d'.nextGrouper = d.nextGrouper := by
  obtain ⟨⟨cache, rfl⟩, hwidth⟩ := h
  obtain hmode | hmode | hmode := d.mode_cases
  · simp only [nextGrouper, segmenter, hmode]
    rfl
  · simp only [nextGrouper, segmenter, hmode]
    rfl
  · simp only [nextGrouper, start_console hmode,
      start_console (d := { d with fallbackCache := cache }) hmode, hwidth]
    simp only [segmenter, hmode]

theorem prevGrouper_eq (h : d'.SameWidths d) : d'.prevGrouper = d.prevGrouper := by
  obtain ⟨⟨cache, rfl⟩, hwidth⟩ := h
  obtain hmode | hmode | hmode := d.mode_cases
  · simp only [prevGrouper, hmode]
    rfl
  · simp only [prevGrouper, hmode]
    rfl
  · rw [hmode] at hwidth
    simp only [prevGrouper, hmode, hwidth]

theorem clusterWidth_eq (h : d'.SameWidths d) : d'.clusterWidth = d.clusterWidth := by
  obtain ⟨⟨cache, rfl⟩, hwidth⟩ := h
  funext group
  obtain hmode | hmode | hmode := d.mode_cases
  · simp only [clusterWidth, codepointWidth, hmode]
    rfl
  · simp only [clusterWidth, codepointWidth, hmode]
    rfl
  · rw [hmode] at hwidth
    simp only [clusterWidth, codepointWidth, hmode, hwidth]

theorem start (d : CodepointWidthDetector) (cp : Char32) :
    SameWidths { d with fallbackCache := (d.segmenter.start d.fallbackCache cp).2 } d := by
  by_cases hmode : d.mode = .console
  · have h := consoleWidth d cp
    obtain ⟨cache, hcache⟩ := d.consoleWidth_snd cp
    rw [start_console hmode]
    dsimp only
    rw [hcache] at h ⊢
    exact h
  · rw [memo_of_not_console hmode]
    exact refl d

end SameWidths

theorem graphemePrev_group (hk : 0 < k) (hkLe : k ≤ str.units.length) :
    ∃ group rest more s d', d.prevGrouper.groups (codepointsBefore (str.units.take k).reverse) =
        group :: d.prevGrouper.groups rest ∧
      d.graphemePrev { beg := str.data + k } str = (more, s, d') ∧ d'.SameWidths d ∧
      s.len = unitCount group ∧ s.width = d.clusterWidth group ∧ 0 < unitCount group ∧
      unitCount group ≤ k ∧
      codepointsBefore (str.units.take (k - unitCount group)).reverse = rest := by
  have hptr : resetIfOutOfRange str.data str.end_ str.end_ (str.data + k) = str.data + k :=
    resetIfOutOfRange_inside _ (Nat.le_add_right _ _) (by rw [StringView.end_]; omega)
  have hlength : (str.units.take k).reverse.length = k := by
    rw [List.length_reverse, List.length_take_of_le hkLe]
  have hbefore : unitsBefore str (str.data + k) = (str.units.take k).reverse := by
    rw [unitsBefore, Nat.add_sub_cancel_left]
  have hne : (str.units.take k).reverse ≠ [] := List.ne_nil_of_length_pos (by omega)
  have htake : ∀ j, (str.units.take k).reverse.drop j = (str.units.take (k - j)).reverse := by
    intro j
    rw [List.drop_reverse, List.length_take_of_le hkLe, List.take_take,
      Nat.min_eq_left (Nat.sub_le k j)]
  generalize (str.units.take k).reverse = rest at *
  obtain ⟨⟨cp, next⟩, hprev⟩ := Option.ne_none_iff_exists'.mp (mt utf16PrevOrFFFD_eq_none.mp hne)
  obtain ⟨n, hpos, hle, hdrop, hn, hcodepoints⟩ := codepointsBefore_of_prev hprev
  have hwidth := d.width_prevGrouper (cp, n) (codepointsBefore next)
  have hgroups := (congrArg d.prevGrouper.groups hcodepoints).trans (Grouper.groups_cons _ _)
  have hcount := unitCount_cons (cp, n)
    (d.prevGrouper.takeGroup (d.prevGrouper.start (cp, n)) (codepointsBefore next)).1
  dsimp only at hcount
  set t := d.prevGrouper.takeGroup (d.prevGrouper.start (cp, n)) (codepointsBefore next) with ht
  -- it is enough that the call leaves the units before the group and its width
  suffices hcall : ∃ more s d', d.graphemePrev { beg := str.data + k } str = (more, s, d') ∧
      d'.SameWidths d ∧ s.len = n + unitCount t.1 ∧ s.width = t.2.1.width ∧
      n + unitCount t.1 ≤ k ∧ codepointsBefore (rest.drop (n + unitCount t.1)) = t.2.2 by
    obtain ⟨more, s, d', hcall, hsame, hlen, hsWidth, hbound, hbehind⟩ := hcall
    refine ⟨_, _, more, s, d', hgroups, hcall, hsame, ?_, hsWidth.trans hwidth, ?_, ?_, ?_⟩
    · rw [hcount, hlen]
    · rw [hcount]
      omega
    · rw [hcount]
      exact hbound
    · rw [hcount, ← htake]
      exact hbehind
  obtain hmode | hmode | hmode := d.mode_cases
  · have hstart : d.prevGrouper.start (cp, n) =
        ⟨min (d.graphemeWidth cp (d.ucdLookup cp)) 2, 0, d.ucdLookup cp⟩ := by
      rw [prevGrouper, hmode]
    simp only [graphemePrev, hmode, graphemePrevGraphemes, hptr, hbefore, hprev, ne_eq,
      not_true_eq_false, if_false]
    by_cases hend : next = []
    · -- the codepoint is the first of the text
      have hn' : n = rest.length := by
        rw [hend] at hn
        simpa using hn.symm
      have ht' : t = ([], d.prevGrouper.start (cp, n), []) := by
        rw [ht, hend, codepointsBefore_nil]
        rfl
      rw [if_pos hend, ht', hstart, hend]
      refine ⟨_, _, d, rfl, SameWidths.refl d, ?_, ?_, ?_, ?_⟩
      · rw [hn']
        rfl
      · simp only [Nat.zero_add, clamp_eq]
      · rw [hn', hlength]
        exact Nat.le_refl k
      · rw [hn', show unitCount [] = 0 from rfl, Nat.add_zero, List.drop_length,
          codepointsBefore_nil]
    · obtain ⟨width', state', last', hfetch, hbound, hbehind, hwidth'⟩ :=
        fetchPrev_eq hmode next.length le_rfl hend
          (0 + d.graphemeWidth cp (d.ucdLookup cp)) (d.prevGrouper.start (cp, n))
          (by rw [hstart, Nat.zero_add])
      rw [← ht] at hfetch hbound hbehind hwidth'
      rw [hstart] at hfetch
      simp only at hfetch
      rw [if_neg hend, hfetch]
      have hdropAll : next.drop (unitCount t.1) = rest.drop (n + unitCount t.1) := by
        rw [hdrop, List.drop_drop]
      have hnext : next.length = k - n := by
        rw [hdrop, List.length_drop, hlength]
      refine ⟨_, _, d, rfl, SameWidths.refl d, ?_, ?_, ?_, ?_⟩
      · simp only [List.length_drop, hlength, hnext]
        omega
      · simp only [clamp_eq, hwidth']
      · omega
      · rw [← hdropAll, hbehind]
  · obtain ⟨hloop, hbound, hbehind⟩ := wcswidthPrevLoop_eq hmode rest.length le_rfl hcodepoints
    rw [← ht] at hloop hbound hbehind
    simp only [graphemePrev, hmode, graphemePrevWcswidth, hptr, hbefore, hne, if_false, if_true,
      hloop]
    refine ⟨_, _, d, rfl, SameWidths.refl d, ?_, rfl, ?_, hbehind⟩
    · simp only [List.length_drop]
      omega
    · rw [← hlength]
      exact hbound
  · have hextend : ∀ cluster c, d.prevGrouper.extend cluster c = none := by
      intro cluster c
      rw [prevGrouper, hmode]
    have ht' : t = ([], d.prevGrouper.start (cp, n), codepointsBefore next) := by
      rw [ht]
      cases codepointsBefore next with
      | nil => rfl
      | cons c r => rw [Grouper.takeGroup, hextend]
    have hstart : d.prevGrouper.start (cp, n) = ⟨(d.consoleWidth cp).1, 1, 0⟩ := by
      rw [prevGrouper, hmode]
    simp only [graphemePrev, hmode, graphemePrevConsole, hptr, hbefore, hprev, if_true, ht', hstart]
    refine ⟨_, _, _, rfl, SameWidths.consoleWidth d cp, hn, rfl, ?_, ?_⟩
    · rw [← hlength]
      exact hle
    · rw [show n + unitCount [] = n from rfl, ← hdrop]

/-! ### What repeated calls find -/

theorem nextClustersN_eq (chars : StringView) (fuel : ℕ)
    (hsame : d'.SameWidths d) (hfuel : chars.units.length ≤ k + fuel) :
    nextClustersN chars fuel d' k =
      clustersFrom d.clusterWidth k (d.nextGrouper.groups (codepoints (chars.units.drop k))) := by
  induction fuel generalizing d' k with
  | zero =>
    have hnil : chars.units.drop k = [] := List.drop_eq_nil_of_le hfuel
    rw [hnil, codepoints_nil]
    rfl
  | succ fuel ih =>
    rw [nextClustersN]
    by_cases hk : k < chars.units.length
    · have hne : chars.units.drop k ≠ [] := by
        rw [ne_eq, List.drop_eq_nil_iff]
        omega
      obtain ⟨⟨cp, next⟩, hnext⟩ := Option.ne_none_iff_exists'.mp (mt utf16NextOrFFFD_eq_none.mp hne)
      obtain ⟨group, rest, more, s, hgroups, hcall, hlen, hwidth, hpos, hle, hrest⟩ :=
        graphemeNext_group (d := d') hnext
      rw [hsame.nextGrouper_eq] at hgroups
      rw [hsame.clusterWidth_eq] at hwidth
      have hbehind := ih ((SameWidths.start d' cp).trans hsame) (k := k + s.len) (by omega)
      rw [hlen, hrest] at hbehind
      rw [if_pos hk, hgroups, clustersFrom, ← hbehind, textGraphemeNext, hcall]
      simp only [hlen, hwidth, Nat.add_sub_cancel_left]
    · rw [if_neg hk, List.drop_eq_nil_of_le (Nat.not_lt.mp hk), codepoints_nil]
      rfl

theorem nextClusters_eq (d : CodepointWidthDetector) (chars : StringView) :
    d.nextClusters chars =
      clustersFrom d.clusterWidth 0 (d.nextGrouper.groups (codepoints chars.units)) := by
  have h := nextClustersN_eq chars chars.units.length (SameWidths.refl d) (k := 0)
    (Nat.le_add_left _ _)
  rwa [List.drop_zero] at h

theorem prevClustersN_eq (chars : StringView) (fuel : ℕ)
    (hsame : d'.SameWidths d) (hk : k ≤ chars.units.length) (hfuel : k ≤ fuel) :
    prevClustersN chars fuel d' k = clustersBefore d.clusterWidth k
      (d.prevGrouper.groups (codepointsBefore (chars.units.take k).reverse)) := by
  induction fuel generalizing d' k with
  | zero =>
    rw [Nat.le_zero.mp hfuel, List.take_zero, List.reverse_nil, codepointsBefore_nil]
    rfl
  | succ fuel ih =>
    rw [prevClustersN]
    by_cases hpos : 0 < k
    · obtain ⟨group, rest, more, s, d'', hgroups, hcall, hsame', hlen, hwidth, hpos', hle, hrest⟩ :=
        graphemePrev_group (d := d') hpos hk
      rw [hsame.prevGrouper_eq] at hgroups
      rw [hsame.clusterWidth_eq] at hwidth
      have hbehind := ih (hsame'.trans hsame) (k := k - s.len) (by omega) (by omega)
      rw [hlen, hrest] at hbehind
      rw [if_pos hpos, hgroups, clustersBefore, ← hbehind, textGraphemePrev, hcall]
      simp only [hlen, hwidth, Nat.sub_sub_self hle]
    · rw [if_neg hpos, Nat.eq_zero_of_not_pos hpos, List.take_zero, List.reverse_nil,
        codepointsBefore_nil]
      rfl

theorem clustersFrom_append (width : List (Char32 × ℕ) → ℕ) (position : ℕ)
    (gs hs : List (List (Char32 × ℕ))) :
    clustersFrom width position (gs ++ hs) =
      clustersFrom width position gs ++ clustersFrom width (position + unitCount gs.flatten) hs := by
  induction gs generalizing position with
  | nil => rfl
  | cons g gs ih =>
    have hcount : unitCount (g :: gs).flatten = unitCount g + unitCount gs.flatten := by
      rw [List.flatten_cons, unitCount, List.map_append, List.sum_append]
      rfl
    rw [List.cons_append, clustersFrom, ih, clustersFrom, List.cons_append, hcount, Nat.add_assoc]

theorem unitCount_reverse (group : List (Char32 × ℕ)) : unitCount group.reverse = unitCount group := by
  rw [unitCount, List.map_reverse, List.sum_reverse]
  rfl

theorem reverse_clustersBefore (n : ℕ) (gs : List (List (Char32 × ℕ))) :
    (clustersBefore d.clusterWidth (n + unitCount gs.flatten) gs).reverse =
      clustersFrom d.clusterWidth n (reverseGroups gs) := by
  induction gs with
  | nil => rfl
  | cons g gs ih =>
    have hcount : unitCount (g :: gs).flatten = unitCount g + unitCount gs.flatten := by
      rw [List.flatten_cons, unitCount, List.map_append, List.sum_append]
      rfl
    have hposition : n + unitCount (g :: gs).flatten - unitCount g = n + unitCount gs.flatten := by
      omega
    have hgroups : reverseGroups (g :: gs) = reverseGroups gs ++ [g.reverse] := by
      simp [reverseGroups]
    rw [clustersBefore, List.reverse_cons, hposition, ih, hgroups, clustersFrom_append,
      flatten_reverseGroups, unitCount_reverse]
    simp only [clustersFrom, unitCount_reverse, clusterWidth_reverse]

theorem reverse_prevClusters_eq (d : CodepointWidthDetector) (chars : StringView) :
    (d.prevClusters chars).reverse = clustersFrom d.clusterWidth 0
      (reverseGroups (d.prevGrouper.groups (codepoints chars.units).reverse)) := by
  have hcount : unitCount (d.prevGrouper.groups (codepoints chars.units).reverse).flatten =
      chars.units.length := by
    rw [Grouper.flatten_groups, unitCount_reverse]
    exact sum_codepoints chars.units
  rw [prevClusters, prevClustersN_eq chars _ (SameWidths.refl d) le_rfl le_rfl, List.take_length,
    codepointsBefore, List.reverse_reverse, ← reverse_clustersBefore, hcount, Nat.zero_add]

end CodepointWidthDetector

end IntelligentTerminal.Text
