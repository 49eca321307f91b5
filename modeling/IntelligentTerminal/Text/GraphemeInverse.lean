import IntelligentTerminal.Text.GraphemePrev

/-!
# Grapheme clusters from both ends

`TextBuffer::GraphemePrev` is meant to be the exact inverse of `TextBuffer::GraphemeNext`. All three
measurement modes cut between two codepoints by these two alone, except that grapheme clusters take
regional indicators in pairs. From the end of the text the pairs are others than from its start if a
run of regional indicators is odd and longer than one.

Source: `src/buffer/out/textBuffer.cpp`, lines 390-410; `src/types/CodepointWidthDetector.cpp`, lines
803-1122.
-/

namespace IntelligentTerminal.Text

open IntelligentTerminal.Buffer (WChar)

namespace CodepointWidthDetector

variable (d : CodepointWidthDetector)

/-- The boundaries that `GraphemeNext` reaches from the start of a text. -/
def nextBoundaries (chars : StringView) : Finset ℕ :=
  insert 0 ((d.nextClusters chars).map fun c => c.start + c.length).toFinset

/-- The boundaries that `GraphemePrev` reaches from the end of a text. -/
def prevBoundaries (chars : StringView) : Finset ℕ :=
  insert chars.units.length ((d.prevClusters chars).map fun c => c.start).toFinset

/-- `GraphemePrev` is the inverse of `GraphemeNext`. -/
structure GraphemesInverse (chars : StringView) : Prop where
  boundaries : d.prevBoundaries chars = d.nextBoundaries chars
  widths : ((d.prevClusters chars).map fun c => c.value).reverse =
    (d.nextClusters chars).map fun c => c.value

/-- The class of regional indicators in the join table. -/
def regionalIndicator (c : Char32 × ℕ) : Bool := d.ucdLookup c.1 &&& 15 = 3

/-- The codepoints that a mode takes in pairs. -/
def inPairs (c : Char32 × ℕ) : Bool := d.mode = .graphemes && d.regionalIndicator c

/-- The other codepoints between which a mode cuts. -/
def apart (x y : Char32 × ℕ) : Prop :=
  match d.mode with
  | .graphemes => ucdGraphemeDone (ucdGraphemeJoins 0 (d.ucdLookup x.1) (d.ucdLookup y.1))
  | .wcswidth => d.characterWidth (d.ucdLookup y.1) ≠ 0
  | .console => True

end CodepointWidthDetector

/-! ### The join table -/

/-- The value of the table for two classes. -/
def joinValue (state l t : ℕ) : ℕ := (((joinRules.getD state []).getD l 0) >>> (t * 2)) &&& 3

/-- The state of the automaton, by whether the codepoint is the second of a pair. -/
def pairState (second : Bool) : ℕ := if second then 1 else 0

theorem ucdGraphemeJoins_pairState (second : Bool) (lead trail : ℕ) :
    ucdGraphemeJoins (pairState second) lead trail =
      joinValue (pairState second) (lead &&& 15) (trail &&& 15) := rfl

theorem joinValue_eq : ∀ second : Bool, ∀ l : Fin 16, ∀ t : Fin 16,
    joinValue (pairState second) l t =
      if l.val = 3 ∧ t.val = 3 then (if second then 3 else 1)
      else if joinValue 0 l t = 3 then 3 else 0 := by
  decide +kernel

variable {lead trail : ℕ}

theorem joinValue_class (second : Bool) (lead trail : ℕ) :
    joinValue (pairState second) (lead &&& 15) (trail &&& 15) =
      if lead &&& 15 = 3 ∧ trail &&& 15 = 3 then (if second then 3 else 1)
      else if joinValue 0 (lead &&& 15) (trail &&& 15) = 3 then 3 else 0 :=
  joinValue_eq second ⟨lead &&& 15, Nat.lt_succ_of_le Nat.and_le_right⟩
    ⟨trail &&& 15, Nat.lt_succ_of_le Nat.and_le_right⟩

theorem ucdGraphemeJoins_pair (second : Bool) (hlead : lead &&& 15 = 3) (htrail : trail &&& 15 = 3) :
    ucdGraphemeJoins (pairState second) lead trail = if second then 3 else 1 := by
  rw [ucdGraphemeJoins_pairState, joinValue_class, if_pos ⟨hlead, htrail⟩]
  cases second <;> rfl

theorem ucdGraphemeJoins_other (second : Bool) (h : ¬ (lead &&& 15 = 3 ∧ trail &&& 15 = 3)) :
    ucdGraphemeJoins (pairState second) lead trail =
      if ucdGraphemeDone (ucdGraphemeJoins 0 lead trail) then 3 else 0 := by
  have hzero : ucdGraphemeJoins 0 lead trail = joinValue 0 (lead &&& 15) (trail &&& 15) := rfl
  rw [ucdGraphemeJoins_pairState, joinValue_class, if_neg h, hzero]
  by_cases hthree : joinValue 0 (lead &&& 15) (trail &&& 15) = 3
  · rw [if_pos hthree, if_pos (by rw [hthree]; rfl)]
    rfl
  · have hdone : ¬ ucdGraphemeDone (joinValue 0 (lead &&& 15) (trail &&& 15)) = true := by
      rw [ucdGraphemeDone, decide_eq_true_eq]
      exact_mod_cast hthree
    rw [if_neg hthree, if_neg hdone]
    rfl

namespace CodepointWidthDetector

variable {d : CodepointWidthDetector}

/-! ### Both groupers take regional indicators in pairs -/

theorem inPairs_iff (hmode : d.mode = .graphemes) (c : Char32 × ℕ) :
    d.inPairs c = true ↔ d.ucdLookup c.1 &&& 15 = 3 := by
  rw [inPairs, regionalIndicator, hmode]
  simp

theorem inPairs_of_ne (hmode : d.mode ≠ .graphemes) (c : Char32 × ℕ) : d.inPairs c = false := by
  rw [inPairs, decide_eq_false hmode, Bool.false_and]

theorem evenRuns_inPairs (l : List (Char32 × ℕ)) : EvenRuns d.inPairs l ↔
    (d.mode = .graphemes → EvenRuns d.regionalIndicator l) := by
  by_cases hmode : d.mode = .graphemes
  · have hkind : d.inPairs = d.regionalIndicator := by
      funext c
      rw [inPairs, decide_eq_true hmode, Bool.true_and]
    rw [hkind, forall_prop_of_true hmode]
  · refine iff_of_true ?_ fun h => absurd h hmode
    rintro a (_ | ⟨x, m⟩) c - hm - -
    · exact .inr Even.zero
    · exact absurd ((inPairs_of_ne hmode x).symm.trans (hm x List.mem_cons_self))
        Bool.false_ne_true

theorem apart_graphemes (hmode : d.mode = .graphemes) (x y : Char32 × ℕ) : d.apart x y ↔
    ucdGraphemeDone (ucdGraphemeJoins 0 (d.ucdLookup x.1) (d.ucdLookup y.1)) = true := by
  rw [apart, hmode]

theorem apart_wcswidth (hmode : d.mode = .wcswidth) (x y : Char32 × ℕ) :
    d.apart x y ↔ d.characterWidth (d.ucdLookup y.1) ≠ 0 := by
  rw [apart, hmode]

theorem apart_console (hmode : d.mode = .console) (x y : Char32 × ℕ) : d.apart x y := by
  rw [apart, hmode]
  trivial

section Joins

variable {m : Grouper (Char32 × ℕ) OpenCluster}
  {apart : Char32 × ℕ → Char32 × ℕ → Prop}

theorem pairs_of_joins (joins : ℤ → ℕ → ℕ → ℤ) (hmode : d.mode = .graphemes)
    (hstart : ∀ c, (m.start c).state = 0 ∧ (m.start c).last = d.ucdLookup c.1)
    (hextend : ∀ v c, m.extend v c =
      if ucdGraphemeDone (joins v.state v.last (d.ucdLookup c.1)) then none
      else some ⟨min (v.width + d.graphemeWidth c.1 (d.ucdLookup c.1)) 2,
        joins v.state v.last (d.ucdLookup c.1), d.ucdLookup c.1⟩)
    (hpair : ∀ second last next, last &&& 15 = 3 → next &&& 15 = 3 →
      joins (pairState second) last next = if second then 3 else 1)
    (hother : ∀ second last next, ¬ (last &&& 15 = 3 ∧ next &&& 15 = 3) →
      joins (pairState second) last next = if ucdGraphemeDone (joins 0 last next) then 3 else 0)
    (hapart : ∀ x y, apart x y ↔
      ucdGraphemeDone (joins 0 (d.ucdLookup x.1) (d.ucdLookup y.1)) = true) :
    m.Pairs d.inPairs apart
      (fun c second v => v.state = pairState second ∧ v.last = d.ucdLookup c.1) where
  start := hstart
  pair := by
    rintro x v y ⟨hstate, hlast⟩ hx hy
    have hnext := hpair false v.last (d.ucdLookup y.1)
      (hlast ▸ (inPairs_iff hmode x).mp hx) ((inPairs_iff hmode y).mp hy)
    rw [hextend, hstate, hnext]
    exact ⟨_, rfl, rfl, rfl⟩
  behind := by
    rintro x v y ⟨hstate, hlast⟩ hx hy
    have hnext := hpair true v.last (d.ucdLookup y.1)
      (hlast ▸ (inPairs_iff hmode x).mp hx) ((inPairs_iff hmode y).mp hy)
    rw [hextend, hstate, hnext]
    rfl
  cut := by
    rintro x second v y ⟨hstate, hlast⟩ hxy hcut
    rw [inPairs_iff hmode, inPairs_iff hmode, ← hlast] at hxy
    rw [hapart, ← hlast] at hcut
    rw [hextend, hstate, hother second _ _ hxy, if_pos hcut]
    rfl
  join := by
    rintro x second v y ⟨hstate, hlast⟩ hxy hcut
    rw [inPairs_iff hmode, inPairs_iff hmode, ← hlast] at hxy
    rw [hapart, ← hlast] at hcut
    rw [hextend, hstate, hother second _ _ hxy, if_neg hcut]
    exact ⟨_, rfl, rfl, rfl⟩

end Joins

theorem pairs_of_apart {m : Grouper (Char32 × ℕ) OpenCluster}
    {apart : Char32 × ℕ → Char32 × ℕ → Prop} (saw : Char32 × ℕ → OpenCluster → Prop)
    (hmode : d.mode ≠ .graphemes) (hstart : ∀ c, saw c (m.start c))
    (hcut : ∀ x v y, saw x v → apart x y → m.extend v y = none)
    (hjoin : ∀ x v y, saw x v → ¬ apart x y → ∃ v', m.extend v y = some v' ∧ saw y v') :
    m.Pairs d.inPairs apart (fun c _ v => saw c v) where
  start := hstart
  pair x _ _ _ hx := absurd ((inPairs_of_ne hmode x).symm.trans hx) Bool.false_ne_true
  behind x _ _ _ hx := absurd ((inPairs_of_ne hmode x).symm.trans hx) Bool.false_ne_true
  cut x _ v y hsaw _ := hcut x v y hsaw
  join x _ v y hsaw _ := hjoin x v y hsaw

theorem nextGrouper_pairs (d : CodepointWidthDetector) :
    ∃ saw, d.nextGrouper.Pairs d.inPairs d.apart saw := by
  obtain hmode | hmode | hmode := d.mode_cases
  · refine ⟨_, pairs_of_joins ucdGraphemeJoins hmode ?_ ?_
      (fun second _ _ => ucdGraphemeJoins_pair second)
      (fun second _ _ => ucdGraphemeJoins_other second) (apart_graphemes hmode)⟩
    · intro c
      simp only [nextGrouper, segmenter, hmode, and_self]
    · intro v c
      simp only [nextGrouper, segmenter, hmode]
  · refine ⟨_, pairs_of_apart (fun _ _ => True) (by rw [hmode]; decide)
      (fun _ => trivial) ?_ ?_⟩
    · intro x v y _ hcut
      simp only [nextGrouper, segmenter, hmode, if_pos ((apart_wcswidth hmode x y).mp hcut)]
    · intro x v y _ hcut
      simp only [nextGrouper, segmenter, hmode, if_neg (mt (apart_wcswidth hmode x y).mpr hcut)]
      exact ⟨_, rfl, trivial⟩
  · refine ⟨_, pairs_of_apart (fun _ _ => True) (by rw [hmode]; decide)
      (fun _ => trivial) ?_ ?_⟩
    · intro x v y _ _
      simp only [nextGrouper, segmenter, hmode]
    · intro x v y _ hcut
      exact absurd (apart_console hmode x y) hcut

theorem prevGrouper_pairs (d : CodepointWidthDetector) :
    ∃ saw, d.prevGrouper.Pairs d.inPairs (fun y x => d.apart x y) saw := by
  obtain hmode | hmode | hmode := d.mode_cases
  · refine ⟨_, pairs_of_joins (fun state last next => ucdGraphemeJoins state next last) hmode ?_ ?_
      (fun second _ _ hlast hnext => ucdGraphemeJoins_pair second hnext hlast)
      (fun second _ _ h => ucdGraphemeJoins_other second (mt And.symm h))
      (fun y x => apart_graphemes hmode x y)⟩
    · intro c
      simp only [prevGrouper, hmode, and_self]
    · intro v c
      simp only [prevGrouper, hmode]
  · refine ⟨_, pairs_of_apart (fun c v => v.width = d.characterWidth (d.ucdLookup c.1))
      (by rw [hmode]; decide) ?_ ?_ ?_⟩
    · intro c
      simp only [prevGrouper, hmode]
    · intro y v x hwidth hcut
      rw [apart_wcswidth hmode, ← hwidth] at hcut
      simp only [prevGrouper, hmode, if_pos hcut]
    · intro y v x hwidth hcut
      rw [apart_wcswidth hmode, ← hwidth] at hcut
      simp only [prevGrouper, hmode, if_neg hcut]
      exact ⟨_, rfl, rfl⟩
  · refine ⟨_, pairs_of_apart (fun _ _ => True) (by rw [hmode]; decide)
      (fun _ => trivial) ?_ ?_⟩
    · intro y v x _ _
      simp only [prevGrouper, hmode]
    · intro y v x _ hcut
      exact absurd (apart_console hmode x y) hcut

/-! ### Boundaries -/

variable {width : List (Char32 × ℕ) → ℕ} {n p : ℕ} {gs : List (List (Char32 × ℕ))}

theorem unitCount_append (l r : List (Char32 × ℕ)) :
    unitCount (l ++ r) = unitCount l + unitCount r := by
  rw [unitCount, List.map_append, List.sum_append]
  rfl

theorem mem_ends : p = n ∨ p ∈ (clustersFrom width n gs).map (fun c => c.start + c.length) ↔
    ∃ l, CutAt gs l ∧ n + unitCount l = p := by
  induction gs generalizing n with
  | nil =>
    rw [clustersFrom, List.map_nil, or_iff_left List.not_mem_nil]
    simp only [cutAt_nil, exists_eq_left]
    exact eq_comm
  | cons g gs ih =>
    rw [clustersFrom, List.map_cons, List.mem_cons, ih]
    constructor
    · rintro (rfl | ⟨l, hcut, rfl⟩)
      · exact ⟨[], cutAt_cons_iff.mpr (.inl rfl), rfl⟩
      · exact ⟨g ++ l, cutAt_cons_iff.mpr (.inr ⟨l, rfl, hcut⟩),
          by rw [unitCount_append, Nat.add_assoc]⟩
    · rintro ⟨l, hcut, rfl⟩
      rcases cutAt_cons_iff.mp hcut with rfl | ⟨l', rfl, hcut'⟩
      · exact .inl rfl
      · exact .inr ⟨l', hcut', by rw [unitCount_append, Nat.add_assoc]⟩

theorem mem_starts :
    p = n + unitCount gs.flatten ∨ p ∈ (clustersFrom width n gs).map (fun c => c.start) ↔
    ∃ l, CutAt gs l ∧ n + unitCount l = p := by
  induction gs generalizing n with
  | nil =>
    rw [clustersFrom, List.map_nil, or_iff_left List.not_mem_nil]
    simp only [cutAt_nil, exists_eq_left]
    exact eq_comm
  | cons g gs ih =>
    rw [clustersFrom, List.map_cons, List.mem_cons, or_left_comm, List.flatten_cons,
      unitCount_append, ← Nat.add_assoc, ih]
    constructor
    · rintro (rfl | ⟨l, hcut, rfl⟩)
      · exact ⟨[], cutAt_cons_iff.mpr (.inl rfl), rfl⟩
      · exact ⟨g ++ l, cutAt_cons_iff.mpr (.inr ⟨l, rfl, hcut⟩),
          by rw [unitCount_append, Nat.add_assoc]⟩
    · rintro ⟨l, hcut, rfl⟩
      rcases cutAt_cons_iff.mp hcut with rfl | ⟨l', rfl, hcut'⟩
      · exact .inl rfl
      · exact .inr ⟨l', hcut', by rw [unitCount_append, Nat.add_assoc]⟩

theorem mem_nextBoundaries (chars : StringView) : p ∈ d.nextBoundaries chars ↔
    ∃ l, CutAt (d.nextGrouper.groups (codepoints chars.units)) l ∧ unitCount l = p := by
  rw [nextBoundaries, nextClusters_eq, Finset.mem_insert, List.mem_toFinset, mem_ends]
  simp only [Nat.zero_add]

theorem mem_prevBoundaries (chars : StringView) : p ∈ d.prevBoundaries chars ↔
    ∃ l, CutAt (reverseGroups (d.prevGrouper.groups (codepoints chars.units).reverse)) l ∧
      unitCount l = p := by
  have hcount : chars.units.length = 0 + unitCount
      (reverseGroups (d.prevGrouper.groups (codepoints chars.units).reverse)).flatten := by
    rw [flatten_reverseGroups, Grouper.flatten_groups, List.reverse_reverse, Nat.zero_add]
    exact (sum_codepoints chars.units).symm
  have hstarts : p ∈ (d.prevClusters chars).map (fun c => c.start) ↔
      p ∈ (clustersFrom d.clusterWidth 0
        (reverseGroups (d.prevGrouper.groups (codepoints chars.units).reverse))).map
          (fun c => c.start) := by
    rw [← reverse_prevClusters_eq, List.map_reverse, List.mem_reverse]
  rw [prevBoundaries, Finset.mem_insert, List.mem_toFinset, hstarts, hcount, mem_starts]
  simp only [Nat.zero_add]

theorem pos_of_mem_codepoints {units : List WChar} {c : Char32 × ℕ} (h : c ∈ codepoints units) :
    0 < c.2 := by
  induction hlength : units.length using Nat.strong_induction_on generalizing units with
  | _ n ih =>
    cases hnext : utf16NextOrFFFD units with
    | none =>
      rw [utf16NextOrFFFD_eq_none.mp hnext, codepoints_nil] at h
      exact absurd h List.not_mem_nil
    | some result =>
      obtain ⟨cp, next⟩ := result
      have hlt := utf16NextOrFFFD_length_lt hnext
      rw [codepoints_of_next hnext] at h
      rcases List.mem_cons.mp h with rfl | h
      · exact Nat.sub_pos_of_lt hlt
      · exact ih next.length (hlength ▸ hlt) h rfl

theorem eq_of_unitCount {l r l' r' : List (Char32 × ℕ)} (hpos : ∀ c ∈ l ++ r, 0 < c.2)
    (heq : l ++ r = l' ++ r') (hcount : unitCount l = unitCount l') : l = l' := by
  have hnil : ∀ t : List (Char32 × ℕ), (∀ c ∈ t, 0 < c.2) → unitCount t = 0 → t = [] := by
    rintro (_ | ⟨c, t⟩) ht hzero
    · rfl
    · have := ht c List.mem_cons_self
      rw [unitCount_cons] at hzero
      omega
  rcases List.prefix_or_prefix_of_prefix ⟨r, rfl⟩ ⟨r', heq.symm⟩ with ⟨t, rfl⟩ | ⟨t, rfl⟩
  · rw [heq] at hpos
    rw [unitCount_append] at hcount
    rw [hnil t (fun c hc => hpos c (by simp [hc])) (by omega), List.append_nil]
  · rw [unitCount_append] at hcount
    rw [hnil t (fun c hc => hpos c (by simp [hc])) (by omega), List.append_nil]

/-- `GraphemePrev` is the inverse of `GraphemeNext` if and only if the mode does not measure grapheme
clusters or the runs of regional indicators are even. -/
theorem graphemesInverse_iff (d : CodepointWidthDetector) (chars : StringView) :
    d.GraphemesInverse chars ↔
      (d.mode = .graphemes → EvenRuns d.regionalIndicator (codepoints chars.units)) := by
  rw [← evenRuns_inPairs]
  obtain ⟨saw, hnext⟩ := d.nextGrouper_pairs
  obtain ⟨saw', hprev⟩ := d.prevGrouper_pairs
  constructor
  · rintro ⟨hboundaries, -⟩
    rw [← hnext.cuts_agree_iff hprev]
    intro a r _ _ har
    have hpos : ∀ c ∈ a ++ r, 0 < c.2 := fun c hc => pos_of_mem_codepoints (har ▸ hc)
    have hflat : (d.nextGrouper.groups (codepoints chars.units)).flatten = a ++ r := by
      rw [Grouper.flatten_groups, har]
    have hflat' : (reverseGroups (d.prevGrouper.groups (codepoints chars.units).reverse)).flatten =
        a ++ r := by
      rw [flatten_reverseGroups, Grouper.flatten_groups, List.reverse_reverse, har]
    have hboundary := Finset.ext_iff.mp hboundaries (unitCount a)
    rw [mem_prevBoundaries, mem_nextBoundaries] at hboundary
    constructor
    · intro hcut
      obtain ⟨l, hcut', hcount⟩ := hboundary.mp ⟨a, hcut, rfl⟩
      obtain ⟨r', hr'⟩ := hcut'.exists_append
      rwa [eq_of_unitCount hpos (hflat.symm.trans hr'.symm) hcount.symm]
    · intro hcut
      obtain ⟨l, hcut', hcount⟩ := hboundary.mpr ⟨a, hcut, rfl⟩
      obtain ⟨r', hr'⟩ := hcut'.exists_append
      rwa [eq_of_unitCount hpos (hflat'.symm.trans hr'.symm) hcount.symm]
  · intro heven
    have hgroups := hnext.groups_eq hprev heven
    constructor
    · ext p
      rw [mem_prevBoundaries, mem_nextBoundaries, hgroups]
    · rw [← List.map_reverse, reverse_prevClusters_eq, hgroups, nextClusters_eq]

/-- Three regional indicators: the pair is the first two of them from the start and the last two from
the end. -/
theorem not_graphemesInverse_threeIndicators :
    let d : CodepointWidthDetector :=
      ⟨fun cp => if 0x1F1E6 ≤ cp ∧ cp ≤ 0x1F1FF then 0x43 else 0x40, fun _ => none, none,
        .graphemes, 1⟩
    let chars : StringView := ⟨100, [0xD83C, 0xDDE6, 0xD83C, 0xDDE6, 0xD83C, 0xDDE6], by decide⟩
    d.nextBoundaries chars = {0, 4, 6} ∧ d.prevBoundaries chars = {0, 2, 6} ∧
      ¬ d.GraphemesInverse chars := by
  intro d chars
  have hnext : d.nextBoundaries chars = {0, 4, 6} := by decide +kernel
  have hprev : d.prevBoundaries chars = {0, 2, 6} := by decide +kernel
  refine ⟨hnext, hprev, fun h => ?_⟩
  have hboundaries := h.boundaries
  rw [hnext, hprev] at hboundaries
  exact absurd hboundaries (by decide)

end CodepointWidthDetector

end IntelligentTerminal.Text
