import IntelligentTerminal.Buffer.Attributes
import IntelligentTerminal.Data.Segmenter

/-!
# Grapheme clusters of a text in parts

`CodepointWidthDetector::GraphemeNext` returns one cluster of a text at a time, in one of three
ways of measuring. The state that it is given holds what is needed to go on with a cluster that the
end of the text has interrupted, in the next text. A text is known by its address: a state that
points into the text goes on there, and any other state starts at its beginning.

The trie of `ucdLookup` is generated and large, so the lookup is a parameter; nothing is assumed of
it. The widths that a cluster adds up are not bounded here, as they are in an `int`.

Source: `src/types/CodepointWidthDetector.cpp`, lines 621-765, 777-897, 996-1060, 1124-1168 and
1210-1250; `src/types/inc/CodepointWidthDetector.hpp`.
-/

namespace IntelligentTerminal.Text

open IntelligentTerminal.Buffer (WChar)

/-- `char32_t`. -/
abbrev Char32 := UInt32

inductive TextMeasurementMode
  | graphemes
  | wcswidth
  | console
deriving DecidableEq

/-- `struct GraphemeState`; `beg` is the address of a unit, and 0 that of `nullptr`. -/
structure GraphemeState where
  beg : ℕ := 0
  len : ℕ := 0
  width : ℕ := 0
  state : ℤ := 0
  last : ℕ := 0
deriving DecidableEq

/-- `std::wstring_view`: the address of the first unit, and the units. -/
structure StringView where
  data : ℕ
  units : List WChar
  data_pos : 0 < data

namespace StringView

/-- One past the last unit. -/
def end_ (str : StringView) : ℕ := str.data + str.units.length

end StringView

def resetIfOutOfRange (beg end_ reset ptr : ℕ) : ℕ :=
  let ret := ptr
  let ret := if ptr < beg then reset else ret
  if ptr > end_ then reset else ret

theorem resetIfOutOfRange_inside {beg end_ ptr : ℕ} (reset : ℕ) (hbeg : beg ≤ ptr)
    (hend : ptr ≤ end_) : resetIfOutOfRange beg end_ reset ptr = ptr := by
  rw [resetIfOutOfRange, if_neg (by omega), if_neg (by omega)]

theorem resetIfOutOfRange_outside {beg end_ ptr : ℕ} (reset : ℕ) (h : ptr < beg ∨ end_ < ptr) :
    resetIfOutOfRange beg end_ reset ptr = reset := by
  unfold resetIfOutOfRange
  split_ifs <;> first | rfl | omega

/-- The operator `~` on an `int`. -/
def bitNot (v : ℤ) : ℤ := -v - 1

/-- `utf16NextOrFFFD`: the next codepoint, and the units after it. -/
def utf16NextOrFFFD : List WChar → Option (Char32 × List WChar)
  | [] => none
  | c :: rest =>
    if c &&& 0xF800 = 0xD800 then
      match rest with
      | [] => some (0xfffd, [])
      | c2 :: rest' =>
        if c &&& 0x400 = 0 ∧ c2 &&& 0xFC00 = 0xDC00 then
          some ((c.toUInt32 <<< 10) - 0x35FDC00 + c2.toUInt32, rest')
        else some (0xfffd, rest)
    else some (c.toUInt32, rest)

/-- `s_joinRules`. -/
def joinRules : List (List ℕ) :=
  [[0b00000011110011111111111111001111, 0b00001111111111111111111111111111,
    0b00000011110011111111111111001111, 0b00000011110011111111111101001111,
    0b00000000000000000000000000001100, 0b00000011110000001100001111001111,
    0b00000011110011110000111111001111, 0b00000011110011110011111111001111,
    0b00000011110011110000111111001111, 0b00000011110011110011111111001111,
    0b00000011000011111111111111001111, 0b00000011110011111111111111001111,
    0b00000011110011111111111111001111, 0b00000000110011111111111111001111,
    0b00000000000000000000000000000000, 0b00000000000000000000000000000000],
   [0b00000011110011111111111111001111, 0b00001111111111111111111111111111,
    0b00000011110011111111111111001111, 0b00000011110011111111111111001111,
    0b00000000000000000000000000001100, 0b00000011110000001100001111001111,
    0b00000011110011110000111111001111, 0b00000011110011110011111111001111,
    0b00000011110011110000111111001111, 0b00000011110011110011111111001111,
    0b00000011000011111111111111001111, 0b00000011110011111111111111001111,
    0b00000011110011111111111111001111, 0b00000000110011111111111111001111,
    0b00000000000000000000000000000000, 0b00000000000000000000000000000000]]

def ucdGraphemeJoins (state : ℤ) (lead trail : ℕ) : ℤ :=
  let l := lead &&& 15
  let t := trail &&& 15
  ((((joinRules.getD state.toNat []).getD l 0) >>> (t * 2)) &&& 3 : ℕ)

def ucdGraphemeDone (state : ℤ) : Bool := state = 3

def ucdToCharacterWidth (val : ℕ) : ℕ := val >>> 6

/-- `struct CodepointWidthDetector`, with `ucdLookup`. -/
structure CodepointWidthDetector where
  ucdLookup : Char32 → ℕ
  fallbackCache : Char32 → Option ℕ
  fallbackMethod : Option (List WChar → Bool)
  mode : TextMeasurementMode
  ambiguousWidth : ℕ

namespace CodepointWidthDetector

variable (d : CodepointWidthDetector)

/-- The width of a codepoint as the first two modes find it. -/
def characterWidth (val : ℕ) : ℕ :=
  if ucdToCharacterWidth val = 3 then d.ambiguousWidth else ucdToCharacterWidth val

/-- The width that a codepoint adds to a cluster of `_graphemeNext`. -/
def graphemeWidth (cp : Char32) (val : ℕ) : ℕ := if cp = 0xFE0F then 2 else d.characterWidth val

/-- The loop of `_graphemeNext` from the label `fetchNext` on: the units after the cluster, the
width, the state and the class of the last codepoint. Each pass takes a unit at least, so that as
many passes as there are units are enough. -/
def fetchNext : ℕ → List WChar → ℕ → ℤ → ℕ → List WChar × ℕ × ℤ × ℕ
  | 0, rest, width, state, lead => (rest, width, state, lead)
  | fuel + 1, rest, width, state, lead =>
    match utf16NextOrFFFD rest with
    | none => (rest, width, state, lead)
    | some (cp, next) =>
      let trail := d.ucdLookup cp
      let state := ucdGraphemeJoins state lead trail
      if ucdGraphemeDone state then (rest, width, bitNot 0, 0)
      else
        let width := width + d.graphemeWidth cp trail
        if next = [] then (next, width, state, trail)
        else fetchNext fuel next width state trail

/-- `CodepointWidthDetector::_graphemeNext`. -/
def graphemeNextGraphemes (s : GraphemeState) (str : StringView) : Bool × GraphemeState :=
  let clusterBeg := resetIfOutOfRange str.data str.end_ str.data (s.beg + s.len)
  let rest := str.units.drop (clusterBeg - str.data)
  match utf16NextOrFFFD rest with
  | none => (false, s)
  | some (cp, next) =>
    let (after, width, state, lead) :=
      if s.state ≠ 0 then d.fetchNext rest.length rest s.width (bitNot s.state) s.last
      else
        let lead := d.ucdLookup cp
        let width := 0 + d.graphemeWidth cp lead
        if next = [] then (next, width, 0, lead) else d.fetchNext next.length next width 0 lead
    (after ≠ [],
      { beg := clusterBeg
        len := rest.length - after.length
        width := if width > 2 then 2 else width
        state := bitNot state
        last := lead })

/-- The loop of `_graphemeNextWcswidth`. -/
def wcswidthLoop : ℕ → List WChar → ℕ → ℤ → List WChar × ℕ × ℤ
  | 0, rest, width, state => (rest, width, state)
  | fuel + 1, rest, width, state =>
    match utf16NextOrFFFD rest with
    | none => (rest, width, state)
    | some (cp, next) =>
      let w := d.characterWidth (d.ucdLookup cp)
      if state ≠ 0 ∧ w ≠ 0 then (rest, width, 0)
      else if next = [] then (next, width + w, 1)
      else wcswidthLoop fuel next (width + w) 1

def graphemeNextWcswidth (s : GraphemeState) (str : StringView) : Bool × GraphemeState :=
  let clusterBeg := resetIfOutOfRange str.data str.end_ str.data (s.beg + s.len)
  let rest := str.units.drop (clusterBeg - str.data)
  if rest = [] then (false, s)
  else
    let width := if s.state = 0 then 0 else s.width
    let (after, width, state) := d.wcswidthLoop rest.length rest width s.state
    (after ≠ [],
      { s with beg := clusterBeg, len := rest.length - after.length, width, state })

/-- The units of a codepoint, as `_checkFallbackViaCache` encodes it. -/
def encodeUtf16 (codepoint : Char32) : List WChar :=
  if codepoint ≤ 0xffff then [codepoint.toUInt16]
  else [((codepoint >>> 10) + 0xD7C0).toUInt16, ((codepoint &&& 0x3ff) ||| 0xDC00).toUInt16]

def checkFallbackViaCache (codepoint : Char32) : ℕ × CodepointWidthDetector :=
  match d.fallbackMethod with
  | none => (1, d)
  | some fallbackMethod =>
    match d.fallbackCache codepoint with
    | some width => (width, d)
    | none =>
      let width := if fallbackMethod (encodeUtf16 codepoint) then 2 else 1
      (width, { d with fallbackCache := Function.update d.fallbackCache codepoint (some width) })

/-- The width of a codepoint as the console mode finds it. -/
def consoleWidth (cp : Char32) : ℕ × CodepointWidthDetector :=
  let width := ucdToCharacterWidth (d.ucdLookup cp)
  if width = 3 then d.checkFallbackViaCache cp else (width, d)

def graphemeNextConsole (s : GraphemeState) (str : StringView) :
    Bool × GraphemeState × CodepointWidthDetector :=
  let clusterBeg := resetIfOutOfRange str.data str.end_ str.data (s.beg + s.len)
  let rest := str.units.drop (clusterBeg - str.data)
  match utf16NextOrFFFD rest with
  | none => (false, s, d)
  | some (cp, next) =>
    if s.state = 0 then
      let (width, d) := d.consoleWidth cp
      let delayedCompletion : ℤ := if next = [] then 1 else 0
      (delayedCompletion = 0,
        { s with
          beg := clusterBeg, len := rest.length - next.length, width, state := delayedCompletion }, d)
    else (true, { s with beg := clusterBeg, len := 0, state := 0 }, d)

def graphemeNext (s : GraphemeState) (str : StringView) :
    Bool × GraphemeState × CodepointWidthDetector :=
  match d.mode with
  | .graphemes =>
    let (more, s) := d.graphemeNextGraphemes s str
    (more, s, d)
  | .wcswidth =>
    let (more, s) := d.graphemeNextWcswidth s str
    (more, s, d)
  | .console => d.graphemeNextConsole s str

/-- Calls `GraphemeNext` until it returns false, and keeps the clusters, each with the offset of its
start in the whole text, of which the units of `str` start at `offset`. An empty text has no
cluster. -/
def iterateN (offset : ℕ) (str : StringView) : ℕ → CodepointWidthDetector → GraphemeState →
    List (Piece ℕ) × GraphemeState × CodepointWidthDetector
  | 0, d, s => ([], s, d)
  | fuel + 1, d, s =>
    let (more, s, d) := d.graphemeNext s str
    let cluster : Piece ℕ := ⟨offset + (s.beg - str.data), s.len, s.width⟩
    if more then
      let (clusters, s, d) := iterateN offset str fuel d s
      (cluster :: clusters, s, d)
    else (if str.units = [] then [] else [cluster], s, d)

/-- The clusters of a text. Only the first call may find an empty one, so that the calls are at most
one more than the units. -/
def iterate (offset : ℕ) (s : GraphemeState) (str : StringView) :
    List (Piece ℕ) × GraphemeState × CodepointWidthDetector :=
  iterateN offset str (str.units.length + 1) d s

end CodepointWidthDetector

/-! ### Codepoints -/

section Codepoints

variable {units next : List WChar} {cp : Char32} {b : List WChar}

theorem utf16NextOrFFFD_single (c : WChar) : utf16NextOrFFFD [c] =
    some (if c &&& 0xF800 = 0xD800 then 0xfffd else c.toUInt32, []) := by
  by_cases hsurrogate : c &&& 0xF800 = 0xD800 <;> simp [utf16NextOrFFFD, hsurrogate]

theorem utf16NextOrFFFD_cons_cons (c c2 : WChar) (rest : List WChar) :
    utf16NextOrFFFD (c :: c2 :: rest) =
      if c &&& 0xF800 = 0xD800 ∧ c &&& 0x400 = 0 ∧ c2 &&& 0xFC00 = 0xDC00 then
        some ((c.toUInt32 <<< 10) - 0x35FDC00 + c2.toUInt32, rest)
      else some (if c &&& 0xF800 = 0xD800 then 0xfffd else c.toUInt32, c2 :: rest) := by
  by_cases hsurrogate : c &&& 0xF800 = 0xD800
  · by_cases hpair : c &&& 0x400 = 0 ∧ c2 &&& 0xFC00 = 0xDC00 <;>
      simp [utf16NextOrFFFD, hsurrogate, hpair]
  · simp [utf16NextOrFFFD, hsurrogate]

theorem utf16NextOrFFFD_eq_drop (h : utf16NextOrFFFD units = some (cp, next)) :
    ∃ n, 0 < n ∧ n ≤ units.length ∧ next = units.drop n := by
  match units with
  | [] => simp [utf16NextOrFFFD] at h
  | [c] =>
    rw [utf16NextOrFFFD_single] at h
    obtain ⟨-, rfl⟩ : _ ∧ [] = next := by simpa using h
    exact ⟨1, Nat.one_pos, le_rfl, rfl⟩
  | c :: c2 :: rest =>
    rw [utf16NextOrFFFD_cons_cons] at h
    by_cases hpair : c &&& 0xF800 = 0xD800 ∧ c &&& 0x400 = 0 ∧ c2 &&& 0xFC00 = 0xDC00
    · rw [if_pos hpair] at h
      obtain ⟨-, rfl⟩ : _ ∧ rest = next := by simpa using h
      exact ⟨2, by omega, by simp, rfl⟩
    · rw [if_neg hpair] at h
      obtain ⟨-, rfl⟩ : _ ∧ c2 :: rest = next := by simpa using h
      exact ⟨1, by omega, by simp, rfl⟩

theorem utf16NextOrFFFD_length_lt (h : utf16NextOrFFFD units = some (cp, next)) :
    next.length < units.length := by
  obtain ⟨n, hpos, hle, rfl⟩ := utf16NextOrFFFD_eq_drop h
  rw [List.length_drop]
  omega

theorem utf16NextOrFFFD_eq_none : utf16NextOrFFFD units = none ↔ units = [] := by
  match units with
  | [] => simp [utf16NextOrFFFD]
  | [c] => simp [utf16NextOrFFFD_single]
  | c :: c2 :: rest =>
    rw [utf16NextOrFFFD_cons_cons]
    split_ifs <;> simp

/-- The codepoints of a text, each with the number of its units. -/
def codepoints (units : List WChar) : List (Char32 × ℕ) :=
  match _h : utf16NextOrFFFD units with
  | none => []
  | some (cp, next) => (cp, units.length - next.length) :: codepoints next
termination_by units.length
decreasing_by exact utf16NextOrFFFD_length_lt ‹_›

theorem codepoints_of_next (h : utf16NextOrFFFD units = some (cp, next)) :
    codepoints units = (cp, units.length - next.length) :: codepoints next := by
  rw [codepoints]
  split <;> simp_all

@[simp] theorem codepoints_nil : codepoints [] = [] := by
  rw [codepoints]
  rfl

theorem codepoints_eq_nil : codepoints units = [] ↔ units = [] := by
  constructor
  · intro hnil
    by_contra hne
    obtain ⟨⟨cp, next⟩, hnext⟩ := Option.ne_none_iff_exists'.mp
      (mt utf16NextOrFFFD_eq_none.mp hne)
    simp [codepoints_of_next hnext] at hnil
  · rintro rfl
    exact codepoints_nil

theorem sum_codepoints (units : List WChar) :
    ((codepoints units).map Prod.snd).sum = units.length := by
  induction hlength : units.length using Nat.strong_induction_on generalizing units with
  | _ n ih =>
    cases hnext : utf16NextOrFFFD units with
    | none =>
      rw [utf16NextOrFFFD_eq_none] at hnext
      subst hnext
      simpa using hlength
    | some result =>
      obtain ⟨cp, next⟩ := result
      have hlt := utf16NextOrFFFD_length_lt hnext
      rw [codepoints_of_next hnext, List.map_cons, List.sum_cons, ih next.length (by omega) next rfl]
      omega

/-- The text ends in the first half of a surrogate pair, and the other starts with the second. -/
def SplitsPair (a b : List WChar) : Prop :=
  ∃ c ∈ a.getLast?, ∃ c2 ∈ b.head?, c &&& 0xFC00 = 0xD800 ∧ c2 &&& 0xFC00 = 0xDC00

theorem lead_of_surrogate {c : WChar} (hsurrogate : c &&& 0xF800 = 0xD800)
    (hlead : c &&& 0x400 = 0) : c &&& 0xFC00 = 0xD800 := by
  have hsplit : c &&& 0xFC00 = (c &&& 0xF800) ||| (c &&& 0x400) := by
    refine UInt16.toNat_inj.mp ?_
    rw [UInt16.toNat_or, UInt16.toNat_and, UInt16.toNat_and, UInt16.toNat_and,
      ← Nat.and_or_distrib_left]
    rfl
  rw [hsplit, hsurrogate, hlead]
  rfl

theorem utf16NextOrFFFD_append (h : utf16NextOrFFFD units = some (cp, next))
    (hsplit : ¬SplitsPair units b) : utf16NextOrFFFD (units ++ b) = some (cp, next ++ b) := by
  match units with
  | [] => simp [utf16NextOrFFFD] at h
  | [c] =>
    rcases b with _ | ⟨c2, b⟩
    · simpa using h
    · have hpair : ¬(c &&& 0xF800 = 0xD800 ∧ c &&& 0x400 = 0 ∧ c2 &&& 0xFC00 = 0xDC00) := by
        rintro ⟨hsurrogate, hlead, htrail⟩
        refine hsplit ⟨c, by simp, c2, by simp, lead_of_surrogate hsurrogate hlead, htrail⟩
      rw [utf16NextOrFFFD_single] at h
      obtain ⟨hcp, rfl⟩ : _ ∧ [] = next := by simpa using h
      rw [List.singleton_append, utf16NextOrFFFD_cons_cons, if_neg hpair, hcp]
      rfl
  | c :: c2 :: rest =>
    rw [List.cons_append, List.cons_append, utf16NextOrFFFD_cons_cons]
    rw [utf16NextOrFFFD_cons_cons] at h
    split_ifs at h ⊢ <;>
    · obtain ⟨hcp, rfl⟩ : _ ∧ _ = next := by simpa using h
      simpa using hcp

theorem SplitsPair.of_next (h : utf16NextOrFFFD units = some (cp, next))
    (hsplit : SplitsPair next b) : SplitsPair units b := by
  obtain ⟨n, -, -, rfl⟩ := utf16NextOrFFFD_eq_drop h
  obtain ⟨c, hc, hrest⟩ := hsplit
  refine ⟨c, ?_, hrest⟩
  rw [List.getLast?_drop] at hc
  split_ifs at hc
  · simp at hc
  · exact hc

theorem codepoints_append {a b : List WChar} (hsplit : ¬SplitsPair a b) :
    codepoints (a ++ b) = codepoints a ++ codepoints b := by
  induction hlength : a.length using Nat.strong_induction_on generalizing a with
  | _ n ih =>
    cases hnext : utf16NextOrFFFD a with
    | none =>
      rw [utf16NextOrFFFD_eq_none] at hnext
      subst hnext
      simp
    | some result =>
      obtain ⟨cp, next⟩ := result
      have hlt := utf16NextOrFFFD_length_lt hnext
      have hrest := ih next.length (by omega) (fun h => hsplit (h.of_next hnext)) rfl
      rw [codepoints_of_next hnext, codepoints_of_next (utf16NextOrFFFD_append hnext hsplit), hrest,
        List.cons_append, List.length_append, List.length_append, Nat.add_sub_add_right]

end Codepoints

/-! ### Clusters as pieces of the list of codepoints -/

/-- What is known of a cluster that may go on. -/
structure OpenCluster where
  width : ℕ
  state : ℤ
  last : ℕ
deriving DecidableEq

namespace CodepointWidthDetector

/-- Which codepoints make a cluster, by the mode. The widths of a grapheme cluster are clamped as
they are added. -/
def segmenter (d : CodepointWidthDetector) :
    Segmenter (Char32 → Option ℕ) Char32 OpenCluster :=
  match d.mode with
  | .graphemes =>
    { start := fun memo cp =>
        (⟨min (d.graphemeWidth cp (d.ucdLookup cp)) 2, 0, d.ucdLookup cp⟩, memo)
      extend := fun cluster cp =>
        let state := ucdGraphemeJoins cluster.state cluster.last (d.ucdLookup cp)
        if ucdGraphemeDone state then none
        else some ⟨min (cluster.width + d.graphemeWidth cp (d.ucdLookup cp)) 2, state,
          d.ucdLookup cp⟩ }
  | .wcswidth =>
    { start := fun memo cp => (⟨d.characterWidth (d.ucdLookup cp), 1, 0⟩, memo)
      extend := fun cluster cp =>
        if d.characterWidth (d.ucdLookup cp) ≠ 0 then none else some ⟨cluster.width, 1, 0⟩ }
  | .console =>
    { start := fun memo cp =>
        let (width, d') := { d with fallbackCache := memo }.consoleWidth cp
        (⟨width, 1, 0⟩, d'.fallbackCache)
      extend := fun _ _ => none }

/-- The state with which a call ends that has reached the end of its text inside of a cluster. -/
structure Interrupted (d : CodepointWidthDetector) (cluster : OpenCluster) (s : GraphemeState) :
    Prop where
  width : s.width = cluster.width
  state : s.state = match d.mode with
    | .graphemes => bitNot cluster.state
    | _ => 1
  last : s.last = cluster.last
  state_nonneg : 0 ≤ cluster.state
  width_le : d.mode = .graphemes → cluster.width ≤ 2
  plain : d.mode ≠ .graphemes → cluster.state = 1 ∧ cluster.last = 0

/-- The state with which a call ends that has found the end of a cluster. -/
structure Fresh (s : GraphemeState) : Prop where
  state : s.state = 0
  last : s.last = 0

/-- What the state says of the cluster before the text. -/
def Carries (d : CodepointWidthDetector) (s : GraphemeState) : Option OpenCluster → Prop
  | none => Fresh s
  | some cluster => d.Interrupted cluster s

theorem Interrupted.state_ne_zero {d : CodepointWidthDetector} {cluster : OpenCluster}
    {s : GraphemeState} (h : d.Interrupted cluster s) : s.state ≠ 0 := by
  have hnonneg := h.state_nonneg
  rw [h.state]
  cases d.mode <;> simp only [bitNot] <;> omega

/-- What a call on the units `rest` finds: a cluster of `length` units in them, and the codepoints
behind it. -/
structure Found (d : CodepointWidthDetector) (rest : List WChar) (length : ℕ)
    (cluster : OpenCluster) (behind : List (Char32 × ℕ)) (more : Bool) (s : GraphemeState) :
    Prop where
  len : s.len = length
  width : s.width = cluster.width
  length_le : length ≤ rest.length
  codepoints_drop : codepoints (rest.drop length) = behind
  more : more = decide (behind ≠ [])
  interrupted : behind = [] → d.Interrupted cluster s
  fresh : behind ≠ [] → Fresh s

/-- The next call on the text is on its units from `k` on. -/
abbrev GoesOnAt (s : GraphemeState) (str : StringView) (k : ℕ) : Prop :=
  resetIfOutOfRange str.data str.end_ str.data (s.beg + s.len) = str.data + k

/-- What a call on the units from `k` on finds of a cluster from before. -/
def Resumes (d : CodepointWidthDetector) (str : StringView) (k : ℕ) (cluster : OpenCluster)
    (more : Bool) (s' : GraphemeState) : Prop :=
  ∃ length cluster' behind, s'.beg = str.data + k ∧
    d.Found (str.units.drop k) length cluster' behind more s' ∧
    d.segmenter.extendAll cluster (codepoints (str.units.drop k)) = (length, cluster', behind)

/-- What a call on the units from `k` on finds of a cluster that begins there. -/
def Starts (d : CodepointWidthDetector) (str : StringView) (k : ℕ) (cp : Char32)
    (next : List WChar) (more : Bool) (s' : GraphemeState) : Prop :=
  ∃ length cluster' behind, s'.beg = str.data + k ∧
    d.Found (str.units.drop k) ((str.units.drop k).length - next.length + length) cluster' behind
      more s' ∧
    d.segmenter.extendAll (d.segmenter.start d.fallbackCache cp).1 (codepoints next) =
      (length, cluster', behind)

section Graphemes

variable {d : CodepointWidthDetector} {rest : List WChar} {str : StringView} {s : GraphemeState}

theorem ucdGraphemeJoins_nonneg (state : ℤ) (lead trail : ℕ) : 0 ≤ ucdGraphemeJoins state lead trail :=
  Int.natCast_nonneg _

theorem fetchNext_eq (hmode : d.mode = .graphemes) (fuel : ℕ) (hfuel : rest.length ≤ fuel)
    (hrest : rest ≠ []) (width : ℕ) (cluster : OpenCluster) (hwidth : min width 2 = cluster.width)
    (hstate : 0 ≤ cluster.state) :
    ∃ length cluster' behind width' state' last',
      d.segmenter.extendAll cluster (codepoints rest) = (length, cluster', behind) ∧
      d.fetchNext fuel rest width cluster.state cluster.last =
        (rest.drop length, width', state', last') ∧
      length ≤ rest.length ∧ codepoints (rest.drop length) = behind ∧ min width' 2 = cluster'.width ∧
      0 ≤ cluster'.state ∧
      (behind = [] → state' = cluster'.state ∧ last' = cluster'.last) ∧
      (behind ≠ [] → state' = bitNot 0 ∧ last' = 0) := by
  induction fuel generalizing rest width cluster with
  | zero => exact absurd (List.length_eq_zero_iff.mp (by omega)) hrest
  | succ fuel ih =>
    obtain ⟨⟨cp, next⟩, hnext⟩ := Option.ne_none_iff_exists'.mp (mt utf16NextOrFFFD_eq_none.mp hrest)
    obtain ⟨n, hpos, hle, hdrop⟩ := utf16NextOrFFFD_eq_drop hnext
    have hn : rest.length - next.length = n := by
      rw [hdrop, List.length_drop]
      omega
    have hcodepoints := codepoints_of_next hnext
    rw [hn] at hcodepoints
    set state' := ucdGraphemeJoins cluster.state cluster.last (d.ucdLookup cp) with hstate'
    have hextend : d.segmenter.extend cluster cp = if ucdGraphemeDone state' then none
        else some ⟨min (cluster.width + d.graphemeWidth cp (d.ucdLookup cp)) 2, state',
          d.ucdLookup cp⟩ := by
      rw [segmenter, hmode]
    unfold fetchNext
    simp only [hnext, ← hstate']
    by_cases hdone : ucdGraphemeDone state' = true
    · -- the codepoint starts the next cluster
      refine ⟨0, cluster, codepoints rest, width, bitNot 0, 0, ?_, ?_, Nat.zero_le _, rfl, hwidth,
        hstate, ?_, fun _ => ⟨rfl, rfl⟩⟩
      · rw [hcodepoints, Segmenter.extendAll, hextend, if_pos hdone]
      · rw [if_pos hdone]
        rfl
      · intro hnil
        exact absurd (codepoints_eq_nil.mp hnil) hrest
    · set cluster' : OpenCluster :=
        ⟨min (cluster.width + d.graphemeWidth cp (d.ucdLookup cp)) 2, state', d.ucdLookup cp⟩
      have hwidth' : min (width + d.graphemeWidth cp (d.ucdLookup cp)) 2 = cluster'.width := by
        change _ = min (cluster.width + d.graphemeWidth cp (d.ucdLookup cp)) 2
        omega
      have hcluster' : d.segmenter.extend cluster cp = some cluster' := by
        rw [hextend, if_neg hdone]
      rw [if_neg hdone]
      by_cases hend : next = []
      · -- the text ends with the codepoint
        rw [if_pos hend]
        have hlength : n = rest.length := by
          rw [hend] at hn
          simpa using hn.symm
        refine ⟨n, cluster', [], _, state', d.ucdLookup cp, ?_, ?_, hle, ?_, hwidth',
          ucdGraphemeJoins_nonneg _ _ _, fun _ => ⟨rfl, rfl⟩, fun hne => absurd rfl hne⟩
        · rw [hcodepoints, Segmenter.extendAll, hcluster', hend, codepoints_nil]
          rfl
        · rw [← hdrop]
        · rw [← hdrop, hend, codepoints_nil]
      · rw [if_neg hend]
        have hlt := utf16NextOrFFFD_length_lt hnext
        obtain ⟨length, cluster'', behind, width'', state'', last'', hall, hfetch, hlengthLe,
          hbehind, hwidth'', hnonneg, hinterrupted, hfresh⟩ :=
          ih (by omega) hend _ _ hwidth' (ucdGraphemeJoins_nonneg _ _ _)
        refine ⟨n + length, cluster'', behind, width'', state'', last'', ?_, ?_, ?_, ?_, hwidth'',
          hnonneg, hinterrupted, hfresh⟩
        · rw [hcodepoints, Segmenter.extendAll, hcluster']
          simp only [hall]
        · rw [← List.drop_drop, ← hdrop]
          exact hfetch
        · rw [hdrop, List.length_drop] at hlengthLe
          omega
        · rw [← List.drop_drop, ← hdrop]
          exact hbehind

theorem clamp_eq (width : ℕ) : (if width > 2 then 2 else width) = min width 2 := by
  split_ifs <;> omega

@[simp] theorem bitNot_bitNot (v : ℤ) : bitNot (bitNot v) = v := by
  unfold bitNot
  omega

theorem graphemeNextGraphemes_resume (hmode : d.mode = .graphemes) {k : ℕ} {cluster : OpenCluster}
    (hptr : GoesOnAt s str k)
    (hk : str.units.drop k ≠ []) (hs : d.Interrupted cluster s) :
    ∃ more s', d.graphemeNextGraphemes s str = (more, s') ∧ d.Resumes str k cluster more s' := by
  have hwidthLe := hs.width_le hmode
  have hstate : s.state = bitNot cluster.state := by
    rw [hs.state, hmode]
  obtain ⟨length, cluster', behind, width', state', last', hall, hfetch, hlengthLe, hbehind, hwidth',
    hnonneg, hinterrupted, hfresh⟩ := fetchNext_eq hmode (str.units.drop k).length le_rfl hk
      s.width cluster (by rw [hs.width]; omega) hs.state_nonneg
  obtain ⟨⟨cp, next⟩, hnext⟩ := Option.ne_none_iff_exists'.mp (mt utf16NextOrFFFD_eq_none.mp hk)
  have hdrop : (str.units.drop k).length - ((str.units.drop k).drop length).length = length := by
    rw [List.length_drop (l := str.units.drop k)]
    omega
  have hafter : (str.units.drop k).drop length ≠ [] ↔ behind ≠ [] := by
    rw [← hbehind, ne_eq, ne_eq, codepoints_eq_nil]
  refine ⟨decide (behind ≠ []), ⟨str.data + k, length, min width' 2, bitNot state', last'⟩, ?_,
    length, cluster', behind, rfl, ?_, hall⟩
  · unfold graphemeNextGraphemes
    simp only [hptr, Nat.add_sub_cancel_left, hnext, if_pos hs.state_ne_zero]
    rw [hstate, bitNot_bitNot, hs.last, hfetch]
    simp only [hdrop, hafter, clamp_eq]
  · refine ⟨rfl, hwidth', hlengthLe, hbehind, rfl, fun hnil => ?_, fun hne => ?_⟩
    · obtain ⟨rfl, rfl⟩ := hinterrupted hnil
      exact ⟨hwidth', by rw [hmode], rfl, hnonneg, fun _ => by omega, fun hne => absurd hmode hne⟩
    · obtain ⟨rfl, rfl⟩ := hfresh hne
      exact ⟨bitNot_bitNot 0, rfl⟩

theorem graphemeNextGraphemes_start (hmode : d.mode = .graphemes) {k : ℕ} (hptr : GoesOnAt s str k)
    {cp : Char32} {next : List WChar} (hnext : utf16NextOrFFFD (str.units.drop k) = some (cp, next))
    (hs : Fresh s) :
    ∃ more s', d.graphemeNextGraphemes s str = (more, s') ∧ d.Starts str k cp next more s' := by
  obtain ⟨n, hpos, hle, hdrop⟩ := utf16NextOrFFFD_eq_drop hnext
  have hn : (str.units.drop k).length - next.length = n := by
    rw [hdrop, List.length_drop (l := str.units.drop k)]
    omega
  have hstart : (d.segmenter.start d.fallbackCache cp).1 =
      ⟨min (d.graphemeWidth cp (d.ucdLookup cp)) 2, 0, d.ucdLookup cp⟩ := by
    rw [segmenter, hmode]
  unfold Starts
  rw [hn, hstart]
  set cluster : OpenCluster := ⟨min (d.graphemeWidth cp (d.ucdLookup cp)) 2, 0, d.ucdLookup cp⟩
    with hcluster
  by_cases hend : next = []
  · have hlength : n = (str.units.drop k).length := by
      rw [hend] at hn
      simpa using hn.symm
    refine ⟨false, ⟨str.data + k, n, cluster.width, bitNot 0, d.ucdLookup cp⟩, ?_, 0, cluster, [],
      rfl, ?_, ?_⟩
    · unfold graphemeNextGraphemes
      simp only [hptr, Nat.add_sub_cancel_left, hnext, hs.state, ne_eq, not_true_eq_false, if_false,
        hend, if_true, List.length_nil, Nat.sub_zero, ← hlength, Nat.zero_add, decide_false, hcluster,
        clamp_eq]
    · refine ⟨rfl, rfl, hle, ?_, by simp, fun _ => ⟨rfl, by rw [hmode], rfl, le_rfl, fun _ => ?_,
        fun hne => absurd hmode hne⟩, fun hne => absurd rfl hne⟩
      · rw [Nat.add_zero, ← hdrop, hend, codepoints_nil]
      · exact Nat.min_le_right _ _
    · rw [hend, codepoints_nil]
      rfl
  · obtain ⟨length, cluster', behind, width', state', last', hall, hfetch, hlengthLe, hbehind,
      hwidth', hnonneg, hinterrupted, hfresh⟩ := fetchNext_eq hmode next.length le_rfl hend
        (0 + d.graphemeWidth cp (d.ucdLookup cp)) cluster (by rw [Nat.zero_add]) le_rfl
    have hafter : next.drop length ≠ [] ↔ behind ≠ [] := by
      rw [← hbehind, ne_eq, ne_eq, codepoints_eq_nil]
    have hlengthNext : next.length = (str.units.drop k).length - n := by
      rw [hdrop, List.length_drop (l := str.units.drop k)]
    have hlen : (str.units.drop k).length - (next.drop length).length = n + length := by
      rw [List.length_drop (l := next)]
      omega
    refine ⟨decide (behind ≠ []), ⟨str.data + k, n + length, min width' 2, bitNot state', last'⟩,
      ?_, length, cluster', behind, rfl, ?_, hall⟩
    · unfold graphemeNextGraphemes
      simp only [hptr, Nat.add_sub_cancel_left, hnext, hs.state, ne_eq, not_true_eq_false, if_false,
        hend]
      rw [hfetch]
      simp only [hlen, hafter, clamp_eq]
    · refine ⟨rfl, hwidth', by omega, ?_, rfl, fun hnil => ?_, fun hne => ?_⟩
      · rw [← List.drop_drop, ← hdrop]
        exact hbehind
      · obtain ⟨rfl, rfl⟩ := hinterrupted hnil
        exact ⟨hwidth', by rw [hmode], rfl, hnonneg, fun _ => by omega, fun hne => absurd hmode hne⟩
      · obtain ⟨rfl, rfl⟩ := hfresh hne
        exact ⟨bitNot_bitNot 0, rfl⟩

end Graphemes

section Wcswidth

variable {d : CodepointWidthDetector} {rest : List WChar} {s : GraphemeState} {str : StringView}

theorem wcswidthLoop_eq (hmode : d.mode = .wcswidth) (fuel : ℕ) (hfuel : rest.length ≤ fuel)
    (hrest : rest ≠ []) (width : ℕ) :
    ∃ length behind state',
      d.segmenter.extendAll ⟨width, 1, 0⟩ (codepoints rest) = (length, ⟨width, 1, 0⟩, behind) ∧
      d.wcswidthLoop fuel rest width 1 = (rest.drop length, width, state') ∧
      length ≤ rest.length ∧ codepoints (rest.drop length) = behind ∧
      (behind = [] → state' = 1) ∧ (behind ≠ [] → state' = 0) := by
  induction fuel generalizing rest with
  | zero => exact absurd (List.length_eq_zero_iff.mp (by omega)) hrest
  | succ fuel ih =>
    obtain ⟨⟨cp, next⟩, hnext⟩ := Option.ne_none_iff_exists'.mp (mt utf16NextOrFFFD_eq_none.mp hrest)
    obtain ⟨n, hpos, hle, hdrop⟩ := utf16NextOrFFFD_eq_drop hnext
    have hn : rest.length - next.length = n := by
      rw [hdrop, List.length_drop]
      omega
    have hcodepoints := codepoints_of_next hnext
    rw [hn] at hcodepoints
    have hextend : d.segmenter.extend ⟨width, 1, 0⟩ cp =
        if d.characterWidth (d.ucdLookup cp) ≠ 0 then none else some ⟨width, 1, 0⟩ := by
      rw [segmenter, hmode]
    unfold wcswidthLoop
    simp only [hnext, ne_eq, one_ne_zero, not_false_eq_true, true_and]
    by_cases hzero : d.characterWidth (d.ucdLookup cp) = 0
    · have hcluster : d.segmenter.extend ⟨width, 1, 0⟩ cp = some ⟨width, 1, 0⟩ := by
        rw [hextend, if_neg (not_not.mpr hzero)]
      rw [if_neg (not_not.mpr hzero), hzero, Nat.add_zero]
      by_cases hend : next = []
      · rw [if_pos hend]
        refine ⟨n, [], 1, ?_, by rw [← hdrop], hle, ?_, fun _ => rfl, fun hne => absurd rfl hne⟩
        · rw [hcodepoints, Segmenter.extendAll, hcluster, hend, codepoints_nil]
          rfl
        · rw [← hdrop, hend, codepoints_nil]
      · rw [if_neg hend]
        have hlt := utf16NextOrFFFD_length_lt hnext
        obtain ⟨length, behind, state', hall, hloop, hlengthLe, hbehind, hinterrupted, hfresh⟩ :=
          ih (by omega) hend
        refine ⟨n + length, behind, state', ?_, ?_, ?_, ?_, hinterrupted, hfresh⟩
        · rw [hcodepoints, Segmenter.extendAll, hcluster]
          simp only [hall]
        · rw [← List.drop_drop, ← hdrop]
          exact hloop
        · rw [hdrop, List.length_drop] at hlengthLe
          omega
        · rw [← List.drop_drop, ← hdrop]
          exact hbehind
    · -- a codepoint of a width starts the next cluster
      rw [if_pos hzero]
      refine ⟨0, codepoints rest, 0, ?_, rfl, Nat.zero_le _, rfl, fun hnil => ?_, fun _ => rfl⟩
      · rw [hcodepoints, Segmenter.extendAll, hextend, if_pos hzero]
      · exact absurd (codepoints_eq_nil.mp hnil) hrest

theorem found_wcswidth (hmode : d.mode = .wcswidth) {rest : List WChar}
    {length : ℕ} {behind : List (Char32 × ℕ)} {state' : ℤ} (beg width : ℕ) (hlast : s.last = 0)
    (hlength : length ≤ rest.length) (hbehind : codepoints (rest.drop length) = behind)
    (hinterrupted : behind = [] → state' = 1) (hfresh : behind ≠ [] → state' = 0) :
    d.Found rest length ⟨width, 1, 0⟩ behind (decide (rest.drop length ≠ []))
      { s with
        beg, len := rest.length - (rest.drop length).length, width, state := state' } := by
  have hlen : rest.length - (rest.drop length).length = length := by
    rw [List.length_drop]
    omega
  refine ⟨hlen, rfl, hlength, hbehind, ?_, fun hnil => ?_, fun hne => ⟨hfresh hne, hlast⟩⟩
  · rw [← hbehind]
    simp only [ne_eq, codepoints_eq_nil]
  · refine ⟨rfl, ?_, hlast, Int.one_nonneg, fun hgraphemes => ?_, fun _ => ⟨rfl, rfl⟩⟩
    · rw [hmode]
      exact hinterrupted hnil
    · rw [hmode] at hgraphemes
      exact absurd hgraphemes (by decide)

theorem graphemeNextWcswidth_resume (hmode : d.mode = .wcswidth) {k : ℕ} {cluster : OpenCluster}
    (hptr : GoesOnAt s str k)
    (hk : str.units.drop k ≠ []) (hs : d.Interrupted cluster s) :
    ∃ more s', d.graphemeNextWcswidth s str = (more, s') ∧ d.Resumes str k cluster more s' := by
  obtain ⟨hstate, hlast⟩ := hs.plain (by rw [hmode]; decide)
  obtain ⟨length, behind, state', hall, hloop, hlengthLe, hbehind, hinterrupted, hfresh⟩ :=
    wcswidthLoop_eq hmode (str.units.drop k).length le_rfl hk s.width
  have hcluster : cluster = ⟨s.width, 1, 0⟩ := by
    rw [hs.width, ← hstate, ← hlast]
  have hsState : s.state = 1 := by
    rw [hs.state, hmode]
  have hsLast : s.last = 0 := hs.last.trans hlast
  have hfound := found_wcswidth hmode (s := s) (str.data + k) s.width hsLast hlengthLe hbehind
    hinterrupted hfresh
  refine ⟨_, _, ?_, length, _, behind, rfl, hfound, hcluster ▸ hall⟩
  unfold graphemeNextWcswidth
  simp only [hptr, Nat.add_sub_cancel_left, if_neg hk, hsState, one_ne_zero, if_false, hloop]

theorem graphemeNextWcswidth_start (hmode : d.mode = .wcswidth) {k : ℕ} (hptr : GoesOnAt s str k)
    {cp : Char32} {next : List WChar} (hnext : utf16NextOrFFFD (str.units.drop k) = some (cp, next))
    (hs : Fresh s) :
    ∃ more s', d.graphemeNextWcswidth s str = (more, s') ∧ d.Starts str k cp next more s' := by
  obtain ⟨n, hpos, hle, hdrop⟩ := utf16NextOrFFFD_eq_drop hnext
  have hn : (str.units.drop k).length - next.length = n := by
    rw [hdrop, List.length_drop (l := str.units.drop k)]
    omega
  have hk : str.units.drop k ≠ [] := by
    intro hnil
    rw [hnil] at hnext
    simp [utf16NextOrFFFD] at hnext
  have hstart : (d.segmenter.start d.fallbackCache cp).1 =
      ⟨d.characterWidth (d.ucdLookup cp), 1, 0⟩ := by
    rw [segmenter, hmode]
  obtain ⟨fuel, hfuel⟩ : ∃ fuel, (str.units.drop k).length = fuel + 1 :=
    ⟨(str.units.drop k).length - 1, by omega⟩
  have hlt := utf16NextOrFFFD_length_lt hnext
  unfold Starts
  rw [hn, hstart]
  set width := d.characterWidth (d.ucdLookup cp) with hwidth
  obtain ⟨length, behind, state', hall, hloop, hlengthLe, hbehind, hinterrupted, hfresh⟩ :
      ∃ length behind state',
        d.segmenter.extendAll ⟨width, 1, 0⟩ (codepoints next) = (length, ⟨width, 1, 0⟩, behind) ∧
        (if next = [] then (next, width, 1) else d.wcswidthLoop fuel next width 1) =
          (next.drop length, width, state') ∧
        length ≤ next.length ∧ codepoints (next.drop length) = behind ∧
        (behind = [] → state' = 1) ∧ (behind ≠ [] → state' = 0) := by
    by_cases hend : next = []
    · refine ⟨0, [], 1, ?_, if_pos hend, Nat.zero_le _, ?_, fun _ => rfl, fun hne => absurd rfl hne⟩
      · rw [hend, codepoints_nil]
        rfl
      · rw [hend, List.drop_nil, codepoints_nil]
    · rw [if_neg hend]
      exact wcswidthLoop_eq hmode fuel (by omega) hend width
  have hdrops : next.drop length = (str.units.drop k).drop (n + length) := by
    rw [hdrop, List.drop_drop]
  have hlengthRest : n + length ≤ (str.units.drop k).length := by
    rw [hdrop, List.length_drop (l := str.units.drop k)] at hlengthLe
    omega
  have hfound := found_wcswidth hmode (s := s) (str.data + k) width hs.last hlengthRest
    (by rw [← hdrops]; exact hbehind) hinterrupted hfresh
  refine ⟨_, _, ?_, length, _, behind, rfl, hfound, hall⟩
  unfold graphemeNextWcswidth
  simp only [hptr, Nat.add_sub_cancel_left, if_neg hk, hs.state, if_true, hfuel, wcswidthLoop, hnext,
    ne_eq, not_true_eq_false, false_and, if_false, Nat.zero_add, ← hwidth, hloop, hdrops]

end Wcswidth

section Console

variable {d : CodepointWidthDetector} {str : StringView} {s : GraphemeState}

theorem consoleWidth_snd (d : CodepointWidthDetector) (cp : Char32) :
    ∃ cache, (d.consoleWidth cp).2 = { d with fallbackCache := cache } := by
  obtain ⟨lookup, cache, method, mode, ambiguousWidth⟩ := d
  unfold consoleWidth checkFallbackViaCache
  dsimp only
  split_ifs
  · cases method with
    | none => exact ⟨cache, rfl⟩
    | some method =>
      dsimp only
      cases hcached : cache cp with
      | none => exact ⟨_, rfl⟩
      | some width => exact ⟨cache, rfl⟩
  · exact ⟨cache, rfl⟩

theorem start_console (hmode : d.mode = .console) (cp : Char32) :
    d.segmenter.start d.fallbackCache cp =
      (⟨(d.consoleWidth cp).1, 1, 0⟩, (d.consoleWidth cp).2.fallbackCache) := by
  obtain ⟨lookup, cache, method, mode, ambiguousWidth⟩ := d
  obtain rfl : mode = .console := hmode
  rfl

theorem graphemeNextConsole_resume (hmode : d.mode = .console) {k : ℕ} {cluster : OpenCluster}
    (hptr : GoesOnAt s str k)
    (hk : str.units.drop k ≠ []) (hs : d.Interrupted cluster s) :
    ∃ more s', d.graphemeNextConsole s str = (more, s', d) ∧ d.Resumes str k cluster more s' := by
  obtain ⟨⟨cp, next⟩, hnext⟩ := Option.ne_none_iff_exists'.mp (mt utf16NextOrFFFD_eq_none.mp hk)
  have hcodepoints := codepoints_of_next hnext
  have hne : codepoints (str.units.drop k) ≠ [] := by
    rw [hcodepoints]
    simp
  refine ⟨true, { s with beg := str.data + k, len := 0, state := 0 }, ?_,
    0, cluster, codepoints (str.units.drop k), rfl, ?_, ?_⟩
  · unfold graphemeNextConsole
    simp only [hptr, Nat.add_sub_cancel_left, hnext, if_neg hs.state_ne_zero]
  · exact ⟨rfl, hs.width, Nat.zero_le _, rfl, by simp [hne], fun hnil => absurd hnil hne,
      fun _ => ⟨rfl, hs.last.trans (hs.plain (by rw [hmode]; decide)).2⟩⟩
  · rw [hcodepoints, Segmenter.extendAll, segmenter, hmode]

theorem graphemeNextConsole_start (hmode : d.mode = .console) {k : ℕ} (hptr : GoesOnAt s str k)
    {cp : Char32} {next : List WChar} (hnext : utf16NextOrFFFD (str.units.drop k) = some (cp, next))
    (hs : Fresh s) :
    ∃ more s', d.graphemeNextConsole s str =
        (more, s', { d with fallbackCache := (d.segmenter.start d.fallbackCache cp).2 }) ∧
      d.Starts str k cp next more s' := by
  obtain ⟨n, hpos, hle, hdrop⟩ := utf16NextOrFFFD_eq_drop hnext
  have hn : (str.units.drop k).length - next.length = n := by
    rw [hdrop, List.length_drop (l := str.units.drop k)]
    omega
  have hcache : { d with fallbackCache := (d.consoleWidth cp).2.fallbackCache } =
      (d.consoleWidth cp).2 := by
    obtain ⟨cache, hcache⟩ := d.consoleWidth_snd cp
    rw [hcache]
  have hstart : d.segmenter.start d.fallbackCache cp =
      (⟨(d.consoleWidth cp).1, 1, 0⟩, (d.consoleWidth cp).2.fallbackCache) := start_console hmode cp
  unfold Starts
  rw [hn, hstart, hcache]
  refine ⟨decide (next ≠ []),
    { s with
      beg := str.data + k, len := n, width := (d.consoleWidth cp).1,
      state := if next = [] then 1 else 0 }, ?_,
    0, ⟨(d.consoleWidth cp).1, 1, 0⟩, codepoints next, rfl, ?_, ?_⟩
  · unfold graphemeNextConsole
    simp only [hptr, Nat.add_sub_cancel_left, hnext, hs.state, if_true, hn]
    by_cases hend : next = [] <;> simp [hend]
  · refine ⟨rfl, rfl, hle, ?_, ?_, fun hnil => ?_, fun hne => ⟨?_, hs.last⟩⟩
    · rw [Nat.add_zero, ← hdrop]
    · simp only [ne_eq, codepoints_eq_nil]
    · refine ⟨rfl, ?_, hs.last, Int.one_nonneg, fun hgraphemes => ?_, fun _ => ⟨rfl, rfl⟩⟩
      · rw [hmode]
        exact if_pos (codepoints_eq_nil.mp hnil)
      · rw [hmode] at hgraphemes
        exact absurd hgraphemes (by decide)
    · exact if_neg (mt codepoints_eq_nil.mpr hne)
  · cases codepoints next with
    | nil => rfl
    | cons symbol rest =>
      rw [Segmenter.extendAll, segmenter, hmode]

end Console

section Iterate

variable {d : CodepointWidthDetector} {s : GraphemeState} {str : StringView} {k : ℕ}
  {s' : GraphemeState} {more : Bool}

theorem memo_of_not_console (hmode : d.mode ≠ .console) (memo : Char32 → Option ℕ) (cp : Char32) :
    (d.segmenter.start memo cp).2 = memo := by
  unfold segmenter
  cases h : d.mode with
  | graphemes => rfl
  | wcswidth => rfl
  | console => exact absurd h hmode

theorem mode_cases (d : CodepointWidthDetector) :
    d.mode = .graphemes ∨ d.mode = .wcswidth ∨ d.mode = .console := by
  cases d.mode <;> simp

theorem graphemeNext_graphemes (hmode : d.mode = .graphemes)
    (hcall : d.graphemeNextGraphemes s str = (more, s')) :
    d.graphemeNext s str = (more, s', d) := by
  simp only [graphemeNext, hmode, hcall]

theorem graphemeNext_wcswidth (hmode : d.mode = .wcswidth)
    (hcall : d.graphemeNextWcswidth s str = (more, s')) :
    d.graphemeNext s str = (more, s', d) := by
  simp only [graphemeNext, hmode, hcall]

theorem graphemeNext_console (hmode : d.mode = .console) :
    d.graphemeNext s str = d.graphemeNextConsole s str := by
  simp only [graphemeNext, hmode]

theorem graphemeNext_resume {cluster : OpenCluster}
    (hptr : GoesOnAt s str k)
    (hk : str.units.drop k ≠ []) (hs : d.Interrupted cluster s) :
    ∃ more s', d.graphemeNext s str = (more, s', d) ∧ d.Resumes str k cluster more s' := by
  obtain hmode | hmode | hmode := d.mode_cases
  · obtain ⟨more, s', hcall, hrest⟩ := graphemeNextGraphemes_resume hmode hptr hk hs
    exact ⟨more, s', graphemeNext_graphemes hmode hcall, hrest⟩
  · obtain ⟨more, s', hcall, hrest⟩ := graphemeNextWcswidth_resume hmode hptr hk hs
    exact ⟨more, s', graphemeNext_wcswidth hmode hcall, hrest⟩
  · rw [graphemeNext_console hmode]
    exact graphemeNextConsole_resume hmode hptr hk hs

theorem graphemeNext_start
    (hptr : GoesOnAt s str k)
    {cp : Char32} {next : List WChar} (hnext : utf16NextOrFFFD (str.units.drop k) = some (cp, next))
    (hs : Fresh s) :
    ∃ more s', d.graphemeNext s str =
        (more, s', { d with fallbackCache := (d.segmenter.start d.fallbackCache cp).2 }) ∧
      d.Starts str k cp next more s' := by
  obtain hmode | hmode | hmode := d.mode_cases
  · obtain ⟨more, s', hcall, hrest⟩ := graphemeNextGraphemes_start hmode hptr hnext hs
    refine ⟨more, s', ?_, hrest⟩
    rw [memo_of_not_console (by rw [hmode]; decide)]
    exact graphemeNext_graphemes hmode hcall
  · obtain ⟨more, s', hcall, hrest⟩ := graphemeNextWcswidth_start hmode hptr hnext hs
    refine ⟨more, s', ?_, hrest⟩
    rw [memo_of_not_console (by rw [hmode]; decide)]
    exact graphemeNext_wcswidth hmode hcall
  · rw [graphemeNext_console hmode]
    exact graphemeNextConsole_start hmode hptr hnext hs

/-- What is read before the text. -/
def segmentationOf (d : CodepointWidthDetector) (position : ℕ) (carried : Option OpenCluster) :
    Segmentation (Char32 → Option ℕ) OpenCluster where
  current := carried.map fun cluster => ⟨position, 0, cluster⟩
  position := position
  memo := d.fallbackCache

theorem graphemeNext_found {carried : Option OpenCluster}
    (hptr : GoesOnAt s str k)
    (hk : str.units.drop k ≠ []) (hs : d.Carries s carried) (position : ℕ) :
    ∃ length cluster behind more s' memo,
      d.graphemeNext s str = (more, s', { d with fallbackCache := memo }) ∧
      s'.beg = str.data + k ∧ d.Found (str.units.drop k) length cluster behind more s' ∧
      (behind = [] → (codepoints (str.units.drop k)).foldl d.segmenter.add
          (d.segmentationOf position carried) =
        ⟨[], some ⟨position, length, cluster⟩, position + length, memo⟩) ∧
      (behind ≠ [] → (codepoints (str.units.drop k)).foldl d.segmenter.add
          (d.segmentationOf position carried) =
        behind.foldl d.segmenter.add
          ⟨[⟨position, length, cluster⟩], none, position + length, memo⟩) ∧
      (carried = none → 0 < length) := by
  cases carried with
  | some cluster₀ =>
    obtain ⟨more, s', hcall, length, cluster, behind, hbeg, hfound, hall⟩ :=
      graphemeNext_resume hptr hk hs
    obtain ⟨hend, hmore⟩ := Segmenter.foldl_add_extendAll (codepoints (str.units.drop k))
      (s := d.segmentationOf position (some cluster₀)) rfl hall
    refine ⟨length, cluster, behind, more, s', d.fallbackCache, hcall, hbeg, hfound, ?_, ?_, by simp⟩
    · simpa only [segmentationOf, Nat.zero_add] using hend
    · simpa only [segmentationOf, Nat.zero_add, List.nil_append] using hmore
  | none =>
    obtain ⟨⟨cp, next⟩, hnext⟩ := Option.ne_none_iff_exists'.mp (mt utf16NextOrFFFD_eq_none.mp hk)
    have hlt := utf16NextOrFFFD_length_lt hnext
    obtain ⟨more, s', hcall, length, cluster, behind, hbeg, hfound, hall⟩ :=
      graphemeNext_start hptr hnext hs
    set n := (str.units.drop k).length - next.length
    obtain ⟨hend, hmore⟩ := Segmenter.foldl_add_extendAll (codepoints next)
      (s := d.segmenter.open_ (d.segmentationOf position none) (cp, n)) rfl hall
    have hfirst : (codepoints (str.units.drop k)).foldl d.segmenter.add
        (d.segmentationOf position none) = (codepoints next).foldl d.segmenter.add
          (d.segmenter.open_ (d.segmentationOf position none) (cp, n)) := by
      rw [codepoints_of_next hnext]
      rfl
    refine ⟨n + length, cluster, behind, more, s', _, hcall, hbeg, hfound, ?_, ?_, fun _ => by omega⟩
    · rw [hfirst]
      simpa only [segmentationOf, Segmenter.open_, Nat.add_assoc] using hend
    · rw [hfirst]
      simpa only [segmentationOf, Segmenter.open_, Nat.add_assoc, List.nil_append] using hmore

/-- A cluster with the width that is known of it. -/
def toCluster (piece : Piece OpenCluster) : Piece ℕ := ⟨piece.start, piece.length, piece.value.width⟩

theorem iterateN_eq (carried : Option OpenCluster) (offset fuel : ℕ)
    (hptr : GoesOnAt s str k)
    (hk : str.units.drop k ≠ []) (hs : d.Carries s carried)
    (hfuel : (str.units.drop k).length + carried.toList.length ≤ fuel) :
    ∃ last s',
      d.iterateN offset str fuel s =
        (((codepoints (str.units.drop k)).foldl d.segmenter.add
            (d.segmentationOf (offset + k) carried)).pieces.map toCluster, s',
          { d with fallbackCache := ((codepoints (str.units.drop k)).foldl d.segmenter.add
            (d.segmentationOf (offset + k) carried)).memo }) ∧
      ((codepoints (str.units.drop k)).foldl d.segmenter.add
        (d.segmentationOf (offset + k) carried)).current = some last ∧
      d.Interrupted last.value s' ∧ s'.beg + s'.len = str.end_ := by
  induction fuel generalizing d s k carried with
  | zero => exact absurd (List.length_eq_zero_iff.mp (by omega)) hk
  | succ fuel ih =>
    have hunits : str.units ≠ [] := by
      rintro hnil
      simp [hnil] at hk
    have hklt : k < str.units.length := by
      by_contra hge
      exact hk (List.drop_eq_nil_of_le (by omega))
    obtain ⟨length, cluster, behind, more, s', memo, hcall, hbeg, hfound, hend, hmore, hpos⟩ :=
      graphemeNext_found hptr hk hs (offset + k)
    have hlen := hfound.len
    have hwidth := hfound.width
    have hle := hfound.length_le
    rw [List.length_drop] at hle hfuel
    unfold iterateN
    rw [hcall]
    dsimp only
    rw [hbeg, hlen, hwidth, Nat.add_sub_cancel_left, hfound.more]
    by_cases hbehind : behind = []
    · -- the text ends inside of this cluster
      have hlengthEq : length = str.units.length - k := by
        have hnil := hfound.codepoints_drop
        rw [hbehind, codepoints_eq_nil, List.drop_drop, List.drop_eq_nil_iff] at hnil
        omega
      rw [hend hbehind]
      refine ⟨⟨offset + k, length, cluster⟩, s', ?_, rfl, hfound.interrupted hbehind, ?_⟩
      · simp [hbehind, hunits, Segmentation.pieces, toCluster]
      · rw [hbeg, hlen, hlengthEq, StringView.end_]
        omega
    · have hdrop : str.units.drop (k + length) ≠ [] := by
        rw [← List.drop_drop, ne_eq, ← codepoints_eq_nil, hfound.codepoints_drop]
        exact hbehind
      have hlt : k + length < str.units.length := by
        by_contra hge
        exact hdrop (List.drop_eq_nil_of_le (by omega))
      have hptr' : resetIfOutOfRange str.data str.end_ str.data (s'.beg + s'.len) =
          str.data + (k + length) := by
        rw [hbeg, hlen, Nat.add_assoc]
        exact resetIfOutOfRange_inside _ (by omega) (by rw [StringView.end_]; omega)
      have hbehindEq : codepoints (str.units.drop (k + length)) = behind := by
        rw [← List.drop_drop]
        exact hfound.codepoints_drop
      have hfuel' : (str.units.drop (k + length)).length +
          (none : Option OpenCluster).toList.length ≤ fuel := by
        rw [List.length_drop]
        cases carried with
        | none =>
          have := hpos rfl
          simp only [Option.toList_none, List.length_nil] at hfuel ⊢
          omega
        | some cluster₀ =>
          simp only [Option.toList_some, Option.toList_none, List.length_nil,
            List.length_singleton] at hfuel ⊢
          omega
      obtain ⟨last, s'', hiterate, hcurrent, hinterrupted, hatEnd⟩ :=
        ih (d := { d with fallbackCache := memo }) none hptr' hdrop
          (hfound.fresh hbehind) hfuel'
      have hclosed := Segmenter.foldl_add_closed (m := d.segmenter)
        [⟨offset + k, length, cluster⟩] behind
        ⟨[], none, offset + k + length, memo⟩
      rw [hbehindEq] at hiterate hcurrent
      rw [hmore hbehind]
      rw [List.append_nil] at hclosed
      have hsegmentation : CodepointWidthDetector.segmentationOf { d with fallbackCache := memo }
          (offset + (k + length)) none = ⟨[], none, offset + k + length, memo⟩ := by
        rw [segmentationOf, Nat.add_assoc]
        rfl
      have hsegmenter : CodepointWidthDetector.segmenter { d with fallbackCache := memo } =
          d.segmenter := rfl
      rw [hsegmentation, hsegmenter] at hiterate hcurrent
      refine ⟨last, s'', ?_, ?_, ⟨hinterrupted.width, hinterrupted.state, hinterrupted.last,
        hinterrupted.state_nonneg, hinterrupted.width_le, hinterrupted.plain⟩, hatEnd⟩
      · rw [hclosed, hiterate]
        simp [hbehind, Segmentation.pieces, toCluster]
      · rw [hclosed]
        exact hcurrent

end Iterate

end CodepointWidthDetector

/-! ### A text in two parts -/

/-- A text, and its two parts in memory. The parts do not overlap; they may be two parts of the
text itself. -/
structure Split where
  whole : StringView
  first : StringView
  second : StringView
  units_eq : whole.units = first.units ++ second.units
  disjoint : first.end_ ≤ second.data ∨ second.end_ ≤ first.data

open CodepointWidthDetector

theorem iterate_first (d : CodepointWidthDetector) (str : StringView) (hunits : str.units ≠ []) :
    ∃ last s',
      d.iterate 0 {} str =
        (((codepoints str.units).foldl d.segmenter.add (d.segmentationOf 0 none)).pieces.map
            toCluster, s',
          { d with fallbackCache := ((codepoints str.units).foldl d.segmenter.add
            (d.segmentationOf 0 none)).memo }) ∧
      ((codepoints str.units).foldl d.segmenter.add (d.segmentationOf 0 none)).current = some last ∧
      d.Interrupted last.value s' ∧ s'.beg + s'.len = str.end_ := by
  have hptr : resetIfOutOfRange str.data str.end_ str.data 0 = str.data + 0 :=
    resetIfOutOfRange_outside _ (.inl str.data_pos)
  exact iterateN_eq (d := d) (s := {}) none 0 (str.units.length + 1) hptr hunits
    ⟨rfl, rfl⟩ (Nat.le_succ _)

theorem iterate_empty (d : CodepointWidthDetector) (offset : ℕ) (s : GraphemeState)
    {str : StringView} (hunits : str.units = []) : d.iterate offset s str = ([], s, d) := by
  have hnext : d.graphemeNext s str = (false, s, d) := by
    obtain hmode | hmode | hmode := d.mode_cases
    · exact graphemeNext_graphemes hmode (by
        simp [graphemeNextGraphemes, hunits, utf16NextOrFFFD])
    · exact graphemeNext_wcswidth hmode (by simp [graphemeNextWcswidth, hunits])
    · rw [graphemeNext_console hmode]
      simp [graphemeNextConsole, hunits, utf16NextOrFFFD]
  simp [iterate, iterateN, hunits, hnext]

theorem map_joinPieces (l r : List (Piece OpenCluster)) :
    (joinPieces l r).map toCluster = joinPieces (l.map toCluster) (r.map toCluster) := by
  unfold joinPieces
  rw [List.getLast?_map]
  cases l.getLast? with
  | none => rfl
  | some last =>
    cases r with
    | nil => rfl
    | cons first rest => simp [toCluster]

theorem joinPieces_nil_right (l : List (Piece ℕ)) : joinPieces l [] = l := by
  unfold joinPieces
  cases h : l.getLast? with
  | none => exact (List.getLast?_eq_none_iff.mp h).symm
  | some last => rfl

theorem CodepointWidthDetector.Interrupted.unique {d d' : CodepointWidthDetector} (hmode : d.mode = d'.mode)
    {cluster : OpenCluster} {s s' : GraphemeState} (h : d.Interrupted cluster s)
    (h' : d'.Interrupted cluster s') :
    s.width = s'.width ∧ s.state = s'.state ∧ s.last = s'.last := by
  refine ⟨h.width.trans h'.width.symm, ?_, h.last.trans h'.last.symm⟩
  rw [h.state, h'.state, hmode]

/-- The clusters of a text do not depend on whether `GraphemeNext` is given the text as a whole or,
with one state, in two parts: the boundaries and the widths are the same, the last cluster of the
first part and the first of the second being one, and so is what the state knows in the end. No
part may start with the second half of a surrogate pair. -/
theorem graphemeNext_chunked (d : CodepointWidthDetector) (t : Split)
    (hpair : ¬SplitsPair t.first.units t.second.units) :
    let whole := d.iterate 0 {} t.whole
    let first := d.iterate 0 {} t.first
    let second := first.2.2.iterate t.first.units.length first.2.1 t.second
    whole.1 = joinPieces first.1 second.1 ∧
      whole.2.1.width = second.2.1.width ∧ whole.2.1.state = second.2.1.state ∧
      whole.2.1.last = second.2.1.last ∧ whole.2.2 = second.2.2 := by
  intro whole first second
  by_cases hfirst : t.first.units = []
  · -- the first part is empty
    have hfirstEq : first = ([], {}, d) := iterate_empty d 0 {} hfirst
    have hwholeUnits : t.whole.units = t.second.units := by rw [t.units_eq, hfirst, List.nil_append]
    have hsecondEq : second = d.iterate 0 {} t.second := by
      simp only [second, hfirstEq, hfirst, List.length_nil]
    rw [hfirstEq, hsecondEq]
    by_cases hsecond : t.second.units = []
    · have hwholeEq : whole = ([], {}, d) := iterate_empty d 0 {} (hwholeUnits.trans hsecond)
      rw [hwholeEq, iterate_empty d 0 {} hsecond]
      exact ⟨rfl, rfl, rfl, rfl, rfl⟩
    · obtain ⟨last, s, hwholeEq, hcurrent, hstate, -⟩ :=
        iterate_first d t.whole (by rw [hwholeUnits]; exact hsecond)
      obtain ⟨last', s', hpart, hcurrent', hstate', -⟩ := iterate_first d t.second hsecond
      rw [hwholeUnits] at hwholeEq hcurrent
      obtain rfl : last = last' := Option.some.inj (hcurrent.symm.trans hcurrent')
      obtain ⟨hwidth, hstates, hlast⟩ := hstate.unique rfl hstate'
      rw [hpart, show whole = _ from hwholeEq]
      exact ⟨rfl, hwidth, hstates, hlast, rfl⟩
  · obtain ⟨last, s, hfirstEq, hcurrent, hstate, hend⟩ := iterate_first d t.first hfirst
    have hfirstEq' : first = _ := hfirstEq
    by_cases hsecond : t.second.units = []
    · -- the second part is empty
      have hwholeUnits : t.whole.units = t.first.units := by
        rw [t.units_eq, hsecond, List.append_nil]
      obtain ⟨last', s', hwholeEq, hcurrent', hstate', -⟩ :=
        iterate_first d t.whole (by rw [hwholeUnits]; exact hfirst)
      rw [hwholeUnits] at hwholeEq hcurrent'
      obtain rfl : last' = last := Option.some.inj (hcurrent'.symm.trans hcurrent)
      obtain ⟨hwidth, hstates, hlast⟩ := hstate'.unique rfl hstate
      have hsecondEq : second = ([], first.2.1, first.2.2) := iterate_empty _ _ _ hsecond
      rw [hsecondEq, joinPieces_nil_right, hfirstEq', show whole = _ from hwholeEq]
      exact ⟨rfl, hwidth, hstates, hlast, rfl⟩
    · set cut := (codepoints t.first.units).foldl d.segmenter.add (d.segmentationOf 0 none) with hcut
      have hposition : cut.position = t.first.units.length := by
        rw [hcut, Segmenter.position_foldl_add, sum_codepoints]
        exact Nat.zero_add _
      have hptr : resetIfOutOfRange t.second.data t.second.end_ t.second.data (s.beg + s.len) =
          t.second.data + 0 := by
        have hlength := List.length_pos_of_ne_nil hfirst
        have hdisjoint := t.disjoint
        rw [hend]
        unfold StringView.end_ at hdisjoint ⊢
        rcases Nat.lt_trichotomy (t.first.data + t.first.units.length) t.second.data with
          hlt | heq | hgt
        · exact resetIfOutOfRange_outside _ (.inl hlt)
        · rw [heq]
          exact resetIfOutOfRange_inside _ le_rfl (Nat.le_add_right _ _)
        · exact resetIfOutOfRange_outside _ (.inr (by omega))
      obtain ⟨last', s', hsecondEq, hcurrent', hstate', -⟩ :=
        iterateN_eq (d := { d with fallbackCache := cut.memo }) (s := s) (some last.value)
          t.first.units.length (t.second.units.length + 1) hptr hsecond
          ⟨hstate.width, hstate.state, hstate.last, hstate.state_nonneg, hstate.width_le,
            hstate.plain⟩ le_rfl
      have hwhole : t.whole.units ≠ [] := by
        rw [t.units_eq]
        simp [hfirst]
      obtain ⟨last'', s'', hwholeEq, hcurrent'', hstate'', -⟩ := iterate_first d t.whole hwhole
      have hresumed := Segmenter.pieces_foldl_resume (m := d.segmenter)
        (codepoints t.second.units) hcurrent
      have hcodepoints : (codepoints t.whole.units).foldl d.segmenter.add (d.segmentationOf 0 none) =
          (codepoints t.second.units).foldl d.segmenter.add cut := by
        rw [t.units_eq, codepoints_append hpair, List.foldl_append]
      have hcarried : segmentationOf { d with fallbackCache := cut.memo } (t.first.units.length + 0)
          (some last.value) =
            ⟨[], some ⟨cut.position, 0, last.value⟩, cut.position, cut.memo⟩ := by
        rw [hposition]
        rfl
      have hsegmenter : segmenter { d with fallbackCache := cut.memo } = d.segmenter := rfl
      rw [hcarried, hsegmenter, List.drop_zero] at hsecondEq hcurrent'
      rw [hcodepoints] at hwholeEq hcurrent''
      obtain ⟨hvalues, hmemo⟩ := hresumed.current_value
      rw [hcurrent', hcurrent''] at hvalues
      have hvalue : last''.value = last'.value := Option.some.inj hvalues
      rw [hvalue] at hstate''
      have hmode : d.mode = CodepointWidthDetector.mode { d with fallbackCache := cut.memo } := rfl
      obtain ⟨hwidth, hstates, hlast⟩ := hstate''.unique hmode hstate'
      have hsecondEq' : second = iterateN t.first.units.length t.second
          (t.second.units.length + 1) { d with fallbackCache := cut.memo } s := by
        simp only [second, hfirstEq', iterate]
      have hpieces : cut.pieces = cut.closed ++ [last] := by
        rw [Segmentation.pieces, hcurrent]
        rfl
      rw [hsecondEq', hsecondEq, hfirstEq', show whole = _ from hwholeEq]
      refine ⟨?_, hwidth, hstates, hlast, ?_⟩
      · rw [hresumed.pieces_eq, map_joinPieces, hpieces]
      · rw [hmemo]

/-- A letter, and a combining mark in a second text: they are one cluster of two units. -/
theorem graphemeNext_chunked_mark :
    let d : CodepointWidthDetector := ⟨fun cp => if cp = 0x301 then 0x02 else 0x40, fun _ => none,
      none, .graphemes, 1⟩
    let t : Split := ⟨⟨100, [0x65, 0x301], by decide⟩, ⟨200, [0x65], by decide⟩,
      ⟨300, [0x301], by decide⟩, rfl, .inl (by decide)⟩
    (d.iterate 0 {} t.whole).1 = [⟨0, 2, 1⟩] := by
  intro d t
  obtain ⟨hclusters, -⟩ := graphemeNext_chunked d t (by
    rintro ⟨c, hc, c2, hc2, hlead, htrail⟩
    simp only [t, List.getLast?_singleton, Option.mem_def, Option.some.injEq] at hc
    subst hc
    exact absurd hlead (by decide))
  have hjoined : joinPieces (d.iterate 0 {} t.first).1
      ((d.iterate 0 {} t.first).2.2.iterate 1 (d.iterate 0 {} t.first).2.1 t.second).1 =
        [⟨0, 2, 1⟩] := by
    decide +kernel
  exact hclusters.trans hjoined

end IntelligentTerminal.Text
