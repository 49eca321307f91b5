import IntelligentTerminal.Buffer.Attributes
import IntelligentTerminal.Data.Glyph

/-!
# Grapheme segmentation as the row sees it

`CodepointWidthDetector::GraphemeNext` cuts a text into clusters and measures them. A row uses
it in two ways: on a text with a fresh state, where within one string the state carries nothing
over from one cluster to the next, and on the text of a glyph followed by a new text, where the
second call reports how much of the new text still belongs to the last cluster of the first.
Its tables are generated and large, so the detector is a parameter here, with what the row
relies on as fields.

Source: `src/types/CodepointWidthDetector.cpp`, lines 777-900 and 1000-1040;
`src/types/inc/CodepointWidthDetector.hpp`, lines 19-50.
-/

namespace IntelligentTerminal.Buffer

/-- Whether a unit takes the ASCII path of `ROW::WriteHelper::ReplaceText`. -/
def isAscii (c : WChar) : Bool := c < 0x80

/-- `CodepointWidthDetector`. A result is the `len` and the `width` of `GraphemeState`. -/
structure CodepointWidthDetector where
  /-- The cluster at the start of a text, from a fresh state. -/
  next : List WChar → ℕ × ℕ
  /-- The part of a new text that continues the cluster of a preceding one. -/
  join : List WChar → List WChar → ℕ × ℕ
  /-- A cluster of a non-empty text is not empty. -/
  next_len_pos : ∀ t, t ≠ [] → 0 < (next t).1
  /-- A cluster lies within its text. -/
  next_len_le : ∀ t, (next t).1 ≤ t.length
  /-- `width` is always between 0 and 2. -/
  next_width_le : ∀ t, (next t).2 ≤ 2
  join_len_le : ∀ p t, (join p t).1 ≤ t.length
  join_width_le : ∀ p t, (join p t).2 ≤ 2
  /-- An empty text leaves the state fresh. -/
  join_nil : ∀ t, join [] t = next t
  /-- No ASCII unit continues another. -/
  next_ascii_len : ∀ c t, isAscii c → (∀ d ∈ t.head?, isAscii d) → (next (c :: t)).1 = 1
  /-- An ASCII unit by itself is at most one column wide. -/
  next_ascii_width : ∀ c t, isAscii c → (next (c :: t)).1 = 1 → (next (c :: t)).2 ≤ 1

namespace CodepointWidthDetector

variable (cwd : CodepointWidthDetector) {t : List WChar}

/-- The cluster at the start of a text. It takes at least one column of a row. -/
def cluster (t : List WChar) (ht : t ≠ []) : Glyph WChar where
  text := t.take (cwd.next t).1
  width := max 1 (cwd.next t).2
  text_ne_nil := by
    have h := cwd.next_len_pos t ht
    exact List.ne_nil_of_length_pos (by
      rw [List.length_take]
      have := List.length_pos_of_ne_nil ht
      omega)
  width_pos := by omega
  width_le := by
    have h := cwd.next_width_le t
    omega

/-- The clusters of a text that are found in at most `fuel` calls. -/
def clustersN : ℕ → List WChar → List (Glyph WChar)
  | 0, _ => []
  | fuel + 1, t =>
    if ht : t ≠ [] then cwd.cluster t ht :: clustersN fuel (t.drop (cwd.next t).1) else []

/-- A text cut into clusters. -/
def clusters (t : List WChar) : List (Glyph WChar) := cwd.clustersN t.length t

@[simp] theorem clusters_nil : cwd.clusters [] = [] := rfl

theorem length_text_cluster (t : List WChar) (ht : t ≠ []) :
    (cwd.cluster t ht).text.length = (cwd.next t).1 := by
  have h := cwd.next_len_le t
  simp only [cluster, List.length_take]
  omega

theorem clustersN_eq_clusters {fuel : ℕ} (h : t.length ≤ fuel) :
    cwd.clustersN fuel t = cwd.clusters t := by
  suffices hsuff : ∀ k fuel (t : List WChar), t.length ≤ k → t.length ≤ fuel →
      cwd.clustersN fuel t = cwd.clustersN k t from
    (hsuff t.length fuel t (Nat.le_refl _) h)
  intro k
  induction k with
  | zero =>
    intro fuel t hk _
    obtain rfl : t = [] := List.length_eq_zero_iff.mp (by omega)
    cases fuel <;> simp [clustersN]
  | succ k ih =>
    intro fuel t hk hfuel
    by_cases ht : t = []
    · subst ht
      cases fuel <;> simp [clustersN]
    · have hpos := cwd.next_len_pos t ht
      have hlen := List.length_pos_of_ne_nil ht
      obtain ⟨fuel, rfl⟩ : ∃ m, fuel = m + 1 := ⟨fuel - 1, by omega⟩
      simp only [clustersN, dif_pos (show t ≠ [] from ht)]
      rw [ih fuel _ (by rw [List.length_drop]; omega) (by rw [List.length_drop]; omega)]

theorem clusters_eq_cons (ht : t ≠ []) :
    cwd.clusters t = cwd.cluster t ht :: cwd.clusters (t.drop (cwd.next t).1) := by
  have hpos := cwd.next_len_pos t ht
  have hlen := List.length_pos_of_ne_nil ht
  obtain ⟨k, hk⟩ : ∃ k, t.length = k + 1 := ⟨t.length - 1, by omega⟩
  have hrest : cwd.clustersN k (t.drop (cwd.next t).1) = cwd.clusters (t.drop (cwd.next t).1) :=
    cwd.clustersN_eq_clusters (by rw [List.length_drop]; omega)
  rw [clusters, hk, clustersN, dif_pos ht, hrest]

theorem clusters_ne_nil (ht : t ≠ []) : cwd.clusters t ≠ [] := by
  rw [cwd.clusters_eq_cons ht]
  exact List.cons_ne_nil _ _

theorem textOf_clusters (t : List WChar) : textOf (cwd.clusters t) = t := by
  induction h : t.length using Nat.strong_induction_on generalizing t with
  | _ n ih =>
    by_cases ht : t = []
    · subst ht
      rfl
    · have hpos := cwd.next_len_pos t ht
      have hlen := List.length_pos_of_ne_nil ht
      rw [cwd.clusters_eq_cons ht, textOf_cons, ih _ (by rw [List.length_drop]; omega) _ rfl]
      exact List.take_append_drop _ _

/-- Whether a unit is one of the combining diacritical marks U+0300 to U+036F. -/
def isMark (c : WChar) : Bool := 0x300 ≤ c && c < 0x370

/-- The width of a cluster that starts with a unit of ASCII, a mark or a CJK ideograph. -/
def markWidth (c : WChar) : ℕ :=
  if isMark c then 0 else if 0x4e00 ≤ c && c < 0xa000 then 2 else 1

theorem markWidth_le (c : WChar) : markWidth c ≤ 2 := by
  unfold markWidth
  split_ifs <;> omega

theorem markWidth_ascii {c : WChar} (hc : isAscii c) : markWidth c ≤ 1 := by
  have hnot : (decide (0x4e00 ≤ c) && decide (c < 0xa000)) = false := by
    simp only [isAscii, decide_eq_true_eq, Bool.and_eq_false_iff, decide_eq_false_iff_not] at hc ⊢
    exact Or.inl fun h => absurd (UInt16.le_trans h (UInt16.le_of_lt hc)) (by decide)
  unfold markWidth
  rw [hnot]
  split_ifs <;> simp_all

/-- A detector for texts of ASCII, combining marks and CJK ideographs: marks continue a cluster,
and ideographs are wide. On such texts it finds what the generated tables say. -/
def ofMarks : CodepointWidthDetector where
  next
    | [] => (0, 0)
    | c :: t => (1 + (t.takeWhile isMark).length, markWidth c)
  join
    | [], [] => (0, 0)
    | [], c :: t => (1 + (t.takeWhile isMark).length, markWidth c)
    | p :: _, t => ((t.takeWhile isMark).length, markWidth p)
  next_len_pos
    | [], h => absurd rfl h
    | _ :: _, _ => Nat.add_pos_left Nat.one_pos _
  next_len_le
    | [] => Nat.le_refl 0
    | _ :: t => by
      have h := (List.takeWhile_prefix (l := t) isMark).length_le
      simp only [List.length_cons]
      omega
  next_width_le
    | [] => Nat.zero_le 2
    | c :: _ => markWidth_le c
  join_len_le
    | [], [] => Nat.le_refl 0
    | [], _ :: t => by
      have h := (List.takeWhile_prefix (l := t) isMark).length_le
      simp only [List.length_cons]
      omega
    | _ :: _, t => (List.takeWhile_prefix (l := t) isMark).length_le
  join_width_le
    | [], [] => Nat.zero_le 2
    | [], c :: _ => markWidth_le c
    | p :: _, _ => markWidth_le p
  join_nil
    | [] => rfl
    | _ :: _ => rfl
  next_ascii_len := by
    intro c t _ ht
    cases t with
    | nil => rfl
    | cons d t =>
      have hd : isAscii d := ht d rfl
      have hmark : isMark d = false := by
        simp only [isAscii, decide_eq_true_eq, isMark, Bool.and_eq_false_iff,
          decide_eq_false_iff_not] at hd ⊢
        exact Or.inl fun h => absurd (UInt16.le_trans h (UInt16.le_of_lt hd)) (by decide)
      simp [hmark]
  next_ascii_width := fun _ _ hc _ => markWidth_ascii hc

end CodepointWidthDetector

end IntelligentTerminal.Buffer
