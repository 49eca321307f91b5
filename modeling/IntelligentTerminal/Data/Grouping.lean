import Mathlib

/-!
# Cutting a list from either end

A grouper cuts a list into groups of adjacent elements, from its start. What it remembers of the
current group decides whether the next element belongs to it. Another grouper may cut the same list
from its end. Groups are known by where they are cut: the two find the same groups if and only if
they cut at the same places.

A grouper whose cuts depend on the two elements at the place only cuts the same from both ends. One
that takes the elements of a kind in pairs does so if and only if the runs of the kind are even.
-/

namespace IntelligentTerminal

variable {α σ : Type*} {gs : List (List α)} {g l : List α} {l : List α}

/-- How a group starts and which elements it goes on with. -/
structure Grouper (α σ : Type*) where
  start : α → σ
  extend : σ → α → Option σ

namespace Grouper

variable (m : Grouper α σ)

/-- The groups of a list behind the current group. -/
def groupsFrom : σ → List α → List α → List (List α)
  | _, group, [] => [group]
  | v, group, y :: r =>
    match m.extend v y with
    | some v => groupsFrom v (group ++ [y]) r
    | none => group :: groupsFrom (m.start y) [y] r

/-- The groups of a list. -/
def groups : List α → List (List α)
  | [] => []
  | x :: r => m.groupsFrom (m.start x) [x] r

/-- The elements that the current group goes on with, what is remembered in the end, and the rest. -/
def takeGroup : σ → List α → List α × σ × List α
  | v, [] => ([], v, [])
  | v, y :: r =>
    match m.extend v y with
    | some v => (y :: (takeGroup v r).1, (takeGroup v r).2)
    | none => ([], v, y :: r)

variable {m} {v v' : σ} {x y : α} {l r g t : List α}

theorem groupsFrom_takeGroup (v : σ) (group r : List α) :
    m.groupsFrom v group r = (group ++ (m.takeGroup v r).1) :: m.groups (m.takeGroup v r).2.2 := by
  induction r generalizing v group with
  | nil => rw [groupsFrom, takeGroup, List.append_nil, groups]
  | cons y r ih =>
    rw [groupsFrom, takeGroup]
    cases h : m.extend v y with
    | some v' =>
      simp only
      rw [ih, List.append_assoc, List.singleton_append]
    | none =>
      simp only
      rw [List.append_nil, groups]

theorem groups_cons (x : α) (r : List α) :
    m.groups (x :: r) = (x :: (m.takeGroup (m.start x) r).1) ::
      m.groups (m.takeGroup (m.start x) r).2.2 := by
  rw [groups, groupsFrom_takeGroup]
  rfl

theorem takeGroup_spec {P : List α → σ → Prop}
    (hstep : ∀ g v y v', P g v → m.extend v y = some v' → P (g ++ [y]) v') (r : List α)
    (h : P g v) : P (g ++ (m.takeGroup v r).1) (m.takeGroup v r).2.1 := by
  induction r generalizing g v with
  | nil => simpa only [takeGroup, List.append_nil] using h
  | cons y r ih =>
    rw [takeGroup]
    cases hy : m.extend v y with
    | some v' =>
      have hrest := ih (hstep g v y v' h hy)
      simpa only [List.append_assoc, List.singleton_append] using hrest
    | none => simpa only [List.append_nil] using h

theorem flatten_groupsFrom (v : σ) (group r : List α) :
    (m.groupsFrom v group r).flatten = group ++ r := by
  induction r generalizing v group with
  | nil => rw [groupsFrom, List.flatten_singleton, List.append_nil]
  | cons y r ih =>
    rw [groupsFrom]
    cases h : m.extend v y with
    | some v' =>
      simp only
      rw [ih, List.append_assoc, List.singleton_append]
    | none =>
      simp only
      rw [List.flatten_cons, ih, List.singleton_append]

@[simp] theorem flatten_groups (l : List α) : (m.groups l).flatten = l := by
  cases l with
  | nil => rfl
  | cons x r => rw [groups, flatten_groupsFrom, List.singleton_append]

theorem ne_nil_of_mem_groupsFrom (v : σ) {group : List α} (hgroup : group ≠ []) (r : List α)
    (h : g ∈ m.groupsFrom v group r) : g ≠ [] := by
  induction r generalizing v group with
  | nil =>
    rw [groupsFrom, List.mem_singleton] at h
    exact h ▸ hgroup
  | cons y r ih =>
    rw [groupsFrom] at h
    cases hy : m.extend v y with
    | some v' =>
      rw [hy] at h
      exact ih v' (List.append_ne_nil_of_left_ne_nil hgroup _) h
    | none =>
      rw [hy] at h
      rcases List.mem_cons.mp h with rfl | h
      · exact hgroup
      · exact ih _ (List.cons_ne_nil y []) h

theorem ne_nil_of_mem_groups (h : g ∈ m.groups l) : g ≠ [] := by
  cases l with
  | nil => exact absurd h List.not_mem_nil
  | cons x r => exact ne_nil_of_mem_groupsFrom _ (List.cons_ne_nil x []) r h

end Grouper

/-! ### Cuts -/

/-- The groups are cut behind the prefix `l`. -/
def CutAt (gs : List (List α)) (l : List α) : Prop :=
  ∃ gs₁ gs₂, gs = gs₁ ++ gs₂ ∧ gs₁.flatten = l

@[simp] theorem cutAt_nil : CutAt [] l ↔ l = [] := by
  constructor
  · rintro ⟨gs₁, gs₂, heq, rfl⟩
    rw [(List.append_eq_nil_iff.mp heq.symm).1, List.flatten_nil]
  · rintro rfl
    exact ⟨[], [], rfl, rfl⟩

theorem cutAt_cons_iff :
    CutAt (g :: gs) l ↔ l = [] ∨ ∃ l', l = g ++ l' ∧ CutAt gs l' := by
  constructor
  · rintro ⟨gs₁, gs₂, heq, rfl⟩
    cases gs₁ with
    | nil => exact .inl rfl
    | cons g' gs₁ =>
      obtain ⟨rfl, rfl⟩ := List.cons.inj heq
      exact .inr ⟨gs₁.flatten, List.flatten_cons, gs₁, gs₂, rfl, rfl⟩
  · rintro (rfl | ⟨l', rfl, gs₁, gs₂, rfl, rfl⟩)
    · exact ⟨[], _, rfl, rfl⟩
    · exact ⟨g :: gs₁, gs₂, rfl, List.flatten_cons⟩

theorem cutAt_cons :
    CutAt (g :: gs) (g ++ l) ↔ CutAt gs l ∨ g ++ l = [] := by
  rw [cutAt_cons_iff, or_comm]
  constructor
  · rintro (⟨l', heq, hcut⟩ | hnil)
    · exact .inl (List.append_cancel_left heq ▸ hcut)
    · exact .inr hnil
  · rintro (hcut | hnil)
    · exact .inl ⟨l, rfl, hcut⟩
    · exact .inr hnil

theorem CutAt.exists_append (h : CutAt gs l) :
    ∃ r, l ++ r = gs.flatten := by
  obtain ⟨gs₁, gs₂, rfl, rfl⟩ := h
  exact ⟨gs₂.flatten, List.flatten_append.symm⟩

theorem length_le_of_cutAt (h : CutAt (g :: gs) l)
    (hl : l ≠ []) : g.length ≤ l.length := by
  obtain ⟨gs₁, gs₂, heq, rfl⟩ := h
  cases gs₁ with
  | nil => exact absurd rfl hl
  | cons g' gs₁ =>
    obtain ⟨rfl, -⟩ := List.cons.inj heq
    rw [List.flatten_cons, List.length_append]
    exact Nat.le_add_right _ _

theorem eq_of_cutAt {gs hs : List (List α)} (hgs : ∀ g ∈ gs, g ≠ []) (hhs : ∀ h ∈ hs, h ≠ [])
    (hflat : gs.flatten = hs.flatten)
    (hcut : ∀ l r, l ≠ [] → r ≠ [] → l ++ r = gs.flatten → (CutAt gs l ↔ CutAt hs l)) :
    gs = hs := by
  induction gs generalizing hs with
  | nil =>
    cases hs with
    | nil => rfl
    | cons h hs =>
      rw [List.flatten_nil, List.flatten_cons, eq_comm, List.append_eq_nil_iff] at hflat
      exact absurd hflat.1 (hhs h List.mem_cons_self)
  | cons g gs ih =>
    have hg := hgs g List.mem_cons_self
    cases hs with
    | nil =>
      rw [List.flatten_nil, List.flatten_cons, List.append_eq_nil_iff] at hflat
      exact absurd hflat.1 hg
    | cons h hs =>
      have hh := hhs h List.mem_cons_self
      rw [List.flatten_cons, List.flatten_cons] at hflat
      have hcutG : CutAt (g :: gs) g := ⟨[g], gs, rfl, List.flatten_singleton⟩
      have hcutH : CutAt (h :: hs) h := ⟨[h], hs, rfl, List.flatten_singleton⟩
      -- a first group that is shorter would be cut in one of the two only
      have hlength : g.length = h.length := by
        have hlen := congrArg List.length hflat
        rw [List.length_append, List.length_append] at hlen
        refine Nat.le_antisymm ?_ ?_
        · by_contra! hlt
          have hrest : hs.flatten ≠ [] := by
            intro hnil
            rw [hnil, List.length_nil] at hlen
            omega
          have := length_le_of_cutAt ((hcut h hs.flatten hh hrest hflat.symm).mpr hcutH) hh
          omega
        · by_contra! hlt
          have hrest : gs.flatten ≠ [] := by
            intro hnil
            rw [hnil, List.length_nil] at hlen
            omega
          have := length_le_of_cutAt ((hcut g gs.flatten hg hrest rfl).mp hcutG) hg
          omega
      obtain ⟨rfl, hrest⟩ := List.append_inj hflat hlength
      rw [ih (fun x hx => hgs x (List.mem_cons_of_mem _ hx))
        (fun x hx => hhs x (List.mem_cons_of_mem _ hx)) hrest]
      intro l r hl hr hlr
      have hne : g ++ l ≠ [] := List.append_ne_nil_of_left_ne_nil hg l
      have h := hcut (g ++ l) r hne hr (by rw [List.append_assoc, hlr, List.flatten_cons])
      rwa [cutAt_cons, cutAt_cons, or_iff_left hne, or_iff_left hne] at h

/-- Groups of the reversed list, in the order of the list. -/
def reverseGroups (gs : List (List α)) : List (List α) := (gs.map List.reverse).reverse

theorem flatten_reverseGroups (gs : List (List α)) :
    (reverseGroups gs).flatten = gs.flatten.reverse :=
  (List.reverse_flatten).symm

theorem ne_nil_of_mem_reverseGroups (hgs : ∀ g ∈ gs, g ≠ []) :
    ∀ g ∈ reverseGroups gs, g ≠ [] := by
  intro g hg
  obtain ⟨g', hg', rfl⟩ := List.mem_map.mp (List.mem_reverse.mp hg)
  exact List.reverse_ne_nil_iff.mpr (hgs g' hg')

theorem cutAt_reverseGroups {l r : List α} (hlr : l ++ r = gs.flatten.reverse) :
    CutAt (reverseGroups gs) l ↔ CutAt gs r.reverse := by
  constructor
  · rintro ⟨gs₁, gs₂, heq, rfl⟩
    have hgs : gs = reverseGroups gs₂ ++ reverseGroups gs₁ := by
      have h := congrArg reverseGroups heq
      simpa [reverseGroups] using h
    refine ⟨_, _, hgs, ?_⟩
    rw [hgs, List.flatten_append, flatten_reverseGroups, flatten_reverseGroups, List.reverse_append,
      List.reverse_reverse, List.reverse_reverse, List.append_cancel_left_eq] at hlr
    rw [flatten_reverseGroups, hlr]
  · rintro ⟨gs₁, gs₂, rfl, hflat⟩
    refine ⟨reverseGroups gs₂, reverseGroups gs₁, by simp [reverseGroups], ?_⟩
    rw [List.flatten_append, List.reverse_append, hflat, List.reverse_reverse,
      List.append_cancel_right_eq] at hlr
    rw [flatten_reverseGroups, hlr]

namespace Grouper

variable {m : Grouper α σ} {Inv : List α → σ → Prop} {brk : List α → α → Prop}

/-- What a grouper remembers, and where it cuts, in terms of what is before. -/
structure Cuts (m : Grouper α σ) (Inv : List α → σ → Prop) (brk : List α → α → Prop) : Prop where
  start : ∀ l y, l = [] ∨ brk l y → Inv (l ++ [y]) (m.start y)
  none : ∀ l v y, Inv l v → m.extend v y = none → brk l y
  some : ∀ l v y v', Inv l v → m.extend v y = some v' → ¬ brk l y ∧ Inv (l ++ [y]) v'

theorem Cuts.cutAt_groupsFrom (h : m.Cuts Inv brk) {v : σ} {done group : List α} (r₁ : List α)
    (y : α) (r₂ : List α) (hgroup : group ≠ []) (hinv : Inv (done ++ group) v) :
    CutAt (m.groupsFrom v group (r₁ ++ y :: r₂)) (group ++ r₁) ↔ brk (done ++ group ++ r₁) y := by
  induction r₁ generalizing v done group with
  | nil =>
    rw [List.nil_append, List.append_nil, List.append_nil, groupsFrom]
    cases hy : m.extend v y with
    | none =>
      refine iff_of_true ⟨[group], _, rfl, List.flatten_singleton⟩ (h.none _ _ _ hinv hy)
    | some v' =>
      refine iff_of_false (fun hcut => ?_) (h.some _ _ _ _ hinv hy).1
      simp only [groupsFrom_takeGroup] at hcut
      have hlen := length_le_of_cutAt hcut hgroup
      rw [List.length_append, List.length_append, List.length_singleton] at hlen
      omega
  | cons z r₁ ih =>
    rw [List.cons_append, groupsFrom]
    cases hz : m.extend v z with
    | none =>
      have hstart := h.start (done ++ group) z (.inr (h.none _ _ _ hinv hz))
      have hrest := ih (List.cons_ne_nil z []) hstart
      simp only
      rw [cutAt_cons, or_iff_left (List.append_ne_nil_of_left_ne_nil hgroup _)]
      simpa using hrest
    | some v' =>
      have hinv' := (h.some _ _ _ _ hinv hz).2
      rw [List.append_assoc] at hinv'
      have hrest := ih (List.append_ne_nil_of_left_ne_nil hgroup [z]) hinv'
      simpa using hrest

theorem Cuts.cutAt_groups_iff (h : m.Cuts Inv brk) {l : List α} (hl : l ≠ []) (y : α)
    (r : List α) : CutAt (m.groups (l ++ y :: r)) l ↔ brk l y := by
  cases l with
  | nil => exact absurd rfl hl
  | cons x l =>
    have hinv := h.start [] x (.inl rfl)
    exact h.cutAt_groupsFrom l y r (List.cons_ne_nil x []) hinv

end Grouper

/-! ### Runs of a kind -/

section Runs

variable {kind : α → Bool} {x y : α} {l a c : List α}

/-- The maximal runs of a kind have one element or an even number of them. -/
def EvenRuns (kind : α → Bool) (l : List α) : Prop :=
  ∀ a m c, l = a ++ m ++ c → (∀ x ∈ m, kind x = true) → (∀ x ∈ a.getLast?, kind x = false) →
    (∀ x ∈ c.head?, kind x = false) → m.length = 1 ∨ Even m.length

/-- How many elements of a kind a list starts with. -/
def leading (kind : α → Bool) (l : List α) : ℕ := (l.takeWhile kind).length

theorem leading_cons_of_pos (hx : kind x = true) (l : List α) :
    leading kind (x :: l) = leading kind l + 1 := by
  rw [leading, List.takeWhile_cons_of_pos hx, List.length_cons, leading]

theorem leading_of_head (h : ∀ x ∈ l.head?, kind x = false) : leading kind l = 0 := by
  cases l with
  | nil => rfl
  | cons x l =>
    have hx : ¬ kind x = true := by rw [h x rfl]; exact Bool.false_ne_true
    rw [leading, List.takeWhile_cons_of_neg hx, List.length_nil]

theorem leading_append_of_pos (h : ∀ x ∈ l, kind x = true) (c : List α) :
    leading kind (l ++ c) = l.length + leading kind c := by
  rw [leading, List.takeWhile_append_of_pos h, List.length_append, leading]

theorem head?_dropWhile_eq_false (l : List α) :
    ∀ x ∈ (l.dropWhile kind).head?, kind x = false := by
  intro x hx
  have h := List.head?_dropWhile_not kind l
  rw [Option.mem_def.mp hx] at h
  simpa using h

theorem evenRuns_iff : EvenRuns kind l ↔ ∀ a x y c, l = a ++ x :: y :: c → kind x = true →
    kind y = true → (Even (leading kind (x :: a.reverse)) ↔ Even (leading kind (y :: c))) := by
  constructor
  · intro h a x y c hl hx hy
    have hleft := List.takeWhile_append_dropWhile (p := kind) (l := x :: a.reverse)
    have hright := List.takeWhile_append_dropWhile (p := kind) (l := y :: c)
    have hsplit : l = ((x :: a.reverse).dropWhile kind).reverse ++
        (((x :: a.reverse).takeWhile kind).reverse ++ (y :: c).takeWhile kind) ++
          (y :: c).dropWhile kind := by
      rw [List.append_assoc, List.append_assoc, hright, ← List.append_assoc, ← List.reverse_append,
        hleft, List.reverse_cons, List.reverse_reverse, List.append_assoc, hl]
      rfl
    have hrun := h _ _ _ hsplit
      (by
        intro z hz
        rcases List.mem_append.mp hz with hz | hz
        · exact List.mem_takeWhile_imp (List.mem_reverse.mp hz)
        · exact List.mem_takeWhile_imp hz)
      (by rw [List.getLast?_reverse]; exact head?_dropWhile_eq_false _)
      (head?_dropWhile_eq_false _)
    rw [List.length_append, List.length_reverse] at hrun
    change leading kind _ + leading kind _ = 1 ∨ Even (leading kind _ + leading kind _) at hrun
    have hpos := leading_cons_of_pos hx a.reverse
    have hpos' := leading_cons_of_pos hy c
    rcases hrun with hone | heven
    · omega
    · exact Nat.even_add.mp heven
  · intro h a m c hl hm ha hc
    match m with
    | [] => exact .inr Even.zero
    | [x] => exact .inl rfl
    | x :: y :: m =>
      right
      have hrest : ∀ z ∈ y :: m, kind z = true := fun z hz => hm z (List.mem_cons_of_mem x hz)
      have hx := hm x List.mem_cons_self
      have hsame := h a x y (m ++ c) (by rw [hl, List.append_assoc]; rfl) hx
        (hrest y List.mem_cons_self)
      have hone : leading kind (x :: a.reverse) = 1 := by
        rw [leading_cons_of_pos hx, leading_of_head (by rwa [List.head?_reverse])]
      have hright : leading kind (y :: (m ++ c)) = m.length + 1 := by
        rw [← List.cons_append, leading_append_of_pos hrest, leading_of_head hc, Nat.add_zero,
          List.length_cons]
      rw [hone, hright] at hsame
      rw [List.length_cons, List.length_cons, Nat.even_add_one, ← hsame]
      exact Nat.not_even_one

end Runs

/-! ### Elements that are taken in pairs -/

namespace Grouper

variable {m : Grouper α σ} {kind : α → Bool} {apart : α → α → Prop} {saw : α → Bool → σ → Prop}
  {a : List α} {x y : α}

/-- A grouper that cuts between elements that are apart, and takes the elements of a kind in pairs.
`saw x second v`: what is remembered behind `x`, and whether `x` is the second of a pair. -/
structure Pairs (m : Grouper α σ) (kind : α → Bool) (apart : α → α → Prop)
    (saw : α → Bool → σ → Prop) : Prop where
  start : ∀ x, saw x false (m.start x)
  pair : ∀ x v y, saw x false v → kind x = true → kind y = true →
    ∃ v', m.extend v y = Option.some v' ∧ saw y true v'
  behind : ∀ x v y, saw x true v → kind x = true → kind y = true → m.extend v y = Option.none
  cut : ∀ x second v y, saw x second v → ¬ (kind x = true ∧ kind y = true) → apart x y →
    m.extend v y = Option.none
  join : ∀ x second v y, saw x second v → ¬ (kind x = true ∧ kind y = true) → ¬ apart x y →
    ∃ v', m.extend v y = Option.some v' ∧ saw y false v'

/-- The last element of a prefix is the second of a pair. -/
def secondOfPair (kind : α → Bool) (l : List α) (x : α) : Bool :=
  kind x && (leading kind (x :: l.reverse) % 2 == 0)

/-- What a grouper in pairs remembers of a prefix. -/
def PairsInv (kind : α → Bool) (saw : α → Bool → σ → Prop) (l : List α) (v : σ) : Prop :=
  ∃ a x, l = a ++ [x] ∧ saw x (secondOfPair kind a x) v

/-- Where a grouper in pairs cuts. -/
def PairsBrk (kind : α → Bool) (apart : α → α → Prop) (l : List α) (y : α) : Prop :=
  ∃ a x, l = a ++ [x] ∧ if kind x = true ∧ kind y = true then Even (leading kind (x :: a.reverse))
    else apart x y

theorem pairsBrk_append : PairsBrk kind apart (a ++ [x]) y ↔
    if kind x = true ∧ kind y = true then Even (leading kind (x :: a.reverse)) else apart x y := by
  constructor
  · rintro ⟨a', x', heq, h⟩
    obtain ⟨rfl, rfl⟩ : a = a' ∧ x = x' := by simpa using heq
    exact h
  · intro h
    exact ⟨a, x, rfl, h⟩

theorem secondOfPair_of_neg (h : ¬ (kind x = true ∧ kind y = true)) :
    secondOfPair kind (a ++ [x]) y = false := by
  rw [secondOfPair, List.reverse_append, List.reverse_singleton, List.singleton_append]
  cases hy : kind y with
  | false => rfl
  | true =>
    have hx : kind x = false := by simpa [hy] using h
    rw [leading_cons_of_pos hy, leading_of_head (by simpa using hx)]
    rfl

theorem secondOfPair_of_pos (hx : kind x = true) (hy : kind y = true) :
    secondOfPair kind (a ++ [x]) y = !secondOfPair kind a x := by
  rw [secondOfPair, secondOfPair, List.reverse_append, List.reverse_singleton,
    List.singleton_append, leading_cons_of_pos hy, hx, hy]
  rcases Nat.mod_two_eq_zero_or_one (leading kind (x :: a.reverse)) with h | h
  · simp [Nat.add_mod, h]
  · simp [Nat.add_mod, h]

theorem secondOfPair_iff {x : α} (hx : kind x = true) :
    secondOfPair kind a x = true ↔ Even (leading kind (x :: a.reverse)) := by
  rw [secondOfPair, hx, Nat.even_iff]
  simp

theorem Pairs.cuts (h : m.Pairs kind apart saw) :
    m.Cuts (PairsInv kind saw) (PairsBrk kind apart) where
  start := by
    rintro l y hl
    refine ⟨l, y, rfl, ?_⟩
    have hfirst : secondOfPair kind l y = false := by
      rcases hl with rfl | ⟨a, x, rfl, hbrk⟩
      · cases hy : kind y with
        | false => simp [secondOfPair, hy]
        | true => simp [secondOfPair, hy, leading]
      · by_cases hxy : kind x = true ∧ kind y = true
        · rw [if_pos hxy] at hbrk
          rw [secondOfPair_of_pos hxy.1 hxy.2, (secondOfPair_iff hxy.1).mpr hbrk]
          rfl
        · exact secondOfPair_of_neg hxy
    rw [hfirst]
    exact h.start y
  none := by
    rintro l v y ⟨a, x, rfl, hsaw⟩ hnone
    rw [pairsBrk_append]
    by_cases hxy : kind x = true ∧ kind y = true
    · rw [if_pos hxy, ← secondOfPair_iff hxy.1]
      by_contra hfirst
      rw [Bool.not_eq_true] at hfirst
      rw [hfirst] at hsaw
      obtain ⟨v', hsome, -⟩ := h.pair x v y hsaw hxy.1 hxy.2
      exact absurd (hnone.symm.trans hsome) (by simp)
    · rw [if_neg hxy]
      by_contra hapart
      obtain ⟨v', hsome, -⟩ := h.join x _ v y hsaw hxy hapart
      exact absurd (hnone.symm.trans hsome) (by simp)
  some := by
    rintro l v y v' ⟨a, x, rfl, hsaw⟩ hsome
    rw [pairsBrk_append]
    by_cases hxy : kind x = true ∧ kind y = true
    · rw [if_pos hxy, ← secondOfPair_iff hxy.1]
      cases hsecond : secondOfPair kind a x with
      | true =>
        rw [hsecond] at hsaw
        exact absurd (hsome.symm.trans (h.behind x v y hsaw hxy.1 hxy.2)) (by simp)
      | false =>
        rw [hsecond] at hsaw
        obtain ⟨v'', hextend, hsaw'⟩ := h.pair x v y hsaw hxy.1 hxy.2
        obtain rfl := Option.some.inj (hsome.symm.trans hextend)
        refine ⟨Bool.false_ne_true, _, y, rfl, ?_⟩
        rw [secondOfPair_of_pos hxy.1 hxy.2, hsecond]
        exact hsaw'
    · rw [if_neg hxy]
      by_cases hapart : apart x y
      · exact absurd (hsome.symm.trans (h.cut x _ v y hsaw hxy hapart)) (by simp)
      · obtain ⟨v'', hextend, hsaw'⟩ := h.join x _ v y hsaw hxy hapart
        obtain rfl := Option.some.inj (hsome.symm.trans hextend)
        refine ⟨hapart, _, y, rfl, ?_⟩
        rw [secondOfPair_of_neg hxy]
        exact hsaw'

variable {τ : Type*} {m' : Grouper α τ} {saw' : α → Bool → τ → Prop}

theorem Pairs.cutAt_iff (h : m.Pairs kind apart saw)
    (h' : m'.Pairs kind (fun y x => apart x y) saw') (a : List α) (x y : α) (r : List α) :
    (CutAt (reverseGroups (m'.groups (a ++ x :: y :: r).reverse)) (a ++ [x]) ↔
      CutAt (m.groups (a ++ x :: y :: r)) (a ++ [x])) ↔
    (kind x = true → kind y = true →
      (Even (leading kind (x :: a.reverse)) ↔ Even (leading kind (y :: r)))) := by
  have hsplit : a ++ x :: y :: r = (a ++ [x]) ++ y :: r := by simp
  have hsplit' : (a ++ x :: y :: r).reverse = (r.reverse ++ [y]) ++ x :: a.reverse := by simp
  have hnext := h.cuts.cutAt_groups_iff (l := a ++ [x]) (by simp) y r
  have hprev := h'.cuts.cutAt_groups_iff (l := r.reverse ++ [y]) (by simp) x a.reverse
  rw [← hsplit, pairsBrk_append] at hnext
  rw [← hsplit', pairsBrk_append, List.reverse_reverse] at hprev
  rw [cutAt_reverseGroups (r := y :: r) (by rw [flatten_groups, List.reverse_reverse, hsplit]),
    List.reverse_cons, hprev, hnext]
  by_cases hxy : kind x = true ∧ kind y = true
  · rw [if_pos hxy, if_pos hxy.symm]
    exact ⟨fun heven _ _ => heven.symm, fun heven => (heven hxy.1 hxy.2).symm⟩
  · rw [if_neg hxy, if_neg (mt And.symm hxy)]
    exact iff_of_true Iff.rfl fun hx hy => absurd ⟨hx, hy⟩ hxy

/-- A grouper in pairs and one from the other end cut at the same places if and only if the runs of
the kind are even. -/
theorem Pairs.cuts_agree_iff (h : m.Pairs kind apart saw)
    (h' : m'.Pairs kind (fun y x => apart x y) saw') (l : List α) :
    (∀ a r, a ≠ [] → r ≠ [] → a ++ r = l →
      (CutAt (reverseGroups (m'.groups l.reverse)) a ↔ CutAt (m.groups l) a)) ↔
    EvenRuns kind l := by
  rw [evenRuns_iff]
  constructor
  · rintro hcut a x y r rfl
    exact (h.cutAt_iff h' a x y r).mp (hcut (a ++ [x]) (y :: r) (by simp) (by simp) (by simp))
  · rintro heven a r ha hr rfl
    obtain ⟨a, x, rfl⟩ := (List.eq_nil_or_concat' a).resolve_left ha
    obtain ⟨y, r, rfl⟩ := List.exists_cons_of_ne_nil hr
    have h := (h.cutAt_iff h' a x y r).mpr (heven a x y r (by simp))
    simpa using h

theorem Pairs.groups_eq (h : m.Pairs kind apart saw)
    (h' : m'.Pairs kind (fun y x => apart x y) saw') {l : List α} (heven : EvenRuns kind l) :
    reverseGroups (m'.groups l.reverse) = m.groups l := by
  have hflat : (reverseGroups (m'.groups l.reverse)).flatten = l := by
    rw [flatten_reverseGroups, flatten_groups, List.reverse_reverse]
  refine eq_of_cutAt (ne_nil_of_mem_reverseGroups fun _ => ne_nil_of_mem_groups)
    (fun _ => ne_nil_of_mem_groups) (by rw [hflat, flatten_groups]) ?_
  rw [hflat]
  exact (h.cuts_agree_iff h' l).mpr heven

end Grouper

end IntelligentTerminal
