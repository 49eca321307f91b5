import Mathlib.Data.List.AList
import Mathlib.Tactic.SplitIfs

/-!
# Tables of rows and the owners of what the rows claim

A table maps keys to rows. A row may claim something, and an index names the owner of each thing
that is claimed. `Owns` says that the index and the claims agree; `Covers` says only that the
index does not dangle, while a claim may have been taken over.
-/

namespace IntelligentTerminal

/-- A finite map from keys to rows. -/
abbrev Table (K R : Type*) := AList fun _ : K => R

namespace Table

variable {K P R : Type*} [DecidableEq K] [DecidableEq P]
  {index' : Table P K} {rows' : Table K R} {m : Table K R}

theorem lookup_insert_eq (m : Table K R) (k k' : K) (r : R) :
    (m.insert k r).lookup k' = if k' = k then some r else m.lookup k' := by
  split_ifs with h
  · rw [h, AList.lookup_insert]
  · exact AList.lookup_insert_ne h

theorem lookup_erase_eq (m : Table K R) (k k' : K) :
    (m.erase k).lookup k' = if k' = k then none else m.lookup k' := by
  split_ifs with h
  · rw [h, AList.lookup_erase]
  · exact AList.lookup_erase_ne h

theorem erase_insert_self (m : Table K R) (k : K) (r : R) : (m.insert k r).erase k = m.erase k :=
  AList.ext (List.kerase_cons_eq rfl)

theorem erase_of_lookup_eq_none {k : K} (h : m.lookup k = none) : m.erase k = m :=
  AList.ext (List.kerase_of_notMem_keys (AList.lookup_eq_none.mp h))

/-- The row at `k`, if there is one, is changed by `f`. -/
def adjust (m : Table K R) (k : K) (f : R → R) : Table K R :=
  match m.lookup k with
  | none => m
  | some r => m.insert k (f r)

theorem lookup_adjust (m : Table K R) (k k' : K) (f : R → R) :
    (m.adjust k f).lookup k' = if k' = k then (m.lookup k).map f else m.lookup k' := by
  unfold adjust
  split
  · next h =>
    split_ifs with hk
    · rw [hk, h, Option.map_none]
    · rfl
  · next r h => rw [lookup_insert_eq, h, Option.map_some]

/-- The rows of a table. -/
def values (m : Table K R) : List R := m.entries.map (·.2)

theorem mem_values {r : R} : r ∈ m.values ↔ ∃ k, m.lookup k = some r := by
  simp only [values, List.mem_map]
  constructor
  · rintro ⟨⟨k, r'⟩, h, rfl⟩
    exact ⟨k, AList.mem_lookup_iff.mpr h⟩
  · rintro ⟨k, h⟩
    exact ⟨⟨k, r⟩, AList.mem_lookup_iff.mp h, rfl⟩

/-- Changes all rows of a table. -/
def mapValues (m : Table K R) (f : R → R) : Table K R where
  entries := m.entries.map fun e => ⟨e.1, f e.2⟩
  nodupKeys := by
    have h := m.nodupKeys
    rw [List.NodupKeys, List.keys] at h ⊢
    rw [List.map_map]
    exact h

theorem lookup_mapValues (m : Table K R) (f : R → R) (k : K) :
    (m.mapValues f).lookup k = (m.lookup k).map f := by
  obtain ⟨entries, h⟩ := m
  change List.dlookup k (entries.map fun e => (⟨e.1, f e.2⟩ : Σ _ : K, R)) =
    (List.dlookup k entries).map f
  clear h
  induction entries with
  | nil => rfl
  | cons e es ih =>
    obtain ⟨k', r⟩ := e
    rw [List.map_cons]
    by_cases hk : k = k'
    · subst hk
      rw [List.dlookup_cons_eq, List.dlookup_cons_eq, Option.map_some]
    · rw [List.dlookup_cons_ne _ _ hk, List.dlookup_cons_ne _ _ hk, ih]

theorem lookup_foldl_adjust {A : Type*} (l : List A) (key : A → K) (f : A → R → R)
    (hl : (l.map key).Nodup) (m : Table K R) (k : K) :
    (∃ a ∈ l, key a = k ∧
      (l.foldl (fun m a => m.adjust (key a) (f a)) m).lookup k = (m.lookup k).map (f a)) ∨
    ((∀ a ∈ l, key a ≠ k) ∧
      (l.foldl (fun m a => m.adjust (key a) (f a)) m).lookup k = m.lookup k) := by
  induction l generalizing m with
  | nil => exact .inr ⟨fun a ha => absurd ha (by simp), rfl⟩
  | cons a l ih =>
    rw [List.map_cons, List.nodup_cons] at hl
    obtain ⟨hnotin, hl⟩ := hl
    rw [List.foldl_cons]
    rcases ih hl (m.adjust (key a) (f a)) with ⟨b, hb, hkey, heq⟩ | ⟨hne, heq⟩
    · have hk : k ≠ key a := by
        rintro rfl
        exact hnotin (List.mem_map.mpr ⟨b, hb, hkey⟩)
      refine .inl ⟨b, List.mem_cons_of_mem a hb, hkey, ?_⟩
      rw [heq, lookup_adjust, if_neg hk]
    · by_cases hk : key a = k
      · refine .inl ⟨a, List.mem_cons_self, hk, ?_⟩
        rw [heq, lookup_adjust, if_pos hk.symm, hk]
      · refine .inr ⟨fun b hb => ?_, ?_⟩
        · rcases List.mem_cons.mp hb with rfl | hb
          · exact hk
          · exact hne b hb
        · rw [heq, lookup_adjust, if_neg (Ne.symm hk)]

/-- The rows that satisfy a condition. -/
def keep (m : Table K R) (p : K → R → Bool) : Table K R where
  entries := m.entries.filter fun e => p e.1 e.2
  nodupKeys := List.NodupKeys.sublist List.filter_sublist m.nodupKeys

theorem lookup_keep (m : Table K R) (p : K → R → Bool) (k : K) :
    (m.keep p).lookup k = (m.lookup k).filter (p k) := by
  ext r
  rw [← Option.mem_def, AList.mem_lookup_iff, Option.filter_eq_some_iff, ← Option.mem_def,
    AList.mem_lookup_iff]
  simp only [keep, List.mem_filter]

section MapAccum

variable {C : Type*}

/-- Changes all entries one after another, with a counter that each change may advance. -/
def mapAccumEntries (f : C → K → R → R × C) : C → List (Σ _ : K, R) → List (Σ _ : K, R) × C
  | c, [] => ([], c)
  | c, e :: es =>
    let r := f c e.1 e.2
    let rest := mapAccumEntries f r.2 es
    (⟨e.1, r.1⟩ :: rest.1, rest.2)

omit [DecidableEq K] in
theorem keys_mapAccumEntries (f : C → K → R → R × C) (c : C) (es : List (Σ _ : K, R)) :
    (mapAccumEntries f c es).1.keys = es.keys := by
  induction es generalizing c with
  | nil => rfl
  | cons e es ih =>
    simp only [mapAccumEntries, List.keys_cons, ih]

/-- Changes all rows of a table one after another, with a counter. -/
def mapAccum (m : Table K R) (f : C → K → R → R × C) (c : C) : Table K R × C :=
  (⟨(mapAccumEntries f c m.entries).1, by
    rw [List.NodupKeys, keys_mapAccumEntries]
    exact m.nodupKeys⟩, (mapAccumEntries f c m.entries).2)

variable [Preorder C] {f : C → K → R → R × C}

omit [DecidableEq K] in
theorem le_mapAccumEntries (hf : ∀ c k r, c ≤ (f c k r).2) (c : C) (es : List (Σ _ : K, R)) :
    c ≤ (mapAccumEntries f c es).2 := by
  induction es generalizing c with
  | nil => exact le_rfl
  | cons e es ih => exact le_trans (hf c e.1 e.2) (ih _)

omit [DecidableEq K] in
theorem le_mapAccum (hf : ∀ c k r, c ≤ (f c k r).2) (m : Table K R) (c : C) :
    c ≤ (m.mapAccum f c).2 :=
  le_mapAccumEntries hf c m.entries

theorem lookup_mapAccum (hf : ∀ c k r, c ≤ (f c k r).2) (m : Table K R) (c : C) (k : K) :
    ∃ c', c ≤ c' ∧ (∀ r, m.lookup k = some r → (f c' k r).2 ≤ (m.mapAccum f c).2) ∧
      (m.mapAccum f c).1.lookup k = (m.lookup k).map fun r => (f c' k r).1 := by
  obtain ⟨entries, h⟩ := m
  change ∃ c', c ≤ c' ∧
    (∀ r, List.dlookup k entries = some r → (f c' k r).2 ≤ (mapAccumEntries f c entries).2) ∧
    List.dlookup k (mapAccumEntries f c entries).1 =
      (List.dlookup k entries).map fun r => (f c' k r).1
  clear h
  induction entries generalizing c with
  | nil => exact ⟨c, le_rfl, fun r hr => absurd hr (by simp), rfl⟩
  | cons e es ih =>
    obtain ⟨k', r⟩ := e
    by_cases hk : k = k'
    · subst hk
      refine ⟨c, le_rfl, fun r' hr' => ?_, ?_⟩
      · rw [List.dlookup_cons_eq, Option.some.injEq] at hr'
        exact hr' ▸ le_mapAccumEntries hf _ _
      · rw [mapAccumEntries, List.dlookup_cons_eq, List.dlookup_cons_eq, Option.map_some]
    · obtain ⟨c', hle, hlast, heq⟩ := ih (f c k' r).2
      refine ⟨c', le_trans (hf c k' r) hle, ?_, ?_⟩
      · rw [List.dlookup_cons_ne _ _ hk]
        exact hlast
      · rw [mapAccumEntries, List.dlookup_cons_ne _ _ hk, List.dlookup_cons_ne _ _ hk, heq]

end MapAccum

/-! ### Owners -/

variable (claim : R → Option P)

/-- The index names, for each thing, the one row that claims it. -/
def Owns (rows : Table K R) (index : Table P K) : Prop :=
  ∀ p k, index.lookup p = some k ↔ (rows.lookup k).bind claim = some p

/-- Each owner that the index names has a row that claims the thing. -/
def Covers (rows : Table K R) (index : Table P K) : Prop :=
  ∀ p k, index.lookup p = some k → (rows.lookup k).bind claim = some p

variable {claim} {rows : Table K R} {index : Table P K} {k : K} {r r' : R} {p : P}

theorem owns_empty : Owns claim (∅ : Table K R) (∅ : Table P K) := by
  intro p k
  rw [AList.lookup_empty, AList.lookup_empty]
  simp

theorem covers_empty : Covers claim (∅ : Table K R) (∅ : Table P K) := by
  intro p k h
  rw [AList.lookup_empty] at h
  exact absurd h (by simp)

theorem Owns.keep (h : Owns claim rows index) (hr : claim r' = (rows.lookup k).bind claim) :
    Owns claim (rows.insert k r') index := by
  intro p k'
  rw [h, lookup_insert_eq]
  split_ifs with hk
  · rw [hk, Option.bind_some, hr]
  · rfl

theorem Covers.keep (h : Covers claim rows index) (hr : claim r' = (rows.lookup k).bind claim) :
    Covers claim (rows.insert k r') index := by
  intro p k' hp
  rw [lookup_insert_eq]
  split_ifs with hk
  · rw [Option.bind_some, hr, ← hk, h p k' hp]
  · exact h p k' hp

theorem Owns.release (h : Owns claim rows index) (hk : (rows.lookup k).bind claim = some p)
    (hr : claim r' = none) : Owns claim (rows.insert k r') (index.erase p) := by
  intro p' k'
  have hp := (h p k).mpr hk
  rw [lookup_insert_eq, lookup_erase_eq]
  split_ifs with hp' hk' hk'
  · simp [hr]
  · rw [← h, hp', hp]
    simp [Ne.symm hk']
  · rw [h, hk', hk]
    simp [hr, Ne.symm hp']
  · exact h p' k'

theorem Owns.erase (h : Owns claim rows index) (hk : (rows.lookup k).bind claim = some p) :
    Owns claim (rows.erase k) (index.erase p) := by
  intro p' k'
  have hp := (h p k).mpr hk
  rw [lookup_erase_eq, lookup_erase_eq]
  split_ifs with hp' hk' hk'
  · simp
  · rw [← h, hp', hp]
    simp [Ne.symm hk']
  · rw [h, hk', hk]
    simp [Ne.symm hp']
  · exact h p' k'

theorem Owns.erase_of_none (h : Owns claim rows index) (hk : (rows.lookup k).bind claim = none) :
    Owns claim (rows.erase k) index := by
  intro p' k'
  rw [lookup_erase_eq, h]
  split_ifs with hk'
  · rw [hk', hk]
    rfl
  · rfl

theorem Owns.takeover (h : Owns claim rows index)
    (hrow : (rows'.lookup k).bind claim = some p)
    (hrows : ∀ k', k' ≠ k → (rows'.lookup k').bind claim =
      if index.lookup p = some k' then none else (rows.lookup k').bind claim)
    (hindex : ∀ p', index'.lookup p' =
      if p' = p then some k else if index.lookup p' = some k then none else index.lookup p') :
    Owns claim rows' index' := by
  intro p' k'
  rw [hindex]
  by_cases hk : k' = k
  · subst hk
    rw [hrow]
    split_ifs with h₁ h₂
    · simp [h₁]
    · simp [Ne.symm h₁]
    · simp [h₂, Ne.symm h₁]
  · rw [hrows k' hk]
    by_cases hp : p' = p
    · subst hp
      have hne : ¬some k = some k' := fun e => hk (Option.some.inj e).symm
      rw [if_pos rfl]
      split_ifs with h₁
      · simp [Ne.symm hk]
      · rw [← h, iff_false_intro hne, iff_false_intro h₁]
    · rw [if_neg hp]
      split_ifs with h₁ h₂ h₂
      · simp
      · rw [← h, h₁]
        simp [Ne.symm hk]
      · rw [h, (h p k').mp h₂]
        simp [Ne.symm hp]
      · exact h p' k'

theorem Covers.drop (h : Covers claim rows index)
    (hrows : ∀ k', k' ≠ k → (rows'.lookup k').bind claim = (rows.lookup k').bind claim)
    (hindex : ∀ p k', index'.lookup p = some k' → index.lookup p = some k' ∧ k' ≠ k) :
    Covers claim rows' index' := by
  intro p k' hp
  obtain ⟨hp', hne⟩ := hindex p k' hp
  rw [hrows k' hne]
  exact h p k' hp'

theorem Covers.assign (h : Covers claim rows index) (hr : claim r' = some p)
    (hk : ∀ p', index.lookup p' = some k → p' = p) :
    Covers claim (rows.insert k r') (index.insert p k) := by
  intro p' k' hp
  rw [lookup_insert_eq] at hp ⊢
  split_ifs at hp ⊢ with hk' hp' hp'
  · rw [Option.bind_some, hr, hp']
  · rw [hk'] at hp
    exact absurd (hk p' hp) hp'
  · exact absurd (Option.some.inj hp).symm hk'
  · exact h p' k' hp

end Table

end IntelligentTerminal
