import IntelligentTerminal.Tabs.TabListViewModel

/-!
# One order for the tabs

Bindings, states, moves, the cycle through the displayed tabs and hints each run over the list of
tabs with a loop of their own. Each loop is described by the list of the tabs that it does not skip,
and the descriptions agree.
-/

namespace IntelligentTerminal.Tabs

namespace TabListViewModel

/-! ### What is claimed of the queries -/

section Claims

variable (m : TabListViewModel)

/-- The owners that can be switched to. -/
def navigables (useFilterNavigation : Bool) : List OwnerEntry :=
  m.owners.filter (m.navigable useFilterNavigation)

/-- Whether an owner is on display. -/
def shows (owner : OwnerEntry) : Bool := m.isDisplayed owner (m.matchesSearch owner)

def displayed : List OwnerEntry := m.owners.filter m.shows

/-- Two navigable owners of one group, with no navigable owner of the group between them. -/
def Adjacent (x y : OwnerEntry) : Prop :=
  x.isPinned = y.isPinned ∧ m.navigable true x = true ∧ m.navigable true y = true ∧
    ∃ before between after, m.owners = before ++ x :: (between ++ y :: after) ∧
      ∀ z ∈ between, z.isPinned = x.isPinned ∧ m.navigable true z = false

/-- Repeated steps of `CycleDisplayedTarget`. -/
def cycles (forward : Bool) : ℕ → Identity → Option Identity
  | 0, identity => some identity
  | k + 1, identity =>
    (m.cycleDisplayedTarget identity forward).bind fun target => cycles forward k target.identity

/-- The identities are distinct and not null, and the owners are counted with 32 bits. -/
structure WellFormed : Prop where
  nodup : (m.owners.map (·.identity)).Nodup
  ne_null : ∀ owner ∈ m.owners, owner.identity ≠ 0
  length_lt : m.owners.length < 2 ^ 32

/-- The queries agree on the order of the owners. -/
structure OneOrder : Prop where
  /-- The ordinal of an owner is the index that switches to it. -/
  ordinal : ∀ identity k, k < 2 ^ 32 →
    ((m.stateFor identity).bind (·.navigationOrdinal) = some k ↔
      ∃ target, m.switchTarget k true = some ⟨target, false⟩ ∧ target.identity = identity)
  /-- An index past the navigable owners switches to the last of them. -/
  fallback : ∀ k useFilterNavigation, k < 2 ^ 32 →
    (m.navigables useFilterNavigation).length ≤ k →
    m.switchTarget k useFilterNavigation =
      (m.navigables useFilterNavigation).getLast?.map fun owner => ⟨owner.target, true⟩
  /-- Moving to the next place and to the previous one are inverse. -/
  move : ∀ a b, (∃ target, m.moveTarget a .next = some target ∧ target.identity = b) ↔
    ∃ target, m.moveTarget b .previous = some target ∧ target.identity = a
  /-- A move is to an adjacent owner. -/
  adjacent : ∀ a target, m.moveTarget a .next = some target →
    ∃ x y, m.Adjacent x y ∧ x.identity = a ∧ y.target = target
  /-- Forward steps visit every displayed owner once, and then return. -/
  tour : ∀ x ∈ m.displayed, ∃ tour : List Identity,
    tour.Perm (m.displayed.map (·.identity)) ∧ tour.Nodup ∧
    tour.getLast? = some x.identity ∧
    ∀ k, (h : k < tour.length) → m.cycles true (k + 1) x.identity = some tour[k]
  /-- Forward and backward steps are inverse. -/
  inverse : ∀ x ∈ m.displayed, ∀ forward target,
    m.cycleDisplayedTarget x.identity forward = some target →
    m.cycleDisplayedTarget target.identity (!forward) = some x.target
  /-- A step leads to a displayed owner. -/
  shown : ∀ identity forward target, m.cycleDisplayedTarget identity forward = some target →
    ∃ owner ∈ m.displayed, owner.target = target
  /-- A hint switches to the owner that it is for. -/
  hint : ∀ identity canonicalText candidates i,
    m.chooseHint identity canonicalText candidates = some i →
    ∃ candidate result, candidates[i]? = some candidate ∧
      m.switchTarget candidate.switchIndex candidate.useFilterNavigation = some result ∧
      result.target.identity = identity
  /-- The text of a hint does not depend on the order of the candidates. -/
  hintText : ∀ identity canonicalText candidates candidates', candidates.Perm candidates' →
    ((m.chooseHint identity canonicalText candidates).bind (candidates[·]?)).map (·.text) =
      ((m.chooseHint identity canonicalText candidates').bind (candidates'[·]?)).map (·.text)

end Claims

variable {m : TabListViewModel} {identity a b : Identity} {l : List OwnerEntry} {x y : OwnerEntry}
  {before after : List OwnerEntry} {target : Target} {n i : ℕ}
  {candidates' : List BindingCandidate} {rest : List OwnerEntry} {forward : Bool}

/-! ### Ordinals -/

theorem switchLoop_eq {f : Bool} {index : ℕ} (last : Option Target)
    (hmax : (l.filter (m.navigable f)).length ≤ uint32Max) :
    m.switchLoop f index last l =
      match (l.filter (m.navigable f))[index]? with
      | some owner => some ⟨owner.target, false⟩
      | none => (((l.filter (m.navigable f)).getLast?.map (·.target)).or last).map
          fun target => ⟨target, true⟩ := by
  induction l generalizing index last with
  | nil => rfl
  | cons owner rest ih =>
    rw [switchLoop]
    by_cases hnav : m.navigable f owner = true
    · rw [List.filter_cons_of_pos hnav, List.length_cons] at hmax
      rw [if_pos hnav, List.filter_cons_of_pos hnav]
      by_cases hzero : index = 0
      · rw [if_pos hzero, hzero]
        rfl
      · rw [if_neg hzero, ih (some owner.target) (by omega)]
        have hindex : (rest.filter (m.navigable f))[
            if index ≠ uint32Max then index - 1 else index]? =
            (owner :: rest.filter (m.navigable f))[index]? := by
          split_ifs with hne
          · obtain ⟨i, rfl⟩ := Nat.exists_eq_succ_of_ne_zero hzero
            rfl
          · rw [List.getElem?_eq_none (by omega),
              List.getElem?_eq_none (by rw [List.length_cons]; omega)]
        rw [hindex, List.getLast?_cons]
        cases (rest.filter (m.navigable f)).getLast? <;> rfl
    · rw [List.filter_cons_of_neg hnav] at hmax
      rw [if_neg hnav, List.filter_cons_of_neg hnav, ih last hmax]

theorem WellFormed.length_filter_le (h : m.WellFormed) (p : OwnerEntry → Bool) :
    (m.owners.filter p).length ≤ uint32Max := by
  have hle := List.length_filter_le p m.owners
  have hlt := h.length_lt
  rw [uint32Max]
  omega

theorem switchTarget_eq (h : m.WellFormed) (f : Bool) (k : ℕ) :
    m.switchTarget k f =
      match (m.navigables f)[k]? with
      | some owner => some ⟨owner.target, false⟩
      | none => (m.navigables f).getLast?.map fun owner => ⟨owner.target, true⟩ := by
  rw [switchTarget, switchLoop_eq none (h.length_filter_le _), navigables]
  cases (List.filter (m.navigable f) m.owners)[k]? with
  | some owner => rfl
  | none => cases (List.filter (m.navigable f) m.owners).getLast? <;> rfl

theorem stateLoop_navigationOrdinal {n k : ℕ} (hnodup : (l.map (·.identity)).Nodup)
    (hlt : n + l.length < 2 ^ 32) :
    (m.stateLoop identity n l).bind (·.navigationOrdinal) = some k ↔
      ∃ j owner, k = n + j ∧ (l.filter (m.navigable true))[j]? = some owner ∧
        owner.identity = identity := by
  induction l generalizing n with
  | nil => simp [stateLoop]
  | cons owner rest ih =>
    rw [List.map_cons, List.nodup_cons] at hnodup
    rw [List.length_cons] at hlt
    have hrest : ∀ (j : ℕ) (other : OwnerEntry),
        (rest.filter (m.navigable true))[j]? = some other → other.identity ≠ owner.identity :=
      fun j other hother heq => hnodup.1
        (heq ▸ List.mem_map_of_mem (List.mem_of_mem_filter (List.mem_of_getElem? hother)))
    rw [stateLoop]
    by_cases hself : owner.identity = identity
    · rw [if_pos hself]
      by_cases hnav : m.navigable true owner = true
      · rw [List.filter_cons_of_pos hnav]
        simp only [hnav, if_true, Option.bind_some, Option.some.injEq]
        constructor
        · rintro rfl
          exact ⟨0, owner, rfl, rfl, hself⟩
        · rintro ⟨j, other, rfl, hother, hidentity⟩
          cases j with
          | zero => rfl
          | succ j => exact absurd (hidentity.trans hself.symm) (hrest j other hother)
      · rw [List.filter_cons_of_neg hnav]
        simp only [hnav, Bool.false_eq_true, if_false, Option.bind_some, reduceCtorEq, false_iff]
        rintro ⟨j, other, -, hother, hidentity⟩
        exact hrest j other hother (hidentity.trans hself.symm)
    · rw [if_neg hself]
      by_cases hnav : m.navigable true owner = true
      · rw [if_pos hnav, Nat.mod_eq_of_lt (by omega), ih hnodup.2 (by omega),
          List.filter_cons_of_pos hnav]
        constructor
        · rintro ⟨j, other, rfl, hother, hidentity⟩
          exact ⟨j + 1, other, by omega, hother, hidentity⟩
        · rintro ⟨j, other, rfl, hother, hidentity⟩
          cases j with
          | zero =>
            obtain rfl := Option.some.inj hother
            exact absurd hidentity hself
          | succ j => exact ⟨j, other, by omega, hother, hidentity⟩
      · rw [if_neg hnav, ih hnodup.2 (by omega), List.filter_cons_of_neg hnav]

theorem stateFor_navigationOrdinal (h : m.WellFormed) {k : ℕ} :
    (m.stateFor identity).bind (·.navigationOrdinal) = some k ↔
      ∃ owner, (m.navigables true)[k]? = some owner ∧ owner.identity = identity := by
  rw [stateFor]
  by_cases hnull : identity = 0
  · rw [if_pos hnull]
    refine iff_of_false (by simp) fun ⟨owner, howner, hidentity⟩ => ?_
    exact h.ne_null owner (List.mem_of_mem_filter (List.mem_of_getElem? howner))
      (hidentity.trans hnull)
  · have hlt := h.length_lt
    rw [if_neg hnull, stateLoop_navigationOrdinal h.nodup (by omega)]
    constructor
    · rintro ⟨j, owner, rfl, howner, hidentity⟩
      rw [Nat.zero_add]
      exact ⟨owner, howner, hidentity⟩
    · rintro ⟨owner, howner, hidentity⟩
      exact ⟨k, owner, (Nat.zero_add k).symm, howner, hidentity⟩

/-! ### Moves -/

theorem neighborLoop_eq_some {isPinned : Bool} :
    m.neighborLoop isPinned l = some target ↔
      ∃ between y after, l = between ++ y :: after ∧ y.target = target ∧ y.isPinned = isPinned ∧
        m.navigable true y = true ∧
        ∀ z ∈ between, z.isPinned = isPinned ∧ m.navigable true z = false := by
  induction l with
  | nil => simp [neighborLoop]
  | cons neighbor rest ih =>
    rw [neighborLoop]
    by_cases hpinned : neighbor.isPinned = isPinned
    · rw [if_neg (not_not.mpr hpinned)]
      by_cases hnav : m.navigable true neighbor = true
      · rw [if_pos hnav]
        constructor
        · intro htarget
          exact ⟨[], neighbor, rest, rfl, Option.some.inj htarget, hpinned, hnav, by simp⟩
        · rintro ⟨between, y, after, hl, rfl, -, -, hbetween⟩
          cases between with
          | nil =>
            obtain ⟨rfl, -⟩ := List.cons.inj hl
            rfl
          | cons z between =>
            obtain ⟨rfl, -⟩ := List.cons.inj hl
            exact absurd hnav (by simp [(hbetween neighbor List.mem_cons_self).2])
      · rw [if_neg hnav, ih]
        constructor
        · rintro ⟨between, y, after, rfl, htarget, hy, hnavy, hbetween⟩
          refine ⟨neighbor :: between, y, after, rfl, htarget, hy, hnavy, fun z hz => ?_⟩
          obtain rfl | hz := List.mem_cons.mp hz
          · exact ⟨hpinned, Bool.eq_false_of_not_eq_true hnav⟩
          · exact hbetween z hz
        · rintro ⟨between, y, after, hl, htarget, hy, hnavy, hbetween⟩
          cases between with
          | nil =>
            obtain ⟨rfl, -⟩ := List.cons.inj hl
            exact absurd hnavy hnav
          | cons z between =>
            obtain ⟨-, rfl⟩ := List.cons.inj hl
            exact ⟨between, y, after, rfl, htarget, hy, hnavy,
              fun z hz => hbetween z (List.mem_cons_of_mem _ hz)⟩
    · rw [if_pos hpinned]
      refine iff_of_false (by simp) ?_
      rintro ⟨between, y, after, hl, -, hy, -, hbetween⟩
      cases between with
      | nil =>
        obtain ⟨rfl, -⟩ := List.cons.inj hl
        exact hpinned hy
      | cons z between =>
        obtain ⟨rfl, -⟩ := List.cons.inj hl
        exact hpinned (hbetween neighbor List.mem_cons_self).1

theorem findIdx?_identity (hnodup : (m.owners.map
    (·.identity)).Nodup) (howners : m.owners = before ++ x :: after) :
    (m.owners.findIdx? fun owner => owner.identity = x.identity) = some before.length := by
  rw [howners, List.map_append, List.map_cons, List.nodup_middle, List.nodup_cons] at hnodup
  rw [howners, List.findIdx?_append, List.findIdx?_eq_none_iff.mpr, List.findIdx?_cons]
  · simp
  · intro owner howner
    refine decide_eq_false fun heq => hnodup.1 ?_
    rw [← heq]
    exact List.mem_append_left _ (List.mem_map_of_mem howner)

theorem moveTarget_eq (h : m.WellFormed)
    (howners : m.owners = before ++ x :: after) (direction : MoveDirection) :
    m.moveTarget x.identity direction =
      if m.policy.searchEffective then none
      else if !m.navigable true x then none
      else m.neighborLoop x.isPinned
        (match direction with
          | .previous => before.reverse
          | .next => after) := by
  have hne : x.identity ≠ 0 := h.ne_null x (howners ▸ List.mem_append_right _ List.mem_cons_self)
  have hx : m.owners[before.length]? = some x := by
    rw [howners, List.getElem?_append_right le_rfl, Nat.sub_self]
    rfl
  have htake : m.owners.take before.length = before := by rw [howners, List.take_left]
  have hdrop : m.owners.drop (before.length + 1) = after := by
    rw [howners, List.append_cons, List.drop_left' (by simp)]
  rw [moveTarget, findIdx?_identity h.nodup howners]
  dsimp only
  rw [hx]
  dsimp only
  rw [htake, hdrop]
  by_cases hsearch : m.policy.searchEffective = true
  · rw [if_pos (by simp [hsearch]), if_pos hsearch]
  · refine (if_neg (by simp [hsearch, hne])).trans (Eq.trans ?_ (if_neg hsearch).symm)
    cases direction <;> rfl

theorem exists_owner_of_moveTarget {direction : MoveDirection}
    (h : m.moveTarget identity direction = some target) :
    ∃ before x after, m.owners = before ++ x :: after ∧ x.identity = identity := by
  rw [moveTarget] at h
  split_ifs at h
  split at h
  · exact absurd h (by simp)
  · rename_i i hi
    obtain ⟨hlt, hidentity, -⟩ := List.findIdx?_eq_some_iff_getElem.mp hi
    obtain ⟨before, after, howners⟩ := List.append_of_mem (List.getElem_mem hlt)
    exact ⟨before, _, after, howners, of_decide_eq_true hidentity⟩

theorem moveTarget_next (h : m.WellFormed) :
    m.moveTarget a .next = some target ↔ m.policy.searchEffective = false ∧
      ∃ x y, m.Adjacent x y ∧ x.identity = a ∧ y.target = target := by
  constructor
  · intro hmove
    obtain ⟨before, x, rest, howners, rfl⟩ := exists_owner_of_moveTarget hmove
    rw [moveTarget_eq h howners] at hmove
    split_ifs at hmove with hsearch hnav
    obtain ⟨between, y, after, rfl, htarget, hy, hnavy, hbetween⟩ :=
      neighborLoop_eq_some.mp hmove
    exact ⟨Bool.eq_false_of_not_eq_true hsearch, x, y, ⟨hy.symm, by simpa using hnav, hnavy,
      before, between, after, howners, hbetween⟩, rfl, htarget⟩
  · rintro ⟨hsearch, x, y, ⟨hpinned, hnav, hnavy, before, between, after, howners, hbetween⟩, rfl,
      htarget⟩
    rw [moveTarget_eq h howners, if_neg (by simp [hsearch]), if_neg (by simp [hnav])]
    exact neighborLoop_eq_some.mpr
      ⟨between, y, after, rfl, htarget, hpinned.symm, hnavy, hbetween⟩

theorem moveTarget_previous (h : m.WellFormed) :
    m.moveTarget b .previous = some target ↔ m.policy.searchEffective = false ∧
      ∃ x y, m.Adjacent x y ∧ y.identity = b ∧ x.target = target := by
  constructor
  · intro hmove
    obtain ⟨front, y, after, howners, rfl⟩ := exists_owner_of_moveTarget hmove
    rw [moveTarget_eq h howners] at hmove
    split_ifs at hmove with hsearch hnav
    obtain ⟨between, x, before, hfront, htarget, hx, hnavx, hbetween⟩ :=
      neighborLoop_eq_some.mp hmove
    have hfront : front = before.reverse ++ x :: between.reverse := by
      have hreverse : front.reverse = between ++ x :: before := hfront
      rw [← List.reverse_inj, hreverse]
      simp
    refine ⟨Bool.eq_false_of_not_eq_true hsearch, x, y, ⟨hx, hnavx, by simpa using hnav,
      before.reverse, between.reverse, after, ?_, fun z hz => ?_⟩, rfl, htarget⟩
    · rw [howners, hfront, List.append_assoc]
      rfl
    · rw [hx]
      exact hbetween z (List.mem_reverse.mp hz)
  · rintro ⟨hsearch, x, y, ⟨hpinned, hnav, hnavy, before, between, after, howners, hbetween⟩, rfl,
      htarget⟩
    have howners' : m.owners = (before ++ x :: between) ++ y :: after := by
      rw [howners, List.append_assoc]
      rfl
    rw [moveTarget_eq h howners', if_neg (by simp [hsearch]), if_neg (by simp [hnavy])]
    refine neighborLoop_eq_some.mpr
      ⟨between.reverse, x, before.reverse, by simp, htarget, hpinned, hnav, fun z hz => ?_⟩
    rw [← hpinned]
    exact hbetween z (List.mem_reverse.mp hz)

/-! ### The cycle -/

/-- The same tabs in the opposite order. -/
def reversed (m : TabListViewModel) : TabListViewModel := { m with owners := m.owners.reverse }

theorem cycleLoop_false (hi : i < m.owners.length) :
    m.cycleLoop false n i = m.reversed.cycleLoop true n (m.owners.length - 1 - i) := by
  induction n generalizing i with
  | zero => rfl
  | succ n ih =>
    have hlength : m.reversed.owners.length = m.owners.length := List.length_reverse
    have hstep : cycleStep true m.owners.length (m.owners.length - 1 - i) =
        m.owners.length - 1 - cycleStep false m.owners.length i := by
      simp only [cycleStep, if_true, Bool.false_eq_true, if_false]
      split_ifs <;> omega
    have hlt : cycleStep false m.owners.length i < m.owners.length := by
      simp only [cycleStep, Bool.false_eq_true, if_false]
      split_ifs <;> omega
    have hget : m.reversed.owners[m.owners.length - 1 - cycleStep false m.owners.length i]? =
        m.owners[cycleStep false m.owners.length i]? := by
      rw [reversed, List.getElem?_reverse (by omega)]
      congr 1
      omega
    rw [cycleLoop, cycleLoop, hlength, hstep]
    rw [hget]
    cases m.owners[cycleStep false m.owners.length i]? with
    | none => rfl
    | some owner =>
      dsimp only
      rw [ih hlt]
      rfl

theorem cycleLoop_true (hi : i < m.owners.length) (hn : n ≤ m.owners.length) :
    m.cycleLoop true n i =
      (((m.owners.rotate (i + 1)).take n).find? m.shows).map (·.target) := by
  induction n generalizing i with
  | zero => rfl
  | succ n ih =>
    have hstep : cycleStep true m.owners.length i = (i + 1) % m.owners.length := by
      simp only [cycleStep, if_true]
      split_ifs with hend
      · rw [hend, Nat.mod_self]
      · rw [Nat.mod_eq_of_lt (by omega)]
    have hlt : (i + 1) % m.owners.length < m.owners.length := Nat.mod_lt _ (by omega)
    obtain ⟨owner, rest, hrotate⟩ : ∃ owner rest, m.owners.rotate (i + 1) = owner :: rest := by
      refine List.exists_cons_of_ne_nil fun hnil => ?_
      rw [List.rotate_eq_nil_iff] at hnil
      rw [hnil] at hi
      exact absurd hi (Nat.not_lt_zero i)
    have hget : m.owners[(i + 1) % m.owners.length]? = some owner := by
      have hhead : (m.owners.rotate (i + 1))[0]? = some owner := by rw [hrotate]; rfl
      rw [List.getElem?_rotate (by omega), Nat.zero_add] at hhead
      exact hhead
    have hlength : rest.length + 1 = m.owners.length := by
      rw [← List.length_rotate m.owners (i + 1), hrotate, List.length_cons]
    have hnext : (m.owners.rotate ((i + 1) % m.owners.length + 1)).take n = rest.take n := by
      rw [← List.rotate_rotate, List.rotate_mod, hrotate, List.rotate_cons_succ, List.rotate_zero,
        List.take_append_of_le_length (by omega)]
    rw [cycleLoop, hstep]
    rw [hget]
    dsimp only
    rw [hrotate, List.take_succ_cons, List.find?_cons]
    by_cases hshows : m.shows owner = true
    · rw [hshows]
      exact if_pos hshows
    · rw [Bool.eq_false_of_not_eq_true hshows, ← hnext, ← ih hlt (by omega)]
      exact if_neg hshows

theorem cycleDisplayedTarget_true
    (hnodup : (m.owners.map (·.identity)).Nodup) (howners : m.owners = before ++ x :: after) :
    m.cycleDisplayedTarget x.identity true =
      ((after ++ (before ++ [x])).find? m.shows).map (·.target) := by
  have hlt : before.length < m.owners.length := by
    rw [howners, List.length_append, List.length_cons]
    omega
  have hrotate : m.owners.rotate (before.length + 1) = after ++ (before ++ [x]) := by
    rw [howners, List.append_cons]
    have := List.rotate_append_length_eq (before ++ [x]) after
    rwa [List.length_append] at this
  have hne : m.owners.isEmpty = false := by
    rw [howners]
    cases before <;> rfl
  rw [cycleDisplayedTarget, if_neg (by simp [hne]), findIdx?_identity hnodup howners,
    Option.getD_some, cycleLoop_true hlt le_rfl, hrotate, List.take_of_length_le]
  rw [← hrotate, List.length_rotate]

theorem cycleDisplayedTarget_false
    (hnodup : (m.owners.map (·.identity)).Nodup) (howners : m.owners = before ++ x :: after) :
    m.cycleDisplayedTarget x.identity false =
      ((before.reverse ++ (after.reverse ++ [x])).find? m.shows).map (·.target) := by
  have hlt : before.length < m.owners.length := by
    rw [howners, List.length_append, List.length_cons]
    omega
  have hreversed : m.reversed.owners = after.reverse ++ x :: before.reverse := by
    rw [reversed, howners]
    simp
  have hnodup' : (m.reversed.owners.map (·.identity)).Nodup := by
    rw [reversed, List.map_reverse, List.nodup_reverse]
    exact hnodup
  have hforward := cycleDisplayedTarget_true hnodup' hreversed
  have hne : m.owners.isEmpty = false := by
    rw [howners]
    cases before <;> rfl
  have hne' : m.reversed.owners.isEmpty = false := by
    rw [hreversed]
    cases after.reverse <;> rfl
  have hplace : m.owners.length - 1 - before.length = after.reverse.length := by
    rw [howners, List.length_append, List.length_cons, List.length_reverse]
    omega
  have hlength : m.reversed.owners.length = m.owners.length := List.length_reverse
  rw [cycleDisplayedTarget, if_neg (by simp [hne']), findIdx?_identity hnodup' hreversed,
    Option.getD_some, hlength] at hforward
  rw [cycleDisplayedTarget, if_neg (by simp [hne]), findIdx?_identity hnodup howners,
    Option.getD_some, cycleLoop_false hlt, hplace, hforward]
  rfl

theorem cycleDisplayedTarget_of_isRotated (h : m.WellFormed)
    (hrotated : (x :: rest).IsRotated m.displayed) :
    m.cycleDisplayedTarget x.identity true = (rest ++ [x]).head?.map (·.target) ∧
      m.cycleDisplayedTarget x.identity false = (rest.reverse ++ [x]).head?.map (·.target) := by
  -- The rotation begins somewhere in the displayed owners, and so in the list.
  obtain ⟨front, back, hdisplayed, rfl⟩ : ∃ front back,
      m.displayed = front ++ x :: back ∧ rest = back ++ front := by
    obtain ⟨n, hn⟩ := hrotated.symm
    rw [List.rotate_eq_drop_append_take_mod] at hn
    have hsplit := List.take_append_drop (n % m.displayed.length) m.displayed
    cases hdrop : m.displayed.drop (n % m.displayed.length) with
    | nil =>
      rw [hdrop, List.nil_append] at hn
      rw [hdrop, List.append_nil, hn] at hsplit
      exact ⟨[], rest, hsplit.symm, (List.append_nil rest).symm⟩
    | cons owner back =>
      rw [hdrop, List.cons_append] at hn
      obtain ⟨rfl, rfl⟩ := List.cons.inj hn
      exact ⟨_, back, by rw [← hdrop, hsplit], rfl⟩
  obtain ⟨before, tail, howners, rfl, htail⟩ := List.filter_eq_append_iff.mp hdisplayed
  obtain ⟨hidden, after, rfl, hhidden, hx, rfl⟩ := List.filter_eq_cons_iff.mp htail
  have hnone : hidden.filter m.shows = [] := List.filter_eq_nil_iff.mpr hhidden
  have howners' : m.owners = (before ++ hidden) ++ x :: after := by
    rw [howners, List.append_assoc]
  rw [cycleDisplayedTarget_true h.nodup howners', cycleDisplayedTarget_false h.nodup howners',
    ← List.head?_filter, ← List.head?_filter]
  constructor
  · simp only [List.filter_append, List.filter_cons_of_pos hx, List.filter_nil, hnone,
      List.nil_append, List.append_assoc]
  · simp only [List.filter_append, List.filter_cons_of_pos hx, List.filter_nil, hnone,
      List.reverse_nil, List.nil_append, List.append_assoc, List.filter_reverse,
      List.reverse_append]

theorem exists_isRotated (hx : x ∈ m.displayed) :
    ∃ rest, (x :: rest).IsRotated m.displayed := by
  obtain ⟨front, back, hsplit⟩ := List.append_of_mem hx
  refine ⟨back ++ front, ?_⟩
  rw [hsplit]
  exact @List.isRotated_append _ (x :: back) front

theorem cycles_eq (h : m.WellFormed) (k : ℕ)
    (hrotated : (x :: rest).IsRotated m.displayed) :
    m.cycles true k x.identity = ((x :: rest).rotate k).head?.map (·.identity) := by
  induction k generalizing x rest with
  | zero => rw [List.rotate_zero, cycles, List.head?_cons, Option.map_some]
  | succ k ih =>
    obtain ⟨y, rest', hnext⟩ : ∃ y rest', rest ++ [x] = y :: rest' :=
      List.exists_cons_of_ne_nil (by simp)
    have hrotated' : (y :: rest').IsRotated m.displayed := by
      rw [← hnext]
      refine .trans ?_ hrotated
      exact List.isRotated_append
    rw [cycles, (cycleDisplayedTarget_of_isRotated h hrotated).1, List.rotate_cons_succ, hnext]
    exact ih hrotated'

theorem exists_tour (h : m.WellFormed) (hx : x ∈ m.displayed) : ∃ tour : List Identity,
    tour.Perm (m.displayed.map (·.identity)) ∧ tour.Nodup ∧ tour.getLast? = some x.identity ∧
    ∀ k, (hk : k < tour.length) → m.cycles true (k + 1) x.identity = some tour[k] := by
  obtain ⟨rest, hrotated⟩ := exists_isRotated hx
  have hperm : ((rest ++ [x]).map (·.identity)).Perm (m.displayed.map (·.identity)) :=
    (List.perm_append_singleton x rest |>.trans hrotated.perm).map _
  refine ⟨(rest ++ [x]).map (·.identity), hperm, hperm.nodup_iff.mpr ?_, by simp, ?_⟩
  · exact h.nodup.sublist (List.filter_sublist.map _)
  · intro k hk
    rw [List.length_map] at hk
    rw [cycles_eq h _ hrotated, List.rotate_cons_succ, List.head?_rotate hk,
      List.getElem?_eq_getElem hk, Option.map_some, List.getElem_map]

theorem cycleDisplayedTarget_inverse (h : m.WellFormed) (hx : x ∈ m.displayed)
    (hstep : m.cycleDisplayedTarget x.identity forward = some target) :
    m.cycleDisplayedTarget target.identity (!forward) = some x.target := by
  obtain ⟨rest, hrotated⟩ := exists_isRotated hx
  obtain ⟨hforward, hbackward⟩ := cycleDisplayedTarget_of_isRotated h hrotated
  cases forward with
  | true =>
    obtain ⟨y, rest', hnext⟩ : ∃ y rest', rest ++ [x] = y :: rest' :=
      List.exists_cons_of_ne_nil (by simp)
    rw [hforward, hnext] at hstep
    obtain rfl := Option.some.inj hstep
    have hrotated' : (y :: rest').IsRotated m.displayed := by
      rw [← hnext]
      exact List.isRotated_append.trans hrotated
    have hback : rest'.reverse ++ [y] = x :: rest.reverse := by
      rw [← List.reverse_cons, ← hnext, List.reverse_append]
      rfl
    exact (cycleDisplayedTarget_of_isRotated h hrotated').2.trans (by rw [hback]; rfl)
  | false =>
    obtain ⟨y, rest', hnext⟩ : ∃ y rest', rest.reverse ++ [x] = y :: rest' :=
      List.exists_cons_of_ne_nil (by simp)
    rw [hbackward, hnext] at hstep
    obtain rfl := Option.some.inj hstep
    have hback : rest'.reverse ++ [y] = x :: rest := by
      rw [← List.reverse_cons, ← hnext, List.reverse_append, List.reverse_reverse]
      rfl
    have hrotated' : (y :: rest'.reverse).IsRotated m.displayed := by
      rw [← hback] at hrotated
      exact List.isRotated_append.trans hrotated
    exact (cycleDisplayedTarget_of_isRotated h hrotated').1.trans (by rw [hback]; rfl)

theorem exists_displayed_of_cycleLoop
    (h : m.cycleLoop forward n i = some target) :
    ∃ owner ∈ m.displayed, owner.target = target := by
  induction n generalizing i with
  | zero => exact absurd h (by simp [cycleLoop])
  | succ n ih =>
    rw [cycleLoop] at h
    split at h
    · exact absurd h (by simp)
    · rename_i owner howner
      split_ifs at h with hshows
      · exact ⟨owner, List.mem_filter.mpr ⟨List.mem_of_getElem? howner, hshows⟩,
          Option.some.inj h⟩
      · exact ih h

/-! ### Hints -/

/-- The rank and the text of a candidate that switches to the owner. -/
def hintKey (m : TabListViewModel) (identity : Identity) (canonicalText : WString)
    (state : OwnerState) (candidate : BindingCandidate) : Option (ℕ ×ₗ WString) :=
  match m.switchTarget candidate.switchIndex candidate.useFilterNavigation with
  | none => none
  | some result =>
    if result.target.identity ≠ identity then none
    else some (toLex (hintRank canonicalText state candidate result, candidate.text))

/-- What has been chosen is the least of the candidates that have been looked at. -/
def Best (m : TabListViewModel) (identity : Identity) (canonicalText : WString)
    (state : OwnerState) (candidates : List BindingCandidate) (bestRank : ℕ) :
    Option (ℕ × BindingCandidate) → Prop
  | none => bestRank = 4 ∧
    ∀ other ∈ candidates, m.hintKey identity canonicalText state other = none
  | some (i, best) => candidates[i]? = some best ∧
    m.hintKey identity canonicalText state best = some (toLex (bestRank, best.text)) ∧
    ∀ other ∈ candidates, ∀ key, m.hintKey identity canonicalText state other = some key →
      toLex (bestRank, best.text) ≤ key

theorem hintRank_lt (canonicalText : WString) (state : OwnerState) (candidate : BindingCandidate)
    (result : SwitchResult) : hintRank canonicalText state candidate result < 4 := by
  rw [hintRank]
  split_ifs <;> decide

variable {canonicalText : WString} {state : OwnerState} {candidates rest : List BindingCandidate}
  {candidate : BindingCandidate} {bestRank : ℕ} {chosen : Option (ℕ × BindingCandidate)}

theorem Best.skip (h : m.Best identity canonicalText state candidates bestRank chosen)
    (hkey : m.hintKey identity canonicalText state candidate = none) :
    m.Best identity canonicalText state (candidates ++ [candidate]) bestRank chosen := by
  cases chosen with
  | none =>
    refine ⟨h.1, fun other hother => ?_⟩
    obtain hother | hother := List.mem_append.mp hother
    · exact h.2 other hother
    · exact List.mem_singleton.mp hother ▸ hkey
  | some best =>
    obtain ⟨hget, hbest, hleast⟩ := h
    refine ⟨?_, hbest, fun other hother key hkey' => ?_⟩
    · rw [List.getElem?_append_left (List.getElem?_eq_some_iff.mp hget).1, hget]
    · obtain hother | hother := List.mem_append.mp hother
      · exact hleast other hother key hkey'
      · rw [List.mem_singleton.mp hother, hkey] at hkey'
        exact absurd hkey' (by simp)

theorem Best.choose (h : m.Best identity canonicalText state candidates bestRank chosen) {rank : ℕ}
    (hkey : m.hintKey identity canonicalText state candidate =
      some (toLex (rank, candidate.text)))
    (hless : ∀ best ∈ chosen, toLex (rank, candidate.text) ≤ toLex (bestRank, best.2.text)) :
    m.Best identity canonicalText state (candidates ++ [candidate]) rank
      (some (candidates.length, candidate)) := by
  refine ⟨by simp, hkey, fun other hother key hkey' => ?_⟩
  obtain hother | hother := List.mem_append.mp hother
  · cases chosen with
    | none =>
      rw [h.2 other hother] at hkey'
      exact absurd hkey' (by simp)
    | some best => exact (hless best rfl).trans (h.2.2 other hother key hkey')
  · rw [List.mem_singleton.mp hother, hkey] at hkey'
    exact (Option.some.inj hkey').le

theorem Best.keep (h : m.Best identity canonicalText state candidates bestRank chosen) {rank : ℕ}
    (hrank : rank < 4)
    (hkey : m.hintKey identity canonicalText state candidate =
      some (toLex (rank, candidate.text)))
    (hge : ¬ rank < bestRank)
    (hless : ∀ best ∈ chosen, rank = bestRank → ¬ candidate.text < best.2.text) :
    m.Best identity canonicalText state (candidates ++ [candidate]) bestRank chosen := by
  cases chosen with
  | none => exact absurd (h.1 ▸ hrank) hge
  | some best =>
    obtain ⟨hget, hbest, hleast⟩ := h
    refine ⟨?_, hbest, fun other hother key hkey' => ?_⟩
    · rw [List.getElem?_append_left (List.getElem?_eq_some_iff.mp hget).1, hget]
    · obtain hother | hother := List.mem_append.mp hother
      · exact hleast other hother key hkey'
      · rw [List.mem_singleton.mp hother, hkey] at hkey'
        obtain rfl := Option.some.inj hkey'
        obtain hlt | heq := lt_or_eq_of_le (not_lt.mp hge)
        · exact Prod.Lex.toLex_le_toLex.mpr (.inl hlt)
        · exact Prod.Lex.toLex_le_toLex.mpr (.inr ⟨heq, not_lt.mp (hless best rfl heq.symm)⟩)

theorem hintLoop_best (h : m.Best identity canonicalText state candidates bestRank chosen) :
    ∃ rank, m.Best identity canonicalText state (candidates ++ rest) rank
      (m.hintLoop identity canonicalText state candidates.length chosen bestRank rest) := by
  induction rest generalizing candidates bestRank chosen with
  | nil =>
    rw [List.append_nil]
    exact ⟨bestRank, h⟩
  | cons candidate rest ih =>
    have hlength : candidates.length + 1 = (candidates ++ [candidate]).length := by simp
    rw [List.append_cons, hintLoop, hlength]
    cases hresult : m.switchTarget candidate.switchIndex candidate.useFilterNavigation with
    | none => exact ih (h.skip (by rw [hintKey, hresult]))
    | some result =>
      dsimp only
      by_cases hother : result.target.identity ≠ identity
      · rw [if_pos hother]
        exact ih (h.skip (by rw [hintKey, hresult]; exact if_pos hother))
      · have hkey : m.hintKey identity canonicalText state candidate =
            some (toLex (hintRank canonicalText state candidate result, candidate.text)) := by
          rw [hintKey, hresult]
          exact if_neg hother
        rw [if_neg hother]
        split_ifs with hchoose
        · refine ih (h.choose hkey fun best hbest => ?_)
          subst hbest
          rw [Option.any_some, Bool.or_eq_true, Bool.and_eq_true, decide_eq_true_eq, beq_iff_eq,
            decide_eq_true_eq] at hchoose
          rw [Prod.Lex.toLex_le_toLex]
          exact hchoose.imp_right fun hless => ⟨hless.1, hless.2.le⟩
        · refine ih (h.keep (hintRank_lt ..) hkey (fun hlt => hchoose (by simp [hlt])) ?_)
          intro best hbest heq hless
          subst hbest
          exact hchoose (by simp [heq, hless])

theorem chooseHint_best (m : TabListViewModel) (identity : Identity) (canonicalText : WString)
    (candidates : List BindingCandidate) :
    m.chooseHint identity canonicalText candidates = none ∧
        (m.stateFor identity = none ∨ identity = 0) ∨
      ∃ state rank chosen, m.stateFor identity = some state ∧ identity ≠ 0 ∧
        m.chooseHint identity canonicalText candidates = chosen.map (·.1) ∧
        m.Best identity canonicalText state candidates rank chosen := by
  rw [chooseHint]
  cases hstate : m.stateFor identity with
  | none => exact .inl ⟨rfl, .inl rfl⟩
  | some state =>
    by_cases hnull : identity = 0
    · exact .inl ⟨if_pos hnull, .inr hnull⟩
    · have hempty : m.Best identity canonicalText state [] 4 none := ⟨rfl, by simp⟩
      obtain ⟨rank, hbest⟩ : ∃ rank, m.Best identity canonicalText state ([] ++ candidates) rank _ :=
        hintLoop_best hempty
      exact .inr ⟨state, rank, _, rfl, hnull, if_neg hnull, hbest⟩

theorem Best.bind_getElem? (h : m.Best identity canonicalText state candidates bestRank chosen) :
    (chosen.map (·.1)).bind (candidates[·]?) = chosen.map (·.2) := by
  cases chosen with
  | none => rfl
  | some best => exact h.1

theorem Best.text_eq {bestRank' : ℕ}
    {chosen' : Option (ℕ × BindingCandidate)} (hperm : candidates.Perm candidates')
    (h : m.Best identity canonicalText state candidates bestRank chosen)
    (h' : m.Best identity canonicalText state candidates' bestRank' chosen') :
    chosen.map (·.2.text) = chosen'.map (·.2.text) := by
  cases chosen with
  | none =>
    cases chosen' with
    | none => rfl
    | some best' =>
      have hmem : best'.2 ∈ candidates := hperm.mem_iff.mpr (List.mem_of_getElem? h'.1)
      exact absurd (h'.2.1.symm.trans (h.2 _ hmem)) (by simp)
  | some best =>
    have hmem : best.2 ∈ candidates' := hperm.mem_iff.mp (List.mem_of_getElem? h.1)
    cases chosen' with
    | none => exact absurd (h.2.1.symm.trans (h'.2 _ hmem)) (by simp)
    | some best' =>
      have hmem' : best'.2 ∈ candidates := hperm.mem_iff.mpr (List.mem_of_getElem? h'.1)
      have hle := h.2.2 _ hmem' _ h'.2.1
      have hge := h'.2.2 _ hmem _ h.2.1
      exact congrArg (fun key => some (ofLex key).2) (hle.antisymm hge)

theorem exists_switchTarget_of_chooseHint {i : ℕ}
    (h : m.chooseHint identity canonicalText candidates = some i) :
    ∃ candidate result, candidates[i]? = some candidate ∧
      m.switchTarget candidate.switchIndex candidate.useFilterNavigation = some result ∧
      result.target.identity = identity := by
  obtain ⟨hnone, -⟩ | ⟨state, rank, chosen, -, -, hhint, hbest⟩ :=
    chooseHint_best m identity canonicalText candidates
  · exact absurd (hnone.symm.trans h) (by simp)
  · rw [hhint] at h
    cases chosen with
    | none => exact absurd h (by simp)
    | some best =>
      obtain rfl := Option.some.inj h
      have hkey := hbest.2.1
      rw [hintKey] at hkey
      split at hkey
      · exact absurd hkey (by simp)
      · rename_i result hresult
        split_ifs at hkey with hidentity
        exact ⟨best.2, result, hbest.1, hresult, not_not.mp hidentity⟩

theorem chooseHint_text
    (hperm : candidates.Perm candidates') :
    ((m.chooseHint identity canonicalText candidates).bind (candidates[·]?)).map (·.text) =
      ((m.chooseHint identity canonicalText candidates').bind (candidates'[·]?)).map (·.text) := by
  obtain ⟨hnone, hstate⟩ | ⟨state, rank, chosen, hstate, hne, hhint, hbest⟩ :=
    chooseHint_best m identity canonicalText candidates <;>
  obtain ⟨hnone', hstate'⟩ | ⟨state', rank', chosen', hstate', hne', hhint', hbest'⟩ :=
    chooseHint_best m identity canonicalText candidates'
  · rw [hnone, hnone']
    rfl
  · exact absurd hstate (by simp [hstate', hne'])
  · exact absurd hstate' (by simp [hstate, hne])
  · obtain rfl := Option.some.inj (hstate.symm.trans hstate')
    rw [hhint, hhint', hbest.bind_getElem?, hbest'.bind_getElem?, Option.map_map, Option.map_map]
    exact hbest.text_eq hperm hbest'

/-! ### The queries agree -/

/-- Bindings, states, moves, the cycle and hints agree on the order of the tabs. -/
theorem oneOrder (h : m.WellFormed) : m.OneOrder where
  ordinal identity k _ := by
    rw [stateFor_navigationOrdinal h, switchTarget_eq h]
    cases hk : (m.navigables true)[k]? with
    | some owner => simp [OwnerEntry.target]
    | none =>
      refine iff_of_false (by simp) ?_
      cases (m.navigables true).getLast? <;> simp
  fallback k useFilterNavigation _ hk := by
    rw [switchTarget_eq h, List.getElem?_eq_none hk]
  move a b := by
    simp only [moveTarget_next h, moveTarget_previous h]
    constructor
    · rintro ⟨_, ⟨hsearch, x, y, hadjacent, hx, rfl⟩, hy⟩
      exact ⟨x.target, ⟨hsearch, x, y, hadjacent, hy, rfl⟩, hx⟩
    · rintro ⟨_, ⟨hsearch, x, y, hadjacent, hy, rfl⟩, hx⟩
      exact ⟨y.target, ⟨hsearch, x, y, hadjacent, hx, rfl⟩, hy⟩
  adjacent a target htarget := ((moveTarget_next h).mp htarget).2
  tour x hx := exists_tour h hx
  inverse x hx forward target hstep := cycleDisplayedTarget_inverse h hx hstep
  shown identity forward target hstep := by
    rw [cycleDisplayedTarget] at hstep
    by_cases hempty : m.owners.isEmpty = true
    · exact absurd hstep (by simp [hempty])
    · rw [if_neg hempty] at hstep
      exact exists_displayed_of_cycleLoop hstep
  hint identity canonicalText candidates i hhint := exists_switchTarget_of_chooseHint hhint
  hintText identity canonicalText candidates candidates' hperm := chooseHint_text hperm

/-- The tabs of a rail that is filtered to the agents, with one pinned tab. -/
def agentTabs : TabListViewModel where
  equalIgnoringCase := (· == ·)
  owners := [⟨1, 0, true, true, [97], [], false, false, []⟩,
    ⟨2, 1, false, true, [98], [], false, false, []⟩,
    ⟨3, 2, false, false, [98], [], false, false, []⟩,
    ⟨4, 3, false, true, [97, 98], [], false, false, []⟩]
  criteria := ⟨true, true, false, true, false, []⟩

theorem oneOrder_agentTabs : agentTabs.WellFormed ∧ agentTabs.OneOrder :=
  have h : agentTabs.WellFormed := ⟨by decide, by decide, by decide⟩
  ⟨h, oneOrder h⟩

end TabListViewModel

end IntelligentTerminal.Tabs
