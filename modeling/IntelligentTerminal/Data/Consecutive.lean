import Mathlib

/-!
# Consecutive intervals

The intervals between the consecutive elements of a list, the last of which goes up to a bound, and
elements of a list that are followed by others.
-/

namespace IntelligentTerminal

/-! ### Intervals -/

variable {α : Type*} {l : List α}

/-- Each element with the next one, the last one with `bound`. -/
def intervals (bound : α) : List α → List (α × α)
  | [] => []
  | a :: l => (a, l.headD bound) :: intervals bound l

theorem intervals_concat (bound a : α) (l : List α) :
    intervals bound (l ++ [a]) = intervals a l ++ [(a, bound)] := by
  induction l with
  | nil => rfl
  | cons c l ih =>
    have hhead : (l ++ [a]).headD bound = l.headD a := by cases l <;> rfl
    rw [List.cons_append, intervals, intervals, ih, hhead, List.cons_append]

theorem mem_of_mem_intervals {bound : α} {u : α × α} (h : u ∈ intervals bound l) :
    u.1 ∈ l := by
  induction l with
  | nil => exact absurd h List.not_mem_nil
  | cons a l ih =>
    rcases List.mem_cons.mp h with rfl | h
    · exact List.mem_cons_self
    · exact List.mem_cons_of_mem _ (ih h)

section Order

variable [Preorder α] {bound : α} {l : List α}

theorem isChain_intervals (hl : l.Pairwise (· < ·)) (hbound : ∀ a ∈ l, a ≤ bound) :
    (intervals bound l).IsChain fun u v => u.2 = v.1 ∧ u.1 < v.1 ∧ v.1 ≤ v.2 := by
  induction hl with
  | nil => exact .nil
  | @cons a l hlt hl ih =>
    have htail := ih fun c hc => hbound c (List.mem_cons_of_mem a hc)
    cases l with
    | nil => exact .singleton _
    | cons c l =>
      refine .cons_cons ⟨rfl, hlt c List.mem_cons_self, ?_⟩ htail
      cases l with
      | nil => exact hbound c (List.mem_cons_of_mem a List.mem_cons_self)
      | cons d l => exact (List.rel_of_pairwise_cons hl List.mem_cons_self).le

theorem pairwise_intervals_iff {R : α × α → α × α → Prop} (hl : l.Pairwise (· < ·))
    (hfar : ∀ u v, u.2 < v.1 → R u v) :
    (intervals bound l).Pairwise R ↔ (intervals bound l).IsChain R := by
  refine ⟨List.Pairwise.isChain, fun h => ?_⟩
  induction hl with
  | nil => exact .nil
  | @cons a l hlt hl ih =>
    cases l with
    | nil => exact List.pairwise_singleton R _
    | cons c l =>
      obtain ⟨hnext, htail⟩ := List.isChain_cons_cons.mp h
      refine List.pairwise_cons.mpr ⟨fun v hv => ?_, ih htail⟩
      rcases List.mem_cons.mp hv with rfl | hv
      · exact hnext
      · exact hfar _ v (List.rel_of_pairwise_cons hl (mem_of_mem_intervals hv))

end Order

theorem isChain_iff_of_isChain {R S T : α → α → Prop} (h : l.IsChain T)
    (himp : ∀ a b, T a b → (R a b ↔ S a b)) : l.IsChain R ↔ l.IsChain S := by
  induction h with
  | nil => exact iff_of_true .nil .nil
  | singleton a => exact iff_of_true (.singleton a) (.singleton a)
  | cons_cons hab _ ih => rw [List.isChain_cons_cons, List.isChain_cons_cons, himp _ _ hab, ih]

/-! ### Elements that are followed by others -/

variable {p q : α → Prop} {a : α} {l r : List α}

/-- An element that satisfies `p` is followed by one that satisfies `q`. -/
def Followed (p q : α → Prop) (l : List α) : Prop := ¬ l.Pairwise fun a b => p a → ¬ q b

theorem not_followed_nil : ¬ Followed p q [] := not_not.mpr .nil

theorem followed_cons : Followed p q (a :: l) ↔ (p a ∧ ∃ b ∈ l, q b) ∨ Followed p q l := by
  rw [Followed, Followed, List.pairwise_cons, not_and_or]
  refine or_congr ?_ Iff.rfl
  push Not
  exact ⟨fun ⟨b, hb, ha, hq⟩ => ⟨ha, b, hb, hq⟩, fun ⟨ha, b, hb, hq⟩ => ⟨b, hb, ha, hq⟩⟩

theorem followed_append : Followed p q (l ++ r) ↔
    Followed p q l ∨ Followed p q r ∨ ((∃ a ∈ l, p a) ∧ ∃ b ∈ r, q b) := by
  rw [Followed, Followed, Followed, List.pairwise_append, not_and_or, not_and_or]
  refine or_congr Iff.rfl (or_congr Iff.rfl ?_)
  push Not
  exact ⟨fun ⟨a, ha, b, hb, hp, hq⟩ => ⟨⟨a, ha, hp⟩, b, hb, hq⟩,
    fun ⟨⟨a, ha, hp⟩, b, hb, hq⟩ => ⟨a, ha, b, hb, hp, hq⟩⟩

theorem followed_map {β : Type*} (f : β → α) {l : List β} :
    Followed p q (l.map f) ↔ Followed (fun a => p (f a)) (fun a => q (f a)) l := by
  rw [Followed, Followed, List.pairwise_map]

/-! ### The first group of a list -/

/-- The first group of adjacent elements that satisfy `p`. -/
def firstGroup (p : α → Bool) (l : List α) : List α := (l.dropWhile fun a => !p a).takeWhile p

section FirstGroup

variable {p : α → Bool} {l : List α} {a : α}

theorem firstGroup_cons_of_neg (ha : p a = false) (l : List α) :
    firstGroup p (a :: l) = firstGroup p l := by
  rw [firstGroup, List.dropWhile_cons_of_pos (by rw [ha]; rfl), firstGroup]

theorem firstGroup_cons_of_pos (ha : p a = true) (l : List α) :
    firstGroup p (a :: l) = a :: l.takeWhile p := by
  rw [firstGroup, List.dropWhile_cons_of_neg (by rw [ha]; exact Bool.false_ne_true),
    List.takeWhile_cons_of_pos ha]

theorem mem_firstGroup (h : a ∈ firstGroup p l) : a ∈ l ∧ p a = true :=
  ⟨(List.dropWhile_sublist _).subset ((List.takeWhile_sublist _).subset h),
    List.mem_takeWhile_imp h⟩

theorem exists_eq_takeWhile_append (h : ∃ a ∈ l, p a = true) :
    ∃ a r, l = (l.takeWhile fun a => !p a) ++ a :: r ∧ p a = true := by
  induction l with
  | nil => exact absurd h (by simp)
  | cons c l ih =>
    by_cases hc : p c = true
    · refine ⟨c, l, ?_, hc⟩
      rw [List.takeWhile_cons_of_neg (by rw [hc]; exact Bool.false_ne_true)]
      rfl
    · obtain ⟨a, ha, hpa⟩ := h
      have hmem : a ∈ l := by
        rcases List.mem_cons.mp ha with rfl | ha
        · exact absurd hpa hc
        · exact ha
      obtain ⟨d, r, heq, hd⟩ := ih ⟨a, hmem, hpa⟩
      refine ⟨d, r, ?_, hd⟩
      rw [List.takeWhile_cons_of_pos (by rw [Bool.eq_false_iff.mpr hc]; rfl), List.cons_append,
        ← heq]

theorem firstGroup_append_of_followed
    (h : Followed (fun a => p a = true) (fun a => p a = false) l) (r : List α) :
    firstGroup p (l ++ r) = firstGroup p l := by
  induction l with
  | nil => exact absurd h not_followed_nil
  | cons a l ih =>
    rw [List.cons_append]
    by_cases ha : p a = true
    · have hover : ∃ b ∈ l, p b = false := by
        rcases followed_cons.mp h with ⟨-, hover⟩ | h
        · exact hover
        · by_contra! hall
          exact h (List.pairwise_of_forall_mem_list fun c _ d hd _ => hall d hd)
      obtain ⟨b, hb, hfalse⟩ := hover
      have hstop : (l.takeWhile p).length ≠ l.length := fun hlen => by
        have hall := List.takeWhile_eq_self_iff.mp ((List.takeWhile_prefix p).eq_of_length hlen)
        rw [hall b hb] at hfalse
        exact Bool.noConfusion hfalse
      rw [firstGroup_cons_of_pos ha, firstGroup_cons_of_pos ha, List.takeWhile_append,
        if_neg hstop]
    · have ha := Bool.eq_false_iff.mpr ha
      rw [firstGroup_cons_of_neg ha, firstGroup_cons_of_neg ha]
      refine ih ((followed_cons.mp h).resolve_left fun hand => ?_)
      rw [ha] at hand
      exact Bool.false_ne_true hand.1

theorem mem_firstGroup_of_not_followed
    (h : ¬ Followed (fun a => p a = true) (fun a => p a = false) l) (ha : p a = true)
    (r : List α) : a ∈ firstGroup p (l ++ a :: r) := by
  induction l with
  | nil =>
    rw [List.nil_append, firstGroup_cons_of_pos ha]
    exact List.mem_cons_self
  | cons c l ih =>
    rw [followed_cons, not_or, not_and] at h
    rw [List.cons_append]
    by_cases hc : p c = true
    · have hall : ∀ x ∈ l, p x = true := by
        have hnone := h.1 hc
        push Not at hnone
        exact fun x hx => Bool.ne_false_iff.mp (hnone x hx)
      rw [firstGroup_cons_of_pos hc, List.takeWhile_append_of_pos hall,
        List.takeWhile_cons_of_pos ha]
      exact List.mem_cons_of_mem _ (List.mem_append_right _ List.mem_cons_self)
    · rw [firstGroup_cons_of_neg (Bool.eq_false_iff.mpr hc)]
      exact ih h.2

end FirstGroup

end IntelligentTerminal
