import Mathlib

/-!
# Maximal runs of linked positions

Some positions of a line are linked to their successors. The maximal runs of linked positions
partition the line: the run around a position is found from any position in it. A run starts at a
position that is not linked to its predecessor and ends at one that is not linked to its successor.
-/

namespace IntelligentTerminal

variable {link : ℕ → Prop} {s s' n m e e' top : ℕ}

/-- The positions from `s` to `e` are linked. -/
def LinkedOn (link : ℕ → Prop) (s e : ℕ) : Prop := ∀ k, s ≤ k → k < e → link k

/-- The maximal run around `n` starts at `s`. -/
structure IsRunStart (link : ℕ → Prop) (n s : ℕ) : Prop where
  le : s ≤ n
  linked : LinkedOn link s n
  first : ∀ k, k + 1 = s → ¬ link k

/-- The maximal run around `n` on the line up to `top` ends at `e`. -/
structure IsRunLast (link : ℕ → Prop) (top n e : ℕ) : Prop where
  ge : n ≤ e
  le_top : e ≤ top
  linked : LinkedOn link n e
  last : e < top → ¬ link e

namespace LinkedOn

theorem refl (link : ℕ → Prop) (n : ℕ) : LinkedOn link n n :=
  fun _ hge hlt => absurd hge (Nat.not_le.mpr hlt)

theorem trans (h : LinkedOn link s n) (h' : LinkedOn link n e) : LinkedOn link s e := by
  intro k hge hlt
  rcases Nat.lt_or_ge k n with hk | hk
  · exact h k hge hk
  · exact h' k hk hlt

theorem mono (h : LinkedOn link s e) (hs : s ≤ s') (he : e' ≤ e) : LinkedOn link s' e' :=
  fun k hge hlt => h k (hs.trans hge) (hlt.trans_le he)

theorem succ (h : link n) : LinkedOn link n (n + 1) := by
  intro k hge hlt
  rwa [show k = n by omega]

theorem constant {β : Type*} {f : ℕ → β} (hf : ∀ k, link k → f (k + 1) = f k)
    (h : LinkedOn link s e) (hle : s ≤ e) : f e = f s := by
  induction e, hle using Nat.le_induction with
  | base => rfl
  | succ e hse ih =>
    rw [hf e (h e hse (Nat.lt_succ_self e)), ih (h.mono le_rfl (Nat.le_succ e))]

end LinkedOn

namespace IsRunStart

theorem unique (h : IsRunStart link n s) (h' : IsRunStart link n s') : s = s' := by
  -- the smaller of two starts links the larger one to its predecessor
  have hle : ∀ {s s' : ℕ}, IsRunStart link n s → IsRunStart link n s' → s ≤ s' := by
    intro s s' h h'
    by_contra! hlt
    obtain ⟨k, rfl⟩ := Nat.exists_eq_succ_of_ne_zero (Nat.ne_of_gt (Nat.zero_lt_of_lt hlt))
    exact h.first k rfl (h'.linked k (Nat.lt_succ_iff.mp hlt) h.le)
  exact Nat.le_antisymm (hle h h') (hle h' h)

theorem of_linkedOn (h : IsRunStart link n s) (hs : s ≤ m) (hlinked : LinkedOn link s m) :
    IsRunStart link m s := ⟨hs, hlinked, h.first⟩

end IsRunStart

namespace IsRunLast

theorem unique (h : IsRunLast link top n e) (h' : IsRunLast link top n e') : e = e' := by
  have hle : ∀ {e e' : ℕ}, IsRunLast link top n e → IsRunLast link top n e' → e ≤ e' := by
    intro e e' h h'
    by_contra! hlt
    exact h'.last (hlt.trans_le h.le_top) (h.linked e' h'.ge hlt)
  exact Nat.le_antisymm (hle h h') (hle h' h)

theorem of_linkedOn (h : IsRunLast link top n e) (he : m ≤ e) (hlinked : LinkedOn link m e) :
    IsRunLast link top m e := ⟨he, h.le_top, hlinked, h.last⟩

end IsRunLast

end IntelligentTerminal
