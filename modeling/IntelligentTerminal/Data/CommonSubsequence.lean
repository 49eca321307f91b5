import Mathlib

/-!
# Longest common subsequences
-/

namespace IntelligentTerminal.Data

variable {α : Type*}

/-- A common subsequence of two lists that no other exceeds. -/
structure IsLongestCommon (common as bs : List α) : Prop where
  sublist_left : common.Sublist as
  sublist_right : common.Sublist bs
  length_le : ∀ other : List α, other.Sublist as → other.Sublist bs → other.length ≤ common.length

variable [DecidableEq α]

/-- The length of a longest common subsequence. -/
def commonLength : List α → List α → ℕ
  | [], _ => 0
  | _ :: _, [] => 0
  | a :: as, b :: bs =>
    if a = b then commonLength as bs + 1
    else max (commonLength as (b :: bs)) (commonLength (a :: as) bs)
termination_by as bs => as.length + bs.length

variable {a b : α} {as bs common : List α}

@[simp]
theorem commonLength_nil_left (bs : List α) : commonLength [] bs = 0 := by rw [commonLength]

@[simp]
theorem commonLength_nil_right (as : List α) : commonLength as [] = 0 := by
  cases as <;> rw [commonLength]

theorem commonLength_cons_self (a : α) (as bs : List α) :
    commonLength (a :: as) (a :: bs) = commonLength as bs + 1 := by
  rw [commonLength, if_pos rfl]

theorem commonLength_cons_of_ne (h : a ≠ b) (as bs : List α) :
    commonLength (a :: as) (b :: bs) =
      max (commonLength as (b :: bs)) (commonLength (a :: as) bs) := by
  rw [commonLength, if_neg h]

theorem length_le_commonLength (hleft : common.Sublist as) (hright : common.Sublist bs) :
    common.length ≤ commonLength as bs := by
  induction as, bs using commonLength.induct generalizing common with
  | case1 bs => simp [List.sublist_nil.mp hleft]
  | case2 a as => simp [List.sublist_nil.mp hright]
  | case3 as a bs ih =>
    -- Whatever the first element is matched with, the others are found behind the two heads.
    have htail := ih hleft.tail hright.tail
    rw [List.length_tail] at htail
    rw [commonLength_cons_self]
    omega
  | case4 a as b bs hab ihleft ihright =>
    rw [commonLength_cons_of_ne hab]
    rcases List.sublist_cons_iff.mp hleft with h | ⟨rest, rfl, -⟩
    · exact (ihleft h hright).trans (le_max_left _ _)
    · rcases List.sublist_cons_iff.mp hright with h | ⟨rest', heq, -⟩
      · exact (ihright hleft h).trans (le_max_right _ _)
      · exact absurd (List.cons.inj heq).1 hab

theorem commonLength_le_left (as bs : List α) : commonLength as bs ≤ as.length := by
  induction as, bs using commonLength.induct with
  | case1 bs => simp
  | case2 a as => simp
  | case3 as a bs ih =>
    rw [commonLength_cons_self, List.length_cons]
    omega
  | case4 a as b bs hab ihleft ihright =>
    rw [commonLength_cons_of_ne hab, List.length_cons] at *
    omega

end IntelligentTerminal.Data
