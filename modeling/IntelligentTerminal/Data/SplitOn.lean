import Mathlib

/-!
# Splitting a list that grows at its end

A list is split at a delimiter. An element behind the list begins a new part if it is the delimiter,
and is a part of the last one otherwise.
-/

namespace IntelligentTerminal

variable {α : Type*} [DecidableEq α]

theorem splitOn_concat_self (a : α) (l : List α) : (l ++ [a]).splitOn a = l.splitOn a ++ [[]] := by
  rw [List.splitOn_append_cons_self, List.splitOn_nil]

theorem exists_splitOn_concat (a : α) (l : List α) :
    ∃ front last, l.splitOn a = front ++ [last] ∧ a ∉ last ∧
      ∀ b ≠ a, (l ++ [b]).splitOn a = front ++ [last ++ [b]] := by
  by_cases ha : a ∈ l
  · obtain ⟨xs, ys, hrev, hxs⟩ := List.eq_append_cons_of_mem (List.mem_reverse.mpr ha)
    have hl : l = ys.reverse ++ a :: xs.reverse := by
      rw [← List.reverse_reverse l, hrev]
      simp
    have hlast : a ∉ xs.reverse := by rwa [List.mem_reverse]
    refine ⟨ys.reverse.splitOn a, xs.reverse, ?_, hlast, fun b hb => ?_⟩
    · rw [hl, List.splitOn_append_cons_self, List.splitOn_eq_singleton hlast]
    · have hgrown : a ∉ xs.reverse ++ [b] := by simp [hxs, hb.symm]
      rw [hl, List.append_assoc, List.cons_append, List.splitOn_append_cons_self,
        List.splitOn_eq_singleton hgrown]
  · refine ⟨[], l, List.splitOn_eq_singleton ha, ha, fun b hb => ?_⟩
    have hgrown : a ∉ l ++ [b] := by simp [ha, hb.symm]
    rw [List.nil_append, List.splitOn_eq_singleton hgrown]

theorem length_splitOn (a : α) (l : List α) : (l.splitOn a).length = l.count a + 1 := by
  induction l with
  | nil => rfl
  | cons b l ih =>
    rw [List.splitOn_cons_eq_if_modifyHead, List.count_cons]
    split_ifs with hb
    · rw [List.length_cons, ih]
    · rw [List.length_modifyHead, ih, Nat.add_zero]

end IntelligentTerminal
