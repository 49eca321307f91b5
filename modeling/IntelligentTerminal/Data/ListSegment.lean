import Mathlib.Data.List.Basic

/-!
# Writing segments into lists

A fixed array is a list, and a loop that stores successive values from a position on is
`List.overwrite`. The length never changes, and a segment that fits replaces exactly the
elements under it (`List.overwrite_eq`). Three writes into an array that is known as a
concatenation are then rewrites of that concatenation (`List.overwrite_append`,
`List.overwrite_middle`).
-/

namespace List

variable {α : Type*} {i j : ℕ} {a b c seg : List α}

/-- Store the elements of a segment into `l` from position `i` on, one after the other.
Elements that would lie outside of `l` are dropped. -/
def overwrite : List α → ℕ → List α → List α
  | l, _, [] => l
  | l, i, x :: seg => overwrite (l.set i x) (i + 1) seg

@[simp] theorem overwrite_nil (l : List α) (i : ℕ) : l.overwrite i [] = l := rfl

@[simp] theorem length_overwrite (l : List α) (i : ℕ) (seg : List α) :
    (l.overwrite i seg).length = l.length := by
  induction seg generalizing l i with
  | nil => rfl
  | cons x seg ih => rw [overwrite, ih, length_set]

theorem overwrite_eq (l : List α) (i : ℕ) (seg : List α) (h : i + seg.length ≤ l.length) :
    l.overwrite i seg = l.take i ++ seg ++ l.drop (i + seg.length) := by
  induction seg generalizing l i with
  | nil => simp
  | cons x seg ih =>
    rw [length_cons] at h
    have hi : i < l.length := by omega
    have htake : (l.set i x).take (i + 1) = l.take i ++ [x] := by
      rw [List.take_add_one, List.take_set_of_le (Nat.le_refl i)]
      simp [hi]
    have hdrop : (l.set i x).drop (i + 1 + seg.length) = l.drop (i + 1 + seg.length) :=
      List.drop_set_of_lt (by omega)
    rw [overwrite, ih _ _ (by simp only [length_set]; omega), htake, hdrop]
    have hlen : i + 1 + seg.length = i + (x :: seg).length := by
      rw [length_cons]
      omega
    simp only [append_assoc, cons_append, nil_append, hlen]

theorem overwrite_middle {i : ℕ} (hi : i = a.length)
    (hb : seg.length = b.length) : (a ++ b ++ c).overwrite i seg = a ++ seg ++ c := by
  subst hi
  rw [overwrite_eq _ _ _ (by simp only [length_append]; omega)]
  simp only [append_assoc, take_left, hb]
  rw [← append_assoc a b c, ← length_append, drop_left]

theorem overwrite_append {a b seg : List α} {i : ℕ} (hi : i = a.length)
    (hb : seg.length ≤ b.length) :
    (a ++ b).overwrite i seg = a ++ seg ++ b.drop seg.length := by
  subst hi
  rw [overwrite_eq _ _ _ (by simp only [length_append]; omega), take_left, drop_append,
    drop_eq_nil_of_le (Nat.le_add_right _ _), Nat.add_sub_cancel_left, nil_append]

theorem overwrite_inner (hj : j = a.length + i)
    (h : i + seg.length ≤ b.length) :
    (a ++ b ++ c).overwrite j seg = a ++ b.overwrite i seg ++ c := by
  subst hj
  rw [overwrite_eq _ _ _ (by simp only [length_append]; omega), overwrite_eq _ _ _ h,
    append_assoc a b c, take_length_add_append, take_append_of_le_length (by omega),
    Nat.add_assoc, drop_length_add_append, drop_append_of_le_length h]
  simp only [append_assoc]

theorem overwrite_append_seg (l s t : List α) (i : ℕ) :
    l.overwrite i (s ++ t) = (l.overwrite i s).overwrite (i + s.length) t := by
  induction s generalizing l i with
  | nil => rfl
  | cons x s ih =>
    rw [cons_append, overwrite, overwrite, ih, length_cons, Nat.add_assoc, Nat.add_comm 1]

theorem set_overwrite {l seg : List α} (h : i < j) (y : α) :
    (l.overwrite j seg).set i y = (l.set i y).overwrite j seg := by
  induction seg generalizing l j with
  | nil => rfl
  | cons x seg ih => rw [overwrite, overwrite, ih (by omega), set_comm _ _ (by omega)]

theorem overwrite_overwrite_same (l s t : List α) (i : ℕ) :
    (l.overwrite i s).overwrite i t = l.overwrite i (t ++ s.drop t.length) := by
  induction t generalizing l s i with
  | nil => rfl
  | cons y t ih =>
    cases s with
    | nil => simp
    | cons x s =>
      rw [overwrite, overwrite, set_overwrite (Nat.lt_succ_self i), set_set, ih, length_cons,
        drop_succ_cons, cons_append, overwrite]

theorem overwrite_overwrite {l s t : List α} (hj : j ≤ s.length) :
    (l.overwrite i s).overwrite (i + j) t =
      l.overwrite i (s.take j ++ (t ++ (s.drop j).drop t.length)) := by
  have hlen : (s.take j).length = j := by
    rw [length_take]
    omega
  conv_lhs => rw [← take_append_drop j s]
  rw [overwrite_append_seg, hlen, overwrite_overwrite_same]
  rw [overwrite_append_seg _ (s.take j), hlen]

theorem drop_overwrite {l seg : List α} (h : i + seg.length ≤ j) :
    (l.overwrite i seg).drop j = l.drop j := by
  induction seg generalizing l i with
  | nil => rfl
  | cons x seg ih =>
    rw [length_cons] at h
    rw [overwrite, ih (by omega), drop_set_of_lt (by omega)]

theorem overwrite_zero {b seg : List α} (hb : seg.length ≤ b.length) :
    b.overwrite 0 seg = seg ++ b.drop seg.length := by
  simpa using overwrite_append (a := []) rfl hb

end List
