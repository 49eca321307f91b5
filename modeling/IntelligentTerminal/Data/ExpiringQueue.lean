import Mathlib

/-!
# A queue whose elements expire

The elements of a queue have a time, and expire a while after it. What has expired is dropped at the
front only, and then all but the last few elements are dropped. In a queue that is ordered by time
no expired element is left. In any other, an element that is refreshed in place holds back the older
ones behind it.
-/

namespace IntelligentTerminal.Data

variable {α : Type*} (time : α → ℕ) (ttl limit : ℕ)

/-- An element has expired. -/
def expired (now : ℕ) (a : α) : Bool := decide (ttl ≤ now - time a)

/-- Drops what has expired at the front, and then all but the last `limit` elements. -/
def expire (now : ℕ) (queue : List α) : List α :=
  let fresh := queue.dropWhile (expired time ttl now)
  fresh.drop (fresh.length - limit)

theorem expire_suffix (now : ℕ) (queue : List α) : expire time ttl limit now queue <:+ queue :=
  (List.drop_suffix _ _).trans (List.dropWhile_suffix _)

theorem length_expire_le (now : ℕ) (queue : List α) :
    (expire time ttl limit now queue).length ≤ limit := by
  rw [expire, List.length_drop]
  omega

variable {time ttl limit} {now : ℕ} {queue front back : List α} {a b : α}

theorem expired_eq_true : expired time ttl now a = true ↔ ttl ≤ now - time a := decide_eq_true_iff

theorem lt_of_mem_dropWhile (hqueue : queue.Pairwise fun a b => time a ≤ time b)
    (ha : a ∈ queue.dropWhile (expired time ttl now)) : now - time a < ttl := by
  induction hqueue with
  | nil => exact absurd ha List.not_mem_nil
  | @cons c queue hle _ ih =>
    by_cases hc : expired time ttl now c = true
    · rw [List.dropWhile_cons_of_pos hc] at ha
      exact ih ha
    · rw [List.dropWhile_cons_of_neg hc] at ha
      rw [expired_eq_true] at hc
      rcases List.mem_cons.mp ha with rfl | ha
      · exact not_le.mp hc
      · have := hle a ha
        omega

theorem lt_of_mem_expire (hqueue : queue.Pairwise fun a b => time a ≤ time b)
    (ha : a ∈ expire time ttl limit now queue) : now - time a < ttl :=
  lt_of_mem_dropWhile hqueue ((List.drop_suffix _ _).subset ha)

variable (time ttl limit)

theorem exists_expire_append (now : ℕ) (ha : now - time a < ttl)
    (hlength : (front ++ a :: back).length ≤ limit) :
    ∃ front', front' <:+ front ∧
      expire time ttl limit now (front ++ a :: back) = front' ++ a :: back := by
  have hsuffix := List.dropWhile_suffix (l := front) (expired time ttl now)
  have hstop : (a :: back).dropWhile (expired time ttl now) = a :: back :=
    List.dropWhile_cons_of_neg (by rw [expired_eq_true]; omega)
  have hdrop : (front ++ a :: back).dropWhile (expired time ttl now) =
      front.dropWhile (expired time ttl now) ++ a :: back := by
    rw [List.dropWhile_append, hstop]
    split_ifs with hnil
    · rw [List.isEmpty_iff.mp hnil, List.nil_append]
    · rfl
  have hle : (front.dropWhile (expired time ttl now) ++ a :: back).length ≤ limit := by
    have := hsuffix.length_le
    rw [List.length_append] at hlength ⊢
    omega
  refine ⟨_, hsuffix, ?_⟩
  rw [expire, hdrop, Nat.sub_eq_zero_of_le hle, List.drop_zero]

theorem exists_expired_of_lt (httl : 0 < ttl) (hb : b ∈ back) (hlt : time b < time a)
    (hlength : (front ++ a :: back).length ≤ limit) :
    ∃ now, time a ≤ now ∧ ∃ b ∈ expire time ttl limit now
        (expire time ttl limit (time a) (front ++ a :: back)), ttl ≤ now - time b := by
  obtain ⟨front₁, hfront₁, hexpire⟩ := exists_expire_append time ttl limit (time a) (by omega)
    hlength
  have hlength₁ : (front₁ ++ a :: back).length ≤ limit := by
    have := hfront₁.length_le
    simp only [List.length_append] at hlength ⊢
    omega
  refine ⟨max (time a) (time b + ttl), le_max_left _ _, b, ?_, by omega⟩
  obtain ⟨front₂, -, hexpire'⟩ := exists_expire_append time ttl limit
    (max (time a) (time b + ttl)) (by omega) hlength₁
  rw [hexpire, hexpire']
  exact List.mem_append_right _ (List.mem_cons_of_mem _ hb)

end IntelligentTerminal.Data
