import Mathlib

/-!
# Linear probing

The search of an open-addressing table: from the home position on, around the circle of positions,
to the first one that stops it. An entry is *reached* when every position between its home and its
own is occupied; as long as positions only become occupied, entries stay reached.
-/

namespace IntelligentTerminal

/-- The first of `fuel` positions from `i` on, in a circle of `n`, that stops the search. -/
def probe (stop : ℕ → Bool) (n : ℕ) : ℕ → ℕ → Option ℕ
  | 0, _ => none
  | fuel + 1, i => if stop (i % n) then some (i % n) else probe stop n fuel (i + 1)

/-- Every position from `home` on, in a circle of `n`, is occupied up to `j`. -/
def Reached (occupied : ℕ → Bool) (n home j : ℕ) : Prop :=
  ∃ d, (home + d) % n = j ∧ ∀ e < d, occupied ((home + e) % n) = true

variable {stop occupied : ℕ → Bool} {n fuel i j : ℕ}

theorem probe_eq_some_iff : probe stop n fuel i = some j ↔
    ∃ d < fuel, (i + d) % n = j ∧ stop j = true ∧ ∀ e < d, stop ((i + e) % n) = false := by
  induction fuel generalizing i with
  | zero => exact iff_of_false (by simp [probe]) (by simp)
  | succ fuel ih =>
    rw [probe]
    by_cases hstop : stop (i % n) = true
    · rw [if_pos hstop, Option.some_inj]
      constructor
      · rintro rfl
        exact ⟨0, Nat.succ_pos _, rfl, hstop, fun e he => absurd he (Nat.not_lt_zero e)⟩
      · rintro ⟨_ | d, -, hj, -, hall⟩
        · exact hj
        · exact absurd (hall 0 (Nat.succ_pos d)) (by rw [Nat.add_zero, hstop]; decide)
    · rw [if_neg hstop, ih]
      constructor
      · rintro ⟨d, hd, hj, hstopped, hall⟩
        refine ⟨d + 1, by omega, by rw [← hj]; congr 1; omega, hstopped, fun e he => ?_⟩
        rcases e with _ | e
        · exact Bool.eq_false_iff.mpr hstop
        · rw [show i + (e + 1) = i + 1 + e by omega]
          exact hall e (by omega)
      · rintro ⟨_ | d, hd, hj, hstopped, hall⟩
        · rw [Nat.add_zero] at hj
          rw [hj] at hstop
          exact absurd hstopped hstop
        · refine ⟨d, by omega, by rw [← hj]; congr 1; omega, hstopped, fun e he => ?_⟩
          rw [show i + 1 + e = i + (e + 1) by omega]
          exact hall (e + 1) (by omega)

theorem probe_eq_none_iff :
    probe stop n fuel i = none ↔ ∀ e < fuel, stop ((i + e) % n) = false := by
  constructor
  · intro hnone e he
    by_contra hstop
    have hexists : ∃ d, stop ((i + d) % n) = true := ⟨e, (Bool.not_eq_false _).mp hstop⟩
    have hfirst : probe stop n fuel i = some ((i + Nat.find hexists) % n) := by
      refine probe_eq_some_iff.mpr ⟨Nat.find hexists, ?_, rfl, Nat.find_spec hexists, fun k hk => ?_⟩
      · exact (Nat.find_min' hexists ((Bool.not_eq_false _).mp hstop)).trans_lt he
      · exact Bool.eq_false_iff.mpr (Nat.find_min hexists hk)
    rw [hnone] at hfirst
    exact Option.some_ne_none _ hfirst.symm
  · intro hall
    rw [Option.eq_none_iff_forall_ne_some]
    intro j hj
    obtain ⟨d, hd, rfl, hstop, -⟩ := probe_eq_some_iff.mp hj
    rw [hall d hd] at hstop
    exact Bool.false_ne_true hstop

theorem probe_congr {i' : ℕ} (h : i % n = i' % n) : probe stop n fuel i = probe stop n fuel i' := by
  induction fuel generalizing i i' with
  | zero => rfl
  | succ fuel ih =>
    have hnext : (i + 1) % n = (i' + 1) % n := Nat.ModEq.add_right 1 h
    rw [probe, probe, h, ih hnext]

theorem exists_offset (hj : j < n) (i : ℕ) : ∃ e < n, (i + e) % n = j := by
  have hn : 0 < n := Nat.zero_lt_of_lt hj
  have hi := Nat.mod_lt i hn
  refine ⟨(j + n - i % n) % n, Nat.mod_lt _ hn, ?_⟩
  rw [Nat.add_mod_mod, ← Nat.mod_add_mod, show i % n + (j + n - i % n) = j + n by omega,
    Nat.add_mod_right, Nat.mod_eq_of_lt hj]

theorem exists_probe (hj : j < n) (hstop : stop j = true) (i : ℕ) :
    ∃ k, probe stop n n i = some k := by
  rw [← Option.isSome_iff_exists, Option.isSome_iff_ne_none]
  intro hnone
  obtain ⟨e, he, rfl⟩ := exists_offset hj i
  rw [probe_eq_none_iff.mp hnone e he] at hstop
  exact Bool.false_ne_true hstop

theorem probe_of_reached {home k : ℕ} (hreached : Reached occupied n home j) (hstop : stop j = true)
    (h : probe stop n fuel home = some k) : occupied k = true ∨ k = j := by
  obtain ⟨d, -, rfl, -, hall⟩ := probe_eq_some_iff.mp h
  obtain ⟨c, hc, hoccupied⟩ := hreached
  rcases Nat.lt_trichotomy d c with hlt | rfl | hgt
  · exact .inl (hoccupied d hlt)
  · exact .inr hc
  · have hpassed := hall c hgt
    rw [hc, hstop] at hpassed
    exact absurd hpassed.symm Bool.false_ne_true

theorem Reached.mono {occupied' : ℕ → Bool} {home : ℕ} (h : Reached occupied n home j)
    (hle : ∀ p, occupied p = true → occupied' p = true) : Reached occupied' n home j := by
  obtain ⟨d, hd, hall⟩ := h
  exact ⟨d, hd, fun e he => hle _ (hall e he)⟩

theorem reached_of_probe {home : ℕ} (hn : 0 < n) (h : probe stop n fuel home = some j)
    (hpass : ∀ p < n, stop p = false → occupied p = true) : Reached occupied n home j := by
  obtain ⟨d, -, hd, -, hall⟩ := probe_eq_some_iff.mp h
  exact ⟨d, hd, fun e he => hpass _ (Nat.mod_lt _ hn) (hall e he)⟩

end IntelligentTerminal
