import Mathlib.Data.List.Forall2

/-!
# Computations that can fail

A list is mapped by a function that can fail, from left to right, up to the first failure.
-/

namespace IntelligentTerminal

universe u

variable {ε : Type*} {α β γ : Type u} {x : Except ε α} {as : List α} {bs : List β}
  {f : α → Except ε β} {R : α → β → Prop} {b : β}

theorem bind_eq_ok :
    x >>= f = .ok b ↔ ∃ a, x = .ok a ∧ f a = .ok b := by
  cases x with
  | error e =>
    constructor
    · intro h
      cases h
    · rintro ⟨a, h, _⟩
      cases h
  | ok a =>
    constructor
    · intro h
      exact ⟨a, rfl, h⟩
    · rintro ⟨a', h, hf⟩
      cases h
      exact hf

theorem map_eq_ok {f : α → β} :
    x.map f = .ok b ↔ ∃ a, x = .ok a ∧ f a = b := by
  cases x with
  | error e => simp [Except.map]
  | ok a => simp [Except.map]

theorem map_eq_error {f : α → β} {e : ε} : x.map f = .error e ↔ x = .error e := by
  cases x with
  | error e => simp [Except.map]
  | ok a => simp [Except.map]

theorem forall₂_of_mapM_eq_ok
    (h : as.mapM f = .ok bs) : List.Forall₂ (fun a b => f a = .ok b) as bs := by
  induction as generalizing bs with
  | nil =>
    rw [List.mapM_nil] at h
    cases h
    exact .nil
  | cons a as ih =>
    rw [List.mapM_cons] at h
    obtain ⟨b, hb, h⟩ := bind_eq_ok.mp h
    obtain ⟨bs', hbs, h⟩ := bind_eq_ok.mp h
    cases h
    exact .cons hb (ih hbs)

theorem map_eq_map_of_forall₂ {f : α → γ} {g : β → γ}
    (h : List.Forall₂ R as bs) (hfg : ∀ a b, R a b → g b = f a) : bs.map g = as.map f := by
  induction h with
  | nil => rfl
  | cons hab _ ih => rw [List.map_cons, List.map_cons, ih, hfg _ _ hab]

theorem exists_of_mem_of_forall₂
    (h : List.Forall₂ R as bs) (hb : b ∈ bs) : ∃ a ∈ as, R a b := by
  induction h with
  | nil => cases hb
  | cons hab _ ih =>
    rcases List.mem_cons.mp hb with rfl | hb
    · exact ⟨_, List.mem_cons_self, hab⟩
    · obtain ⟨a, ha, hR⟩ := ih hb
      exact ⟨a, List.mem_cons_of_mem _ ha, hR⟩

end IntelligentTerminal
