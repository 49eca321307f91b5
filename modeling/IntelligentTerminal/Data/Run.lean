import Mathlib.Data.List.Infix

/-!
# Runs of a step function

A run applies a list of actions, one after the other. `Along` says of each step that its action
and the state before it are related by `P`.
-/

namespace IntelligentTerminal

variable {σ α : Type*} {step : σ → α → σ} {P : σ → α → Prop} {Inv : σ → Prop} {s : σ}
  {as bs : List α} {Q : σ → Prop}

/-- Each action of the run is related by `P` to the state before it. -/
def Along (step : σ → α → σ) (P : σ → α → Prop) : σ → List α → Prop
  | _, [] => True
  | s, a :: as => P s a ∧ Along step P (step s a) as

theorem Along.of_isPrefix (h : Along step P s bs) (hpre : as <+: bs) :
    Along step P s as := by
  induction as generalizing s bs with
  | nil => trivial
  | cons a as ih =>
    obtain ⟨t, rfl⟩ := hpre
    exact ⟨h.1, ih h.2 (List.prefix_append as t)⟩

theorem Along.append :
    Along step P s (as ++ bs) ↔ Along step P s as ∧ Along step P (as.foldl step s) bs := by
  induction as generalizing s with
  | nil => simp [Along]
  | cons a as ih =>
    rw [List.cons_append, Along, ih, Along, and_assoc]
    rfl

theorem Along.invariant {as : List α}
    (hstep : ∀ s, ∀ a ∈ as, Inv s → P s a → Inv (step s a))
    (hs : Inv s) (h : Along step P s as) : ∀ pre, pre <+: as → Inv (pre.foldl step s) := by
  induction as generalizing s with
  | nil =>
    intro pre hpre
    rw [List.prefix_nil.mp hpre]
    exact hs
  | cons a as ih =>
    intro pre hpre
    rcases List.prefix_cons_iff.mp hpre with rfl | ⟨t, rfl, ht⟩
    · exact hs
    · have htail : ∀ s, ∀ b ∈ as, Inv s → P s b → Inv (step s b) :=
        fun s b hb => hstep s b (List.mem_cons_of_mem a hb)
      exact ih htail (hstep s a List.mem_cons_self hs h.1) h.2 t ht

/-- A run has the property `Q` in every state that it reaches exactly if `P` holds along it, when
`P` is what an enabled step needs to keep an invariant that gives `Q`, and a step without `P` ends
`Q`. -/
theorem forall_isPrefix_iff_along_of_enabled {E : σ → α → Prop}
    (hQ : ∀ s, Inv s → Q s) (as : List α) (hE : Along step E s as)
    (hstep : ∀ s, ∀ a ∈ as, Inv s → E s a → P s a → Inv (step s a))
    (hbad : ∀ s, ∀ a ∈ as, Inv s → E s a → ¬P s a → ¬Q (step s a)) (hs : Inv s) :
    (∀ pre, pre <+: as → Q (pre.foldl step s)) ↔ Along step P s as := by
  induction as generalizing s with
  | nil =>
    refine ⟨fun _ => trivial, fun _ pre hpre => ?_⟩
    rw [List.prefix_nil.mp hpre]
    exact hQ s hs
  | cons a as ih =>
    have hrest := fun hs' : Inv (step s a) => ih hE.2
      (fun s b hb => hstep s b (List.mem_cons_of_mem a hb))
      (fun s b hb => hbad s b (List.mem_cons_of_mem a hb)) hs'
    constructor
    · intro h
      have ha : P s a := by
        by_contra hP
        exact hbad s a List.mem_cons_self hs hE.1 hP (h [a] (by simp))
      have hs' := hstep s a List.mem_cons_self hs hE.1 ha
      exact ⟨ha, (hrest hs').mp fun pre hpre => h (a :: pre) (by simpa using hpre)⟩
    · rintro ⟨ha, hrest'⟩ pre hpre
      rcases List.prefix_cons_iff.mp hpre with rfl | ⟨pre', rfl, hpre'⟩
      · exact hQ s hs
      · exact (hrest (hstep s a List.mem_cons_self hs hE.1 ha)).mpr hrest' pre' hpre'

/-- A run has the property `Q` in every state that it reaches exactly if `P` holds along it, when
`P` is what a step needs to keep an invariant that gives `Q`, and a step without `P` ends `Q`. -/
theorem forall_isPrefix_iff_along (hQ : ∀ s, Inv s → Q s) (as : List α)
    (hstep : ∀ s, ∀ a ∈ as, Inv s → P s a → Inv (step s a))
    (hbad : ∀ s, ∀ a ∈ as, Inv s → ¬P s a → ¬Q (step s a)) (hs : Inv s) :
    (∀ pre, pre <+: as → Q (pre.foldl step s)) ↔ Along step P s as := by
  have hE : Along step (fun _ _ => True) s as := by
    clear hstep hbad hs hQ
    induction as generalizing s with
    | nil => trivial
    | cons a as ih => exact ⟨trivial, ih⟩
  exact forall_isPrefix_iff_along_of_enabled hQ as hE
    (fun s a ha hs _ => hstep s a ha hs) (fun s a ha hs _ => hbad s a ha hs) hs

end IntelligentTerminal
