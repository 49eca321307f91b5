import Mathlib

/-!
# Run-length encoding

A list of runs encodes the list that has the value of each run as often as the run is long. It is
compact if no run is empty and no two adjacent runs could be one. `Joined` puts two lists of runs
together and merges the two runs where they meet, if these have one value.
-/

namespace IntelligentTerminal

/-- A value, and how often it is repeated. -/
structure Run (α : Type*) where
  value : α
  length : ℕ
deriving DecidableEq, Inhabited

namespace Run

variable {α : Type*} {l r s : List (Run α)} {run : Run α} {pos : ℕ} {rs : List (Run α)}

/-- The list that the runs encode. -/
def decode (rs : List (Run α)) : List α := rs.flatMap fun run => List.replicate run.length run.value

/-- The length of the list that the runs encode. -/
def total (rs : List (Run α)) : ℕ := (rs.map length).sum

@[simp] theorem decode_nil : decode ([] : List (Run α)) = [] := rfl

@[simp] theorem decode_cons (run : Run α) (rs : List (Run α)) :
    decode (run :: rs) = List.replicate run.length run.value ++ decode rs := rfl

@[simp] theorem decode_append (l r : List (Run α)) : decode (l ++ r) = decode l ++ decode r :=
  List.flatMap_append

@[simp] theorem total_nil : total ([] : List (Run α)) = 0 := rfl

@[simp] theorem total_cons (run : Run α) (rs : List (Run α)) :
    total (run :: rs) = run.length + total rs := rfl

@[simp] theorem total_append (l r : List (Run α)) : total (l ++ r) = total l + total r := by
  simp [total]

@[simp] theorem length_decode (rs : List (Run α)) : (decode rs).length = total rs := by
  induction rs with
  | nil => rfl
  | cons run rs ih => simp [ih]

/-- No run is empty, and adjacent runs have different values. -/
structure Compact (rs : List (Run α)) : Prop where
  length_pos : ∀ run ∈ rs, 0 < run.length
  distinct : (rs.map value).IsChain (· ≠ ·)

theorem compact_nil : Compact ([] : List (Run α)) := ⟨by simp, by simp⟩

theorem Compact.left (h : Compact (l ++ r)) : Compact l where
  length_pos run hrun := h.length_pos run (List.mem_append_left r hrun)
  distinct := by
    have hdistinct := h.distinct
    rw [List.map_append] at hdistinct
    exact hdistinct.left_of_append

theorem Compact.right (h : Compact (l ++ r)) : Compact r where
  length_pos run hrun := h.length_pos run (List.mem_append_right l hrun)
  distinct := by
    have hdistinct := h.distinct
    rw [List.map_append] at hdistinct
    exact hdistinct.right_of_append

theorem Compact.cut {v : α} {m n : ℕ} (h : Compact (l ++ ⟨v, m⟩ :: r)) (hn : 0 < n) :
    Compact (l ++ ⟨v, n⟩ :: r) where
  length_pos run hrun := by
    rcases List.mem_append.mp hrun with hleft | hright
    · exact h.left.length_pos run hleft
    · rcases List.mem_cons.mp hright with rfl | hright
      · exact hn
      · exact h.right.length_pos run (List.mem_cons_of_mem _ hright)
  distinct := by simpa using h.distinct

/-- Puts a value in front of a list of runs. -/
def push [DecidableEq α] (v : α) : List (Run α) → List (Run α)
  | [] => [⟨v, 1⟩]
  | run :: rs => if run.value = v then ⟨v, run.length + 1⟩ :: rs else ⟨v, 1⟩ :: run :: rs

/-- The runs of a list. -/
def encode [DecidableEq α] (vs : List α) : List (Run α) := vs.foldr push []

theorem decode_push [DecidableEq α] (v : α) (rs : List (Run α)) :
    decode (push v rs) = v :: decode rs := by
  cases rs with
  | nil => rfl
  | cons run rs =>
    by_cases hrun : run.value = v
    · rw [push, if_pos hrun, decode_cons, decode_cons, hrun, List.replicate_succ, List.cons_append]
    · rw [push, if_neg hrun, decode_cons]
      rfl

theorem Compact.push [DecidableEq α] (v : α) (h : Compact rs) :
    Compact (push v rs) := by
  cases rs with
  | nil => exact ⟨by simp [Run.push], by simp [Run.push]⟩
  | cons run rs =>
    rw [Run.push]
    have hdistinct := h.distinct
    rw [List.map_cons] at hdistinct
    by_cases hrun : run.value = v
    · rw [if_pos hrun]
      refine ⟨fun x hx => ?_, by rwa [List.map_cons, ← hrun]⟩
      rcases List.mem_cons.mp hx with rfl | hx
      · exact Nat.succ_pos _
      · exact h.length_pos x (List.mem_cons_of_mem _ hx)
    · rw [if_neg hrun]
      refine ⟨fun x hx => ?_, ?_⟩
      · rcases List.mem_cons.mp hx with rfl | hx
        · exact Nat.one_pos
        · exact h.length_pos x hx
      · rw [List.map_cons, List.map_cons]
        exact hdistinct.cons_cons (Ne.symm hrun)

theorem decode_encode [DecidableEq α] (vs : List α) : decode (encode vs) = vs := by
  induction vs with
  | nil => rfl
  | cons v vs ih =>
    change decode (push v (encode vs)) = v :: vs
    rw [decode_push, ih]

theorem compact_encode [DecidableEq α] (vs : List α) : Compact (encode vs) := by
  induction vs with
  | nil => exact compact_nil
  | cons v vs ih => exact ih.push v

theorem mem_decode {v : α} (h : Compact rs) :
    v ∈ decode rs ↔ v ∈ rs.map value := by
  rw [decode, List.mem_flatMap, List.mem_map]
  constructor
  · rintro ⟨run, hrun, hv⟩
    exact ⟨run, hrun, (List.eq_of_mem_replicate hv).symm⟩
  · rintro ⟨run, hrun, rfl⟩
    exact ⟨run, hrun, List.mem_replicate.mpr ⟨(h.length_pos run hrun).ne', rfl⟩⟩

/-- The list `l` with the list `r` behind it; where they meet in runs of one value, these are one
run. -/
inductive Joined : List (Run α) → List (Run α) → List (Run α) → Prop
  | apart {l r : List (Run α)}
      (hvalues : ∀ x ∈ l.getLast?, ∀ y ∈ r.head?, x.value ≠ y.value) : Joined l r (l ++ r)
  | merged (l r : List (Run α)) (v : α) (m n : ℕ) :
      Joined (l ++ [⟨v, m⟩]) (⟨v, n⟩ :: r) (l ++ ⟨v, m + n⟩ :: r)

theorem Joined.decode_eq (h : Joined l r s) : decode s = decode l ++ decode r := by
  cases h with
  | apart hvalues => exact decode_append l r
  | merged l r v m n =>
    simp only [decode_append, decode_cons, decode_nil, List.append_nil, List.append_assoc,
      List.replicate_add]

theorem Joined.compact (h : Joined l r s) (hl : Compact l) (hr : Compact r) : Compact s := by
  cases h with
  | apart hvalues =>
    refine ⟨fun run hrun => ?_, ?_⟩
    · rcases List.mem_append.mp hrun with hrun | hrun
      · exact hl.length_pos run hrun
      · exact hr.length_pos run hrun
    · rw [List.map_append, List.isChain_append]
      refine ⟨hl.distinct, hr.distinct, fun v hv w hw => ?_⟩
      rw [List.getLast?_map, Option.mem_def, Option.map_eq_some_iff] at hv
      rw [List.head?_map, Option.mem_def, Option.map_eq_some_iff] at hw
      obtain ⟨x, hx, rfl⟩ := hv
      obtain ⟨y, hy, rfl⟩ := hw
      exact hvalues x hx y hy
  | merged l r v m n =>
    refine ⟨fun run hrun => ?_, ?_⟩
    · rcases List.mem_append.mp hrun with hrun | hrun
      · exact hl.length_pos run (List.mem_append_left _ hrun)
      · rcases List.mem_cons.mp hrun with rfl | hrun
        · exact Nat.add_pos_right m (hr.length_pos _ List.mem_cons_self)
        · exact hr.length_pos run (List.mem_cons_of_mem _ hrun)
    · have hleft := hl.distinct
      have hright := hr.distinct
      simp only [List.map_append, List.map_cons, List.map_nil] at hleft hright ⊢
      exact List.isChain_split.mpr ⟨hleft, hright⟩

theorem getElem?_decode (hpos : pos < run.length) :
    (decode (l ++ run :: r))[total l + pos]? = some run.value := by
  rw [decode_append, decode_cons, ← length_decode, List.getElem?_append_right (Nat.le_add_right _ _),
    Nat.add_sub_cancel_left, List.getElem?_append_left (by rwa [List.length_replicate]),
    List.getElem?_replicate, if_pos hpos]

theorem take_decode (hpos : pos ≤ run.length) :
    (decode (l ++ run :: r)).take (total l + pos) = decode (l ++ [⟨run.value, pos⟩]) := by
  rw [decode_append, decode_append, decode_cons, decode_cons, decode_nil, List.append_nil,
    ← length_decode, List.take_length_add_append,
    List.take_append_of_le_length (by rwa [List.length_replicate]), List.take_replicate,
    Nat.min_eq_left hpos]

theorem drop_decode (hpos : pos ≤ run.length) :
    (decode (run :: r)).drop pos = decode (⟨run.value, run.length - pos⟩ :: r) := by
  rw [decode_cons, decode_cons, List.drop_append_of_le_length (by rwa [List.length_replicate]),
    List.drop_replicate]

theorem decode_map_value {β : Type*} (f : α → β) (rs : List (Run α)) :
    decode (rs.map fun run => ⟨f run.value, run.length⟩) = (decode rs).map f := by
  induction rs with
  | nil => rfl
  | cons run rs ih =>
    rw [List.map_cons, decode_cons, decode_cons, ih, List.map_append, List.map_replicate]

/-- Makes one run of adjacent runs of one value. -/
def merge [DecidableEq α] : Run α → List (Run α) → List (Run α)
  | run, [] => [run]
  | run, next :: rest =>
    if run.value = next.value then merge ⟨run.value, run.length + next.length⟩ rest
    else run :: merge next rest

theorem decode_merge [DecidableEq α] (run : Run α) (rest : List (Run α)) :
    decode (merge run rest) = decode (run :: rest) := by
  induction rest generalizing run with
  | nil => rfl
  | cons next rest ih =>
    by_cases hvalue : run.value = next.value
    · rw [merge, if_pos hvalue, ih, decode_cons, decode_cons, decode_cons, List.replicate_add,
        hvalue, List.append_assoc]
    · rw [merge, if_neg hvalue, decode_cons, ih]
      rfl

theorem merge_ne_nil [DecidableEq α] (run : Run α) (rest : List (Run α)) :
    ∃ n more, merge run rest = ⟨run.value, n⟩ :: more := by
  induction rest generalizing run with
  | nil => exact ⟨run.length, [], rfl⟩
  | cons next rest ih =>
    by_cases hvalue : run.value = next.value
    · rw [merge, if_pos hvalue]
      exact ih ⟨run.value, run.length + next.length⟩
    · exact ⟨run.length, merge next rest, by rw [merge, if_neg hvalue]⟩

theorem compact_merge [DecidableEq α] {rest : List (Run α)}
    (hpos : ∀ x ∈ run :: rest, 0 < x.length) : Compact (merge run rest) := by
  induction rest generalizing run with
  | nil => exact ⟨hpos, by simp [merge]⟩
  | cons next rest ih =>
    have hrun : 0 < run.length := hpos run List.mem_cons_self
    have hrest : ∀ x ∈ rest, 0 < x.length := fun x hx =>
      hpos x (List.mem_cons_of_mem _ (List.mem_cons_of_mem _ hx))
    by_cases hvalue : run.value = next.value
    · rw [merge, if_pos hvalue]
      refine ih fun x hx => ?_
      rcases List.mem_cons.mp hx with rfl | hx
      · exact Nat.add_pos_left hrun _
      · exact hrest x hx
    · have htail : Compact (merge next rest) :=
        ih fun x hx => hpos x (List.mem_cons_of_mem _ hx)
      rw [merge, if_neg hvalue]
      refine ⟨fun x hx => ?_, ?_⟩
      · rcases List.mem_cons.mp hx with rfl | hx
        · exact hrun
        · exact htail.length_pos x hx
      · obtain ⟨n, more, hmore⟩ := merge_ne_nil next rest
        have hdistinct := htail.distinct
        rw [hmore, List.map_cons] at hdistinct
        rw [List.map_cons, hmore, List.map_cons]
        exact hdistinct.cons_cons hvalue

theorem Joined.total_eq (h : Joined l r s) : total s = total l + total r := by
  rw [← length_decode, h.decode_eq, List.length_append, length_decode, length_decode]

end Run

end IntelligentTerminal
