import IntelligentTerminal.Buffer.Rle

/-!
# Reading and resizing a run-length encoded vector

`at`, `slice` and `resize_trailing_extent` find their runs with the scanner and work on these alone;
`replace_values` maps the values of the runs and joins in place what has become equal. Each agrees
with the same operation on the list that the runs encode.

Source: `src/inc/til/rle.h`, lines 408-455, 494-535 and 618-690.
-/

namespace IntelligentTerminal.Buffer

open IntelligentTerminal (Run)

variable {T : Type}

namespace BasicRle

/-- `basic_rle::at`; `none` is `std::out_of_range`. -/
def at_ (bits : ℕ) (rle : BasicRle T) (position : ℕ) : Option T :=
  let (it, _, _) := scan bits position rle.runs 0 0
  rle.runs[it]?.map Run.value

def slice (bits : ℕ) (rle : BasicRle T) (startIndex endIndex : ℕ) : Option (BasicRle T) :=
  let endIndex := if endIndex > rle.totalLength then rle.totalLength else endIndex
  if startIndex ≥ endIndex then some ⟨[], 0⟩
  else
    let (beginRun, startRunPos, total) := scan bits startIndex rle.runs 0 0
    let (endRun, endRunPos, _) := scan bits (endIndex - 1) (rle.runs.drop beginRun) beginRun total
    let slice := (rle.runs.drop beginRun).take (endRun + 1 - beginRun)
    do
      let slice ← setLength slice (slice.length - 1) fun _ => sizeType bits (endRunPos + 1)
      let slice ← setLength slice 0 fun length => sizeType bits (length - startRunPos)
      some ⟨slice, sizeType bits (endIndex - startIndex)⟩

/-- `basic_rle::resize_trailing_extent`; `none` is a failed `Expects`. -/
def resizeTrailingExtent (bits : ℕ) (rle : BasicRle T) (newSize : ℕ) : Option (BasicRle T) :=
  if newSize = 0 then some ⟨[], newSize⟩
  else if newSize < rle.totalLength then
    let (run, pos, _) := scan bits (newSize - 1) rle.runs 0 0
    do
      let runs ← setLength rle.runs run fun _ => sizeType bits (pos + 1)
      some ⟨erase runs (run + 1) runs.length, newSize⟩
  else if newSize > rle.totalLength then do
    let runs ← setLength rle.runs (rle.runs.length - 1) fun length =>
      sizeType bits (length + (newSize - rle.totalLength))
    some ⟨runs, newSize⟩
  else some ⟨rle.runs, newSize⟩

/-- The inner loop of `_compact`, with so many runs from `it` on: `ref` is the last run that is
kept so far. -/
def compactRest [DecidableEq T] (bits : ℕ) : ℕ → List (Run T) → ℕ → ℕ → Option (List (Run T))
  | 0, runs, ref, _ => some (erase runs (ref + 1) runs.length)
  | left + 1, runs, ref, it => do
    let kept ← runs[ref]?
    let run ← runs[it]?
    if kept.value = run.value then
      let runs ← setLength runs ref fun length => sizeType bits (length + run.length)
      compactRest bits left runs ref (it + 1)
    else compactRest bits left (runs.set (ref + 1) run) (ref + 1) (it + 1)

/-- The outer loop of `_compact`, with so many runs behind `ref`: it looks for two adjacent runs of
one value. -/
def compactFrom [DecidableEq T] (bits : ℕ) : ℕ → List (Run T) → ℕ → Option (List (Run T))
  | 0, runs, _ => some runs
  | left + 1, runs, ref => do
    let kept ← runs[ref]?
    let run ← runs[ref + 1]?
    if kept.value = run.value then
      let runs ← setLength runs ref fun length => sizeType bits (length + run.length)
      compactRest bits left runs ref (ref + 2)
    else compactFrom bits left runs (ref + 1)

def compact [DecidableEq T] (bits : ℕ) (runs : List (Run T)) : Option (List (Run T)) :=
  if runs = [] then some runs else compactFrom bits (runs.length - 1) runs 0

def replaceValues [DecidableEq T] (bits : ℕ) (rle : BasicRle T) (oldValue newValue : T) :
    Option (BasicRle T) := do
  let runs ← compact bits (rle.runs.map fun run =>
    if run.value = oldValue then { run with value := newValue } else run)
  some ⟨runs, rle.totalLength⟩

/-- No run is empty, and the length is the sum of the runs', which the size type can hold. -/
structure Valid (bits : ℕ) (rle : BasicRle T) : Prop where
  length_pos : ∀ run ∈ rle.runs, 0 < run.length
  total_eq : rle.totalLength = Run.total rle.runs
  fits : rle.totalLength < 2 ^ bits

theorem Valid.length_decode {bits : ℕ} {rle : BasicRle T} (h : rle.Valid bits) :
    (Run.decode rle.runs).length = rle.totalLength := by
  rw [Run.length_decode, h.total_eq]

theorem valid_empty (bits : ℕ) : Valid bits (⟨[], 0⟩ : BasicRle T) :=
  ⟨by simp, rfl, Nat.two_pow_pos bits⟩

/-! ### The scanner -/

section Scan

variable {bits index it total : ℕ} {runs : List (Run T)}

theorem scan_of_lt (bits index it total : ℕ) (hpos : ∀ run ∈ runs, 0 < run.length)
    (hlower : total ≤ index) (hupper : index < total + Run.total runs)
    (hfits : total + Run.total runs < 2 ^ bits) :
    ∃ l run r pos, runs = l ++ run :: r ∧ pos < run.length ∧ index = total + Run.total l + pos ∧
      scan bits index runs it total = (it + l.length, pos, total + Run.total l) := by
  obtain ⟨l, r, hruns, hindex, hscan⟩ | ⟨l, r, v, p, q, hruns, hp, hq, hindex, hscan⟩ :=
    scan_cases bits index it total hpos hlower hupper.le hfits
  · cases r with
    | nil =>
      rw [hruns, List.append_nil] at hupper
      omega
    | cons run r =>
      have hrun : 0 < run.length := hpos run (by simp [hruns])
      exact ⟨l, run, r, 0, hruns, hrun, hindex, by rw [hscan, hindex]⟩
  · exact ⟨l, ⟨v, p + q⟩, r, p, hruns, Nat.lt_add_of_pos_right hq, hindex, hscan⟩

theorem scan_of_ge (hfits : total + Run.total runs < 2 ^ bits)
    (hindex : total + Run.total runs ≤ index) :
    scan bits index runs it total = (it + runs.length, 0, total + Run.total runs) := by
  induction runs generalizing it total with
  | nil => rfl
  | cons run runs ih =>
    rw [Run.total_cons] at hfits hindex
    have hnew : sizeType bits (total + run.length) = total + run.length :=
      sizeType_eq (by push_cast; rfl) (by omega)
    have hinside : ¬total + run.length > index := by omega
    rw [scan, hnew]
    simp only [if_neg hinside]
    rw [ih (by omega) (by omega), List.length_cons, Run.total_cons]
    congr 1
    · omega
    · congr 1
      omega

end Scan

/-! ### Reading -/

section Reads

variable {bits : ℕ} {rle : BasicRle T} {newSize : ℕ}

theorem at_eq (h : rle.Valid bits) (position : ℕ) :
    rle.at_ bits position = (Run.decode rle.runs)[position]? := by
  have hfits : 0 + Run.total rle.runs < 2 ^ bits := by
    rw [Nat.zero_add, ← h.total_eq]
    exact h.fits
  by_cases hlt : position < Run.total rle.runs
  · obtain ⟨l, run, r, pos, hruns, hpos, hindex, hscan⟩ := scan_of_lt bits position 0 0
      h.length_pos (Nat.zero_le position) (by omega) hfits
    rw [at_, hscan]
    simp only [Nat.zero_add] at hindex ⊢
    rw [hruns, hindex, Run.getElem?_decode hpos, List.getElem?_append_right le_rfl,
      Nat.sub_self]
    rfl
  · rw [at_, scan_of_ge hfits (by omega), List.getElem?_eq_none (by rw [Run.length_decode]; omega)]
    simp

theorem slice_cut (bits : ℕ) {m r r' : List (Run T)} {run run' : Run T} {p q : ℕ}
    (hsplit : run :: r = m ++ run' :: r') (hp : p < run.length) (hq : q < run'.length)
    (hlt : p ≤ Run.total m + q) (hfits : Run.total (run :: r) < 2 ^ bits)
    (hpos : ∀ x ∈ run :: r, 0 < x.length) :
    ∃ t s, setLength (m ++ [run']) ((m ++ [run']).length - 1) (fun _ => sizeType bits (q + 1)) =
        some t ∧
      setLength t 0 (fun length => sizeType bits (length - p)) = some s ∧
      Run.decode s = ((Run.decode (run :: r)).take (Run.total m + (q + 1))).drop p ∧
      ∀ x ∈ s, 0 < x.length := by
  have hback : setLength (m ++ [run']) ((m ++ [run']).length - 1)
      (fun _ => sizeType bits (q + 1)) = some (m ++ [⟨run'.value, q + 1⟩]) := by
    have hrun' : run'.length ≤ Run.total (run :: r) := by
      rw [hsplit, Run.total_append, Run.total_cons]
      omega
    rw [List.length_append, List.length_singleton, Nat.add_sub_cancel, setLength_append,
      sizeType_eq (n := q + 1) (by push_cast; rfl) (by omega)]
  have htake : Run.decode (m ++ [⟨run'.value, q + 1⟩]) =
      (Run.decode (run :: r)).take (Run.total m + (q + 1)) := by
    rw [hsplit, Run.take_decode hq]
  obtain ⟨y, ys, hy, hcut, hlength, hys⟩ : ∃ y ys, m ++ [⟨run'.value, q + 1⟩] = y :: ys ∧
      p < y.length ∧ y.length < 2 ^ bits ∧ ∀ x ∈ ys, 0 < x.length := by
    cases m with
    | nil =>
      obtain ⟨rfl, rfl⟩ := List.cons.inj hsplit
      rw [Run.total_cons] at hfits
      rw [Run.total_nil, Nat.zero_add] at hlt
      exact ⟨_, [], rfl, Nat.lt_succ_of_le hlt, by dsimp only; omega, by simp⟩
    | cons x m =>
      obtain ⟨rfl, hr⟩ := List.cons.inj hsplit
      rw [Run.total_cons] at hfits
      refine ⟨_, _, rfl, hp, by omega, fun x hx => ?_⟩
      rcases List.mem_append.mp hx with hx | hx
      · exact hpos x (by rw [hr]; simp [hx])
      · rw [List.mem_singleton.mp hx]
        exact Nat.succ_pos q
  have hfront : setLength (y :: ys) 0 (fun length => sizeType bits (length - p)) =
      some (⟨y.value, y.length - p⟩ :: ys) := by
    have happend := setLength_append [] ys y fun length => sizeType bits (length - p)
    rw [List.nil_append, List.length_nil, List.nil_append,
      sizeType_eq (n := y.length - p) (by omega) (by omega)] at happend
    exact happend
  refine ⟨y :: ys, ⟨y.value, y.length - p⟩ :: ys, by rw [hback, hy], hfront, ?_, ?_⟩
  · rw [← htake, hy, Run.drop_decode hcut.le]
  · intro x hx
    rcases List.mem_cons.mp hx with rfl | hx
    · exact Nat.sub_pos_of_lt hcut
    · exact hys x hx

theorem slice_spec (h : rle.Valid bits) (startIndex endIndex : ℕ) :
    ∃ s, rle.slice bits startIndex endIndex = some s ∧ s.Valid bits ∧
      Run.decode s.runs = ((Run.decode rle.runs).take (min endIndex rle.totalLength)).drop
        (min startIndex rle.totalLength) := by
  have htotal : rle.totalLength = Run.total rle.runs := h.total_eq
  have hfits : rle.totalLength < 2 ^ bits := h.fits
  have hclamp : (if endIndex > rle.totalLength then rle.totalLength else endIndex) =
      min endIndex rle.totalLength := by
    split_ifs <;> omega
  by_cases hempty : startIndex ≥ min endIndex rle.totalLength
  · refine ⟨⟨[], 0⟩, by simp only [slice, hclamp, if_pos hempty], valid_empty bits, ?_⟩
    rw [Run.decode_nil, List.drop_eq_nil_of_le]
    rw [List.length_take, h.length_decode]
    omega
  obtain ⟨endAt, hendAt⟩ : ∃ n, min endIndex rle.totalLength = n + 1 :=
    Nat.exists_eq_succ_of_ne_zero (by omega)
  obtain ⟨l, run, r, p, hruns, hp, hstart, hscan⟩ := scan_of_lt bits startIndex 0 0
    h.length_pos (Nat.zero_le _) (by omega) (by omega)
  have hdrop : rle.runs.drop l.length = run :: r := by rw [hruns, List.drop_left]
  have hsum : Run.total rle.runs = Run.total l + Run.total (run :: r) := by
    rw [hruns, Run.total_append]
  have hposRest : ∀ x ∈ run :: r, 0 < x.length := fun x hx =>
    h.length_pos x (by rw [hruns]; exact List.mem_append_right l hx)
  obtain ⟨m, run', r', q, hsplit, hq, hend, hscan'⟩ := scan_of_lt bits endAt
    l.length (Run.total l) hposRest (by omega) (by omega) (by omega)
  have htake : (run :: r).take (l.length + m.length + 1 - l.length) = m ++ [run'] := by
    rw [hsplit, show l.length + m.length + 1 - l.length = m.length + 1 by omega,
      List.take_length_add_append]
    rfl
  obtain ⟨t, s, ht, hs, hdecode, hspos⟩ := slice_cut bits hsplit hp hq (by omega)
    (by omega) hposRest
  have hdecode' : Run.decode s = ((Run.decode rle.runs).take (endAt + 1)).drop startIndex := by
    have htarget : ((Run.decode rle.runs).take (endAt + 1)).drop startIndex =
        ((Run.decode (run :: r)).take (Run.total m + (q + 1))).drop p := by
      have hendLength : endAt + 1 = (Run.decode l).length + (Run.total m + (q + 1)) := by
        rw [Run.length_decode]
        omega
      have hstartLength : startIndex = (Run.decode l).length + p := by
        rw [Run.length_decode]
        omega
      rw [hruns, Run.decode_append l, hendLength, hstartLength, List.take_length_add_append,
        List.drop_length_add_append]
    rw [hdecode, htarget]
  have hslice : rle.slice bits startIndex endIndex = some ⟨s, endAt + 1 - startIndex⟩ := by
    have hlength : sizeType bits (((endAt + 1 : ℕ) : ℤ) - startIndex) = endAt + 1 - startIndex :=
      sizeType_eq (by omega) (by omega)
    rw [hendAt] at hempty
    simp only [Nat.zero_add] at hscan
    simp only [slice, hclamp, hendAt, if_neg hempty, Nat.add_sub_cancel, hscan, hdrop, hscan', htake,
      ht, hs, Option.bind_eq_bind, Option.bind_some, hlength]
  refine ⟨_, hslice, ⟨hspos, ?_, ?_⟩, ?_⟩
  · rw [← Run.length_decode, hdecode', List.length_drop, List.length_take, Run.length_decode]
    dsimp only
    omega
  · dsimp only
    omega
  · rw [hdecode', hendAt, Nat.min_eq_left (by omega : startIndex ≤ rle.totalLength)]

theorem resizeTrailingExtent_of_lt (h : rle.Valid bits)
    (hlt : newSize < rle.totalLength) :
    ∃ s, rle.resizeTrailingExtent bits newSize = some s ∧ s.Valid bits ∧
      Run.decode s.runs = (Run.decode rle.runs).take newSize := by
  have htotal : rle.totalLength = Run.total rle.runs := h.total_eq
  have hfits : rle.totalLength < 2 ^ bits := h.fits
  rcases newSize with _ | last
  · exact ⟨⟨[], 0⟩, by rw [resizeTrailingExtent, if_pos rfl], valid_empty bits, by simp⟩
  obtain ⟨l, run, r, q, hruns, hq, hlast, hscan⟩ := scan_of_lt bits last 0 0
    h.length_pos (Nat.zero_le _) (by omega) (by omega)
  have hset : setLength rle.runs l.length (fun _ => sizeType bits (q + 1)) =
      some (l ++ ⟨run.value, q + 1⟩ :: r) := by
    have hrun : run.length ≤ Run.total rle.runs := by
      rw [hruns, Run.total_append, Run.total_cons]
      omega
    rw [hruns, setLength_append, sizeType_eq (n := q + 1) (by push_cast; rfl) (by omega)]
  have herase : erase (l ++ ⟨run.value, q + 1⟩ :: r) (l.length + 1)
      (l ++ ⟨run.value, q + 1⟩ :: r).length = l ++ [⟨run.value, q + 1⟩] := by
    rw [erase, List.drop_length, List.append_nil, List.take_length_add_append]
    rfl
  have hdecode : Run.decode (l ++ [⟨run.value, q + 1⟩]) = (Run.decode rle.runs).take (last + 1) := by
    rw [hruns, ← Run.take_decode hq, hlast, Nat.zero_add, Nat.add_assoc]
  refine ⟨⟨l ++ [⟨run.value, q + 1⟩], last + 1⟩, ?_, ⟨?_, ?_, by dsimp only; omega⟩, hdecode⟩
  · simp only [Nat.zero_add] at hscan
    simp only [resizeTrailingExtent, Nat.succ_ne_zero, if_false, if_pos hlt, Nat.add_sub_cancel,
      hscan, hset, herase, Option.bind_eq_bind, Option.bind_some]
  · intro x hx
    rcases List.mem_append.mp hx with hx | hx
    · exact h.length_pos x (by rw [hruns]; exact List.mem_append_left _ hx)
    · rw [List.mem_singleton.mp hx]
      exact Nat.succ_pos q
  · rw [← Run.length_decode, hdecode, List.length_take, Run.length_decode]
    dsimp only
    omega

theorem resizeTrailingExtent_of_ge (h : rle.Valid bits) {last : T}
    (hlast : last ∈ (Run.decode rle.runs).getLast?) (hge : rle.totalLength ≤ newSize)
    (hnew : newSize < 2 ^ bits) :
    ∃ s, rle.resizeTrailingExtent bits newSize = some s ∧ s.Valid bits ∧
      Run.decode s.runs =
        Run.decode rle.runs ++ List.replicate (newSize - rle.totalLength) last := by
  have htotal : rle.totalLength = Run.total rle.runs := h.total_eq
  obtain ⟨init, run, hruns⟩ : ∃ init run, rle.runs = init ++ [run] := by
    rcases List.eq_nil_or_concat rle.runs with hnil | ⟨init, run, hconcat⟩
    · rw [hnil] at hlast
      cases hlast
    · exact ⟨init, run, by rw [hconcat, List.concat_eq_append]⟩
  have hrun : 0 < run.length := h.length_pos run (by simp [hruns])
  have hvalue : run.value = last := by
    rw [hruns, Run.decode_append, Run.decode_cons, Run.decode_nil, List.append_nil,
      List.getLast?_append_of_ne_nil _ (by simp [hrun.ne'])] at hlast
    rw [List.getLast?_replicate, if_neg hrun.ne'] at hlast
    exact Option.some.inj hlast
  have hsum : Run.total rle.runs = Run.total init + run.length := by
    rw [hruns, Run.total_append, Run.total_cons, Run.total_nil, Nat.add_zero]
  rcases Nat.eq_or_lt_of_le hge with heq | hlt
  · refine ⟨rle, ?_, h, by rw [heq, Nat.sub_self, List.replicate_zero, List.append_nil]⟩
    have hne : newSize ≠ 0 := by omega
    rw [resizeTrailingExtent, if_neg hne, if_neg (by omega), if_neg (by omega), ← heq]
  have hset : setLength rle.runs (rle.runs.length - 1) (fun length =>
      sizeType bits (length + (newSize - rle.totalLength))) =
      some (init ++ [⟨run.value, run.length + (newSize - rle.totalLength)⟩]) := by
    rw [hruns, List.length_append, List.length_singleton, Nat.add_sub_cancel, setLength_append,
      sizeType_eq (n := run.length + (newSize - rle.totalLength)) (by omega) (by omega)]
  refine ⟨⟨init ++ [⟨run.value, run.length + (newSize - rle.totalLength)⟩], newSize⟩, ?_,
    ⟨?_, ?_, hnew⟩, ?_⟩
  · rw [resizeTrailingExtent, if_neg (by omega), if_neg (by omega), if_pos hlt, hset]
    rfl
  · intro x hx
    rcases List.mem_append.mp hx with hx | hx
    · exact h.length_pos x (by rw [hruns]; exact List.mem_append_left _ hx)
    · rw [List.mem_singleton.mp hx]
      exact Nat.add_pos_left hrun _
  · rw [Run.total_append, Run.total_cons, Run.total_nil]
    dsimp only
    omega
  · rw [hruns, Run.decode_append, Run.decode_append, Run.decode_cons, Run.decode_cons,
      Run.decode_nil, List.append_nil, List.append_nil, List.replicate_add, hvalue,
      List.append_assoc]

theorem resizeTrailingExtent_spec (h : rle.Valid bits) {last : T}
    (hlast : last ∈ (Run.decode rle.runs).getLast?) (hnew : newSize < 2 ^ bits) :
    ∃ s, rle.resizeTrailingExtent bits newSize = some s ∧ s.Valid bits ∧
      Run.decode s.runs = (Run.decode rle.runs).take newSize ++
        List.replicate (newSize - rle.totalLength) last := by
  rcases Nat.lt_or_ge newSize rle.totalLength with hlt | hge
  · obtain ⟨s, hs, hvalid, hdecode⟩ := resizeTrailingExtent_of_lt h hlt
    refine ⟨s, hs, hvalid, ?_⟩
    rw [hdecode, Nat.sub_eq_zero_of_le hlt.le, List.replicate_zero, List.append_nil]
  · obtain ⟨s, hs, hvalid, hdecode⟩ := resizeTrailingExtent_of_ge h hlast hge hnew
    refine ⟨s, hs, hvalid, ?_⟩
    rw [hdecode, List.take_of_length_le (by rw [h.length_decode]; exact hge)]

theorem resizeTrailingExtent_of_empty (h : rle.Valid bits) (hempty : Run.decode rle.runs = [])
    (newSize : ℕ) :
    rle.resizeTrailingExtent bits newSize = if newSize = 0 then some ⟨[], 0⟩ else none := by
  have htotal : rle.totalLength = 0 := by rw [← h.length_decode, hempty, List.length_nil]
  have hruns : rle.runs = [] := by
    rcases List.eq_nil_or_concat rle.runs with hnil | ⟨init, run, hconcat⟩
    · exact hnil
    · have hrun : 0 < run.length := h.length_pos run (by simp [hconcat])
      rw [hconcat, List.concat_eq_append, Run.decode_append, Run.decode_cons] at hempty
      simp [hrun.ne'] at hempty
  by_cases hnew : newSize = 0
  · rw [resizeTrailingExtent, if_pos hnew, if_pos hnew, hnew]
  · rw [resizeTrailingExtent, if_neg hnew, if_neg hnew, if_neg (by omega), if_pos (by omega), hruns]
    rfl

end Reads

/-! ### Joining equal runs -/

section Compact

variable [DecidableEq T] {bits : ℕ}

theorem compactRest_eq (bits : ℕ) (done gap rest : List (Run T)) (run stale : Run T) {ref it : ℕ}
    (href : ref = done.length) (hit : it = done.length + gap.length + 2)
    (hfits : Run.total (run :: rest) < 2 ^ bits) :
    compactRest bits rest.length (done ++ run :: stale :: gap ++ rest) ref it =
      some (done ++ Run.merge run rest) := by
  subst href hit
  induction rest generalizing done gap run stale with
  | nil =>
    rw [List.append_nil, List.length_nil, compactRest, erase, List.drop_length, List.append_nil,
      List.take_length_add_append]
    rfl
  | cons next rest ih =>
    rw [Run.total_cons, Run.total_cons] at hfits
    have href : (done ++ run :: stale :: gap ++ next :: rest)[done.length]? = some run := by
      rw [List.append_assoc, List.getElem?_append_right le_rfl, Nat.sub_self]
      rfl
    have hit : (done ++ run :: stale :: gap ++ next :: rest)[done.length + gap.length + 2]? =
        some next := by
      have hlength : (done ++ run :: stale :: gap).length = done.length + gap.length + 2 := by
        simp only [List.length_append, List.length_cons]
        omega
      rw [← hlength, List.getElem?_append_right le_rfl, Nat.sub_self]
      rfl
    rw [List.length_cons, compactRest, href, hit]
    simp only [Option.bind_eq_bind, Option.bind_some]
    by_cases hvalue : run.value = next.value
    · have hset : setLength (done ++ run :: stale :: gap ++ next :: rest) done.length
          (fun length => sizeType bits (length + next.length)) =
          some (done ++ ⟨run.value, run.length + next.length⟩ :: stale :: (gap ++ [next]) ++ rest) := by
        rw [List.append_assoc, List.cons_append, setLength_append,
          sizeType_eq (n := run.length + next.length) (by push_cast; rfl) (by omega)]
        simp
      rw [if_pos hvalue, hset, Option.bind_some, Run.merge, if_pos hvalue]
      have hlength : done.length + gap.length + 2 + 1 = done.length + (gap ++ [next]).length + 2 := by
        rw [List.length_append, List.length_singleton]
        omega
      rw [hlength]
      exact ih done (gap ++ [next]) ⟨run.value, run.length + next.length⟩ stale
        (by rw [Run.total_cons]; dsimp only; omega)
    · rw [if_neg hvalue, Run.merge, if_neg hvalue]
      obtain ⟨stale', gap', hgap⟩ := List.exists_cons_of_ne_nil
        (List.append_ne_nil_of_right_ne_nil gap (List.cons_ne_nil next []))
      have hgapLength : gap'.length = gap.length := by
        have hlength := congrArg List.length hgap
        rw [List.length_append, List.length_singleton, List.length_cons] at hlength
        omega
      have hset : (done ++ run :: stale :: gap ++ next :: rest).set (done.length + 1) next =
          done ++ [run] ++ next :: stale' :: gap' ++ rest := by
        rw [List.append_assoc, List.set_append_right _ _ (by omega), Nat.add_sub_cancel_left]
        simp [← hgap]
      have hlength : done.length + gap.length + 2 + 1 = (done ++ [run]).length + gap'.length + 2 := by
        rw [List.length_append, List.length_singleton, hgapLength]
        omega
      have hlast : done.length + 1 = (done ++ [run]).length := by
        rw [List.length_append, List.length_singleton]
      rw [hset, hlength, hlast, ih (done ++ [run]) gap' next stale' (by rw [Run.total_cons]; omega),
        List.append_assoc]
      rfl

theorem compactFrom_eq (done rest : List (Run T)) (run : Run T) {ref : ℕ} (href : ref = done.length)
    (hfits : Run.total (run :: rest) < 2 ^ bits) :
    compactFrom bits rest.length (done ++ run :: rest) ref = some (done ++ Run.merge run rest) := by
  subst href
  induction rest generalizing done run with
  | nil => rfl
  | cons next rest ih =>
    rw [Run.total_cons, Run.total_cons] at hfits
    have href : (done ++ run :: next :: rest)[done.length]? = some run := by
      rw [List.getElem?_append_right le_rfl, Nat.sub_self]
      rfl
    have hit : (done ++ run :: next :: rest)[done.length + 1]? = some next := by
      rw [List.getElem?_append_right (Nat.le_add_right _ 1), Nat.add_sub_cancel_left]
      rfl
    rw [List.length_cons, compactFrom, href, hit]
    simp only [Option.bind_eq_bind, Option.bind_some]
    by_cases hvalue : run.value = next.value
    · rw [if_pos hvalue, setLength_append, sizeType_eq (n := run.length + next.length)
        (by push_cast; rfl) (by omega), Option.bind_some, Run.merge, if_pos hvalue]
      have hrest := compactRest_eq bits done [] rest ⟨run.value, run.length + next.length⟩
        next rfl rfl (by rw [Run.total_cons]; dsimp only; omega)
      simpa using hrest
    · have hlast : done.length + 1 = (done ++ [run]).length := by
        rw [List.length_append, List.length_singleton]
      have hstep := ih (done ++ [run]) next (by rw [Run.total_cons]; omega)
      rw [if_neg hvalue, Run.merge, if_neg hvalue, hlast]
      simpa using hstep

theorem compact_spec (bits : ℕ) {runs : List (Run T)} (hpos : ∀ run ∈ runs, 0 < run.length)
    (hfits : Run.total runs < 2 ^ bits) :
    ∃ s, compact bits runs = some s ∧ Run.Compact s ∧ Run.decode s = Run.decode runs := by
  cases runs with
  | nil => exact ⟨[], rfl, Run.compact_nil, rfl⟩
  | cons run rest =>
    refine ⟨Run.merge run rest, ?_, Run.compact_merge hpos, Run.decode_merge run rest⟩
    rw [compact, if_neg (List.cons_ne_nil run rest), List.length_cons, Nat.add_sub_cancel]
    exact compactFrom_eq [] rest run rfl hfits

theorem replaceValues_spec {rle : BasicRle T} (h : rle.Valid bits) (oldValue newValue : T) :
    ∃ s, rle.replaceValues bits oldValue newValue = some s ∧ s.Valid bits ∧ Run.Compact s.runs ∧
      Run.decode s.runs =
        (Run.decode rle.runs).map fun v => if v = oldValue then newValue else v := by
  have hmap : (rle.runs.map fun run =>
      if run.value = oldValue then { run with value := newValue } else run) =
      rle.runs.map fun run => ⟨if run.value = oldValue then newValue else run.value, run.length⟩ := by
    refine List.map_congr_left fun run _ => ?_
    split_ifs <;> rfl
  have hdecodeMap := Run.decode_map_value (fun v => if v = oldValue then newValue else v) rle.runs
  have htotal : Run.total (rle.runs.map fun run =>
      (⟨if run.value = oldValue then newValue else run.value, run.length⟩ : Run T)) =
      rle.totalLength := by
    rw [← Run.length_decode, hdecodeMap, List.length_map, h.length_decode]
  have hposMap : ∀ x ∈ rle.runs.map fun run =>
      (⟨if run.value = oldValue then newValue else run.value, run.length⟩ : Run T), 0 < x.length := by
    intro x hx
    obtain ⟨run, hrun, rfl⟩ := List.mem_map.mp hx
    exact h.length_pos run hrun
  obtain ⟨s, hs, hcompact, hdecode⟩ := compact_spec bits hposMap (by rw [htotal]; exact h.fits)
  refine ⟨⟨s, rle.totalLength⟩, ?_, ⟨hcompact.length_pos, ?_, h.fits⟩, hcompact, ?_⟩
  · rw [replaceValues, hmap, hs]
    rfl
  · rw [← Run.length_decode, hdecode, Run.length_decode, htotal]
  · rw [hdecode, hdecodeMap]

end Compact

end BasicRle

end IntelligentTerminal.Buffer
