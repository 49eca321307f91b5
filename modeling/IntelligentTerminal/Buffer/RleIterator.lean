import IntelligentTerminal.Buffer.RleReads

/-!
# Walking a run-length encoded vector

`rle_iterator` is an iterator over the runs and a position in the run under it. `operator+=` walks
whole runs forwards or backwards until what is left to move lies in the run reached, and `operator-`
adds up the runs between two iterators. The displacements are values of the signed difference type
of the container; the length of a run is converted to that type, so that a run longer than it can
hold has no length that the walk could be measured against.

Source: `src/inc/til/rle.h`, lines 78-193.
-/

namespace IntelligentTerminal.Buffer

open IntelligentTerminal (Run)

variable {T : Type}

/-- `details::rle_iterator`: the run `_it` by its index, and `_pos`. -/
structure RleIterator where
  it : ℕ
  pos : ℕ
deriving DecidableEq, Repr

namespace RleIterator

/-- A value of the signed type `difference_type`, of so many bits beside the sign. -/
def differenceType (width : ℕ) (v : ℤ) : ℤ := v.bmod (2 ^ (width + 1))

/-- The result of signed arithmetic, unless it overflows. -/
def signed (width : ℕ) (v : ℤ) : Option ℤ := if differenceType width v = v then some v else none

/-- The loop of `operator+=` for a move forwards, over the runs from `_it` on; `none` is a read
behind the last run, or an overflow. -/
def forward (bits width : ℕ) : List (Run T) → ℕ → ℕ → ℤ → Option RleIterator
  | [], it, pos, move => if move > 0 then none else some ⟨it, pos⟩
  | run :: rest, it, pos, move =>
    if move > 0 then
      let space := differenceType width (BasicRle.sizeType bits (run.length - pos))
      if move < space then
        some ⟨it, BasicRle.sizeType bits (pos + BasicRle.sizeType bits move)⟩
      else do
        let move ← signed width (move - space)
        forward bits width rest (it + 1) 0 move
    else some ⟨it, pos⟩

/-- The loop of `operator+=` for a move backwards; `none` is a step before the first run, or an
overflow. -/
def backward (bits width : ℕ) (runs : List (Run T)) : ℕ → ℕ → ℤ → Option RleIterator
  | it, pos, move =>
    if move > 0 then
      if move ≤ differenceType width pos then
        some ⟨it, BasicRle.sizeType bits (pos - BasicRle.sizeType bits move)⟩
      else match it with
        | 0 => none
        | it + 1 => do
          let space ← signed width (differenceType width pos + 1)
          let move ← signed width (move - space)
          let run ← runs[it]?
          backward bits width runs it (BasicRle.sizeType bits (run.length - 1)) move
    else some ⟨it, pos⟩

/-- `rle_iterator::operator+=`. -/
def advance (bits width : ℕ) (runs : List (Run T)) (i : RleIterator) (move : ℤ) :
    Option RleIterator :=
  if move ≥ 0 then forward bits width (runs.drop i.it) i.it i.pos move
  else do
    let move ← signed width (-move)
    backward bits width runs i.it i.pos move

/-- `rle_iterator::operator-=`. -/
def retreat (bits width : ℕ) (runs : List (Run T)) (i : RleIterator) (offset : ℤ) :
    Option RleIterator := do
  let move ← signed width (-offset)
  advance bits width runs i move

/-- `rle_iterator::operator<`. -/
def lt (left right : RleIterator) : Bool :=
  left.it < right.it || (left.it == right.it && left.pos < right.pos)

/-- `rle_iterator::operator-` of two iterators. The unsigned lengths are added up modulo the
difference type. -/
def distance (width : ℕ) (runs : List (Run T)) (left right : RleIterator) : Option ℤ :=
  let negative := lt left right
  let lower := if negative then left else right
  let upper := if negative then right else left
  let distance := ((runs.take upper.it).drop lower.it).foldl
    (fun distance run => differenceType width (distance + run.length)) 0
  let distance := differenceType width (distance - lower.pos)
  let distance := differenceType width (distance + upper.pos)
  if negative then signed width (-distance) else some distance

/-- `rle_iterator::operator*`; `none` is a read behind the last run. -/
def deref (runs : List (Run T)) (i : RleIterator) : Option T := runs[i.it]?.map Run.value

/-- The index of an iterator in the encoded list. -/
def index (runs : List (Run T)) (i : RleIterator) : ℕ := Run.total (runs.take i.it) + i.pos

/-- The iterator is inside of a run, or the end. -/
def InRange (runs : List (Run T)) (i : RleIterator) : Prop :=
  (∃ run, runs[i.it]? = some run ∧ i.pos < run.length) ∨ i.it = runs.length ∧ i.pos = 0

section Arithmetic

variable {width : ℕ} {v : ℤ}

theorem differenceType_eq (hlower : -2 ^ width ≤ v) (hupper : v < 2 ^ width) :
    differenceType width v = v := by
  have hpow : ((2 ^ (width + 1) : ℕ) : ℤ) = 2 ^ width * 2 := by
    push_cast
    exact pow_succ 2 width
  refine Int.bmod_eq_of_le_mul_two ?_ ?_ <;> rw [hpow] <;> omega

theorem differenceType_natCast {n : ℕ} (h : n < 2 ^ width) : differenceType width n = n :=
  differenceType_eq ((neg_nonpos.mpr (by positivity)).trans (Int.natCast_nonneg n)) (by exact_mod_cast h)

theorem signed_eq (hlower : -2 ^ width ≤ v) (hupper : v < 2 ^ width) : signed width v = some v := by
  rw [signed, if_pos (differenceType_eq hlower hupper)]

theorem differenceType_add (a b : ℤ) :
    differenceType width (differenceType width a + b) = differenceType width (a + b) :=
  Int.bmod_add_bmod

theorem foldl_differenceType (runs : List (Run T)) (a : ℤ) :
    differenceType width (runs.foldl
        (fun distance run => differenceType width (distance + run.length)) a) =
      differenceType width (a + Run.total runs) := by
  induction runs generalizing a with
  | nil => simp
  | cons run runs ih =>
    rw [List.foldl_cons, ih, differenceType_add, Run.total_cons]
    push_cast
    rw [Int.add_assoc]

end Arithmetic

/-! ### The index of an iterator -/

section Index

variable {l r runs : List (Run T)} {i j : RleIterator}

theorem index_append (l r : List (Run T)) (i : RleIterator) :
    index (l ++ r) ⟨l.length + i.it, i.pos⟩ = Run.total l + index r i := by
  rw [index, index, List.take_length_add_append, Run.total_append, Nat.add_assoc]

theorem inRange_append (h : InRange r i) : InRange (l ++ r) ⟨l.length + i.it, i.pos⟩ := by
  rcases h with ⟨run, hrun, hpos⟩ | ⟨hit, hpos⟩
  · refine .inl ⟨run, ?_, hpos⟩
    rw [List.getElem?_append_right (Nat.le_add_right _ _), Nat.add_sub_cancel_left]
    exact hrun
  · exact .inr ⟨by rw [List.length_append, hit], hpos⟩

theorem InRange.it_le (h : InRange runs i) : i.it ≤ runs.length := by
  rcases h with ⟨run, hrun, -⟩ | ⟨hit, -⟩
  · exact (List.getElem?_eq_some_iff.mp hrun).1.le
  · exact hit.le

theorem inRange_zero (hpos : ∀ run ∈ runs, 0 < run.length) : InRange runs ⟨0, 0⟩ := by
  cases runs with
  | nil => exact .inr ⟨rfl, rfl⟩
  | cons run runs => exact .inl ⟨run, rfl, hpos run List.mem_cons_self⟩

theorem inRange_cons {run : Run T} {pos : ℕ} :
    InRange (run :: runs) ⟨0, pos⟩ ↔ pos < run.length := by
  simp [InRange]

theorem InRange.split (h : InRange runs i) (hit : i.it < runs.length) :
    ∃ l run r, runs = l ++ run :: r ∧ l.length = i.it ∧ i.pos < run.length := by
  rcases h with ⟨run, hrun, hpos⟩ | ⟨hend, -⟩
  · refine ⟨runs.take i.it, run, runs.drop (i.it + 1), ?_, List.length_take_of_le hit.le, hpos⟩
    rw [← (List.getElem?_eq_some_iff.mp hrun).2, List.cons_getElem_drop_succ, List.take_append_drop]
  · omega

theorem InRange.index_lt_iff (h : InRange runs i) :
    index runs i ≤ Run.total runs ∧ (index runs i < Run.total runs ↔ i.it < runs.length) := by
  rcases Nat.lt_or_ge i.it runs.length with hit | hit
  · obtain ⟨l, run, r, rfl, hl, hpos⟩ := h.split hit
    rw [index, ← hl, List.take_left, Run.total_append, Run.total_cons]
    simp
    omega
  · rcases h with ⟨run, hrun, -⟩ | ⟨hend, hpos⟩
    · rw [List.getElem?_eq_none hit] at hrun
      cases hrun
    · rw [index, hend, List.take_length, hpos]
      simp

theorem InRange.deref_eq (h : InRange runs i) : deref runs i = (Run.decode runs)[index runs i]? := by
  rcases Nat.lt_or_ge i.it runs.length with hit | hit
  · obtain ⟨l, run, r, rfl, hl, hpos⟩ := h.split hit
    rw [index, deref, ← hl, List.take_left, Run.getElem?_decode hpos,
      List.getElem?_append_right le_rfl, Nat.sub_self]
    rfl
  · have hindex := h.index_lt_iff
    rw [deref, List.getElem?_eq_none hit, List.getElem?_eq_none]
    · rfl
    · rw [Run.length_decode]
      omega

end Index

/-! ### Moving -/

section Moves

variable {bits width : ℕ} {runs : List (Run T)} {i : RleIterator} {left right : RleIterator}

theorem forward_spec (bits width it : ℕ) {pos : ℕ} (move : ℕ)
    (hpos : ∀ run ∈ runs, 0 < run.length ∧ run.length < 2 ^ width)
    (hfits : Run.total runs < 2 ^ bits) (hin : InRange runs ⟨0, pos⟩) (hmove : move < 2 ^ width)
    (hle : pos + move ≤ Run.total runs) :
    ∃ j, forward bits width runs it pos move = some ⟨it + j.it, j.pos⟩ ∧ InRange runs j ∧
      index runs j = pos + move := by
  induction runs generalizing it pos move with
  | nil =>
    rw [Run.total_nil] at hle
    obtain ⟨rfl, rfl⟩ : pos = 0 ∧ move = 0 := by omega
    exact ⟨⟨0, 0⟩, rfl, hin, rfl⟩
  | cons run rest ih =>
    obtain ⟨hrun, hrunWidth⟩ := hpos run List.mem_cons_self
    have hinside : pos < run.length := inRange_cons.mp hin
    rw [Run.total_cons] at hfits hle
    by_cases hstop : (move : ℤ) > 0
    · have hspace : differenceType width (BasicRle.sizeType bits (run.length - pos)) =
          ((run.length - pos : ℕ) : ℤ) := by
        rw [BasicRle.sizeType_eq (n := run.length - pos) (by omega) (by omega),
          differenceType_natCast (by omega)]
      rw [forward, if_pos hstop]
      simp only [hspace]
      by_cases hlt : move < run.length - pos
      · have hnarrow : BasicRle.sizeType bits (pos + BasicRle.sizeType bits move) = pos + move := by
          rw [BasicRle.sizeType_eq (n := move) rfl (by omega)]
          exact BasicRle.sizeType_eq (by push_cast; rfl) (by omega)
        refine ⟨⟨0, pos + move⟩, ?_, inRange_cons.mpr (by omega), ?_⟩
        · rw [if_pos (by exact_mod_cast hlt), hnarrow]
          rfl
        · rw [index, List.take_zero, Run.total_nil, Nat.zero_add]
      · have hleft : (move : ℤ) - ((run.length - pos : ℕ) : ℤ) =
            ((move - (run.length - pos) : ℕ) : ℤ) := by omega
        have hsigned : signed width ((move - (run.length - pos) : ℕ) : ℤ) =
            some ((move - (run.length - pos) : ℕ) : ℤ) := by
          rw [signed, if_pos (differenceType_natCast (by omega))]
        have hposRest : ∀ run ∈ rest, 0 < run.length ∧ run.length < 2 ^ width := fun x hx =>
          hpos x (List.mem_cons_of_mem _ hx)
        obtain ⟨j, hj, hjin, hjindex⟩ := ih (it + 1) _ hposRest (by omega)
          (inRange_zero fun x hx => (hposRest x hx).1) (by omega)
          (by omega : 0 + (move - (run.length - pos)) ≤ Run.total rest)
        refine ⟨⟨1 + j.it, j.pos⟩, ?_, inRange_append (l := [run]) hjin, ?_⟩
        · rw [if_neg (by exact_mod_cast hlt), hleft, hsigned]
          simp only [Option.bind_eq_bind, Option.bind_some]
          rw [hj, Nat.add_assoc]
        · have hindex := index_append [run] rest j
          rw [List.length_singleton, Run.total_cons, Run.total_nil, Nat.add_zero] at hindex
          rw [List.singleton_append] at hindex
          omega
    · have hzero : move = 0 := by omega
      refine ⟨⟨0, pos⟩, ?_, hin, ?_⟩
      · rw [forward, if_neg hstop]
        rfl
      · rw [index, List.take_zero, Run.total_nil, hzero, Nat.add_comm]

theorem InRange.pos_lt (hpos : ∀ run ∈ runs, 0 < run.length ∧ run.length < 2 ^ width)
    (hfits : Run.total runs < 2 ^ bits) (h : InRange runs i) :
    i.pos < 2 ^ width ∧ i.pos < 2 ^ bits := by
  rcases Nat.lt_or_ge i.it runs.length with hit | hit
  · obtain ⟨l, run, r, rfl, -, hin⟩ := h.split hit
    have hrun := (hpos run (by simp)).2
    rw [Run.total_append, Run.total_cons] at hfits
    omega
  · rcases h with ⟨run, hrun, -⟩ | ⟨-, hzero⟩
    · rw [List.getElem?_eq_none hit] at hrun
      cases hrun
    · rw [hzero]
      exact ⟨Nat.two_pow_pos width, Nat.two_pow_pos bits⟩

theorem backward_inside {it pos move : ℕ}
    (hpos : ∀ run ∈ runs, 0 < run.length ∧ run.length < 2 ^ width)
    (hfits : Run.total runs < 2 ^ bits) (hin : InRange runs ⟨it, pos⟩) (hle : move ≤ pos) :
    backward bits width runs it pos move = some ⟨it, pos - move⟩ ∧
      InRange runs ⟨it, pos - move⟩ ∧ index runs ⟨it, pos - move⟩ + move = index runs ⟨it, pos⟩ := by
  obtain ⟨hposWidth, hposBits⟩ : pos < 2 ^ width ∧ pos < 2 ^ bits := hin.pos_lt hpos hfits
  have hspace : differenceType width pos = pos := differenceType_natCast hposWidth
  have hnarrow : BasicRle.sizeType bits (pos - BasicRle.sizeType bits move) = pos - move := by
    rw [BasicRle.sizeType_eq (n := move) rfl (by omega)]
    exact BasicRle.sizeType_eq (by omega) (by omega)
  refine ⟨?_, ?_, by simp only [index]; omega⟩
  · unfold backward
    by_cases hstop : (move : ℤ) > 0
    · rw [if_pos hstop, hspace, if_pos (by exact_mod_cast hle), hnarrow]
    · have hzero : move = 0 := by omega
      rw [if_neg hstop, hzero, Nat.sub_zero]
  · rcases hin with ⟨run, hrun, hlt⟩ | ⟨hend, hzero⟩
    · exact .inl ⟨run, hrun, (Nat.sub_le pos move).trans_lt hlt⟩
    · exact .inr ⟨hend, by dsimp only at hzero ⊢; omega⟩

theorem InRange.previous {it : ℕ} (pos : ℕ) {run : Run T} (hrun : runs[it]? = some run)
    (hlength : 0 < run.length) :
    InRange runs ⟨it, run.length - 1⟩ ∧
      index runs ⟨it, run.length - 1⟩ + (pos + 1) = index runs ⟨it + 1, pos⟩ := by
  obtain ⟨hit, hget⟩ := List.getElem?_eq_some_iff.mp hrun
  refine ⟨.inl ⟨run, hrun, Nat.sub_one_lt hlength.ne'⟩, ?_⟩
  have htake : runs.take (it + 1) = runs.take it ++ [run] := by
    rw [List.take_add_one, hrun]
    rfl
  simp only [index, htake, Run.total_append, Run.total_cons, Run.total_nil]
  omega

theorem backward_spec (bits width it pos move : ℕ)
    (hpos : ∀ run ∈ runs, 0 < run.length ∧ run.length < 2 ^ width)
    (hfits : Run.total runs < 2 ^ bits) (hin : InRange runs ⟨it, pos⟩) (hmove : move < 2 ^ width)
    (hle : move ≤ index runs ⟨it, pos⟩) :
    ∃ j, backward bits width runs it pos move = some j ∧ InRange runs j ∧
      index runs j + move = index runs ⟨it, pos⟩ := by
  induction it generalizing pos move with
  | zero =>
    rw [index, List.take_zero, Run.total_nil, Nat.zero_add] at hle
    exact ⟨⟨0, pos - move⟩, backward_inside hpos hfits hin hle⟩
  | succ it ih =>
    by_cases hstay : move ≤ pos
    · exact ⟨⟨it + 1, pos - move⟩, backward_inside hpos hfits hin hstay⟩
    have hposWidth : pos < 2 ^ width := (hin.pos_lt hpos hfits).1
    have hit : it < runs.length := Nat.lt_of_succ_le hin.it_le
    have hrun : runs[it]? = some runs[it] := List.getElem?_eq_getElem hit
    obtain ⟨hlength, hlengthWidth⟩ := hpos runs[it] (List.getElem_mem hit)
    have hlengthBits : runs[it].length < 2 ^ bits := by
      obtain ⟨l, run, r, hruns, hl, hlt⟩ :=
        (InRange.previous pos hrun hlength).1.split hit
      rw [hruns, Run.total_append, Run.total_cons] at hfits
      dsimp only at hlt
      omega
    obtain ⟨hprevious, hindex⟩ := InRange.previous pos hrun hlength
    have hspace : differenceType width pos = pos := differenceType_natCast hposWidth
    have hstep : signed width ((pos : ℤ) + 1) = some ((pos : ℤ) + 1) := by
      rw [signed, ← Int.natCast_succ, if_pos (differenceType_natCast (by omega))]
    have hleft : (move : ℤ) - (pos + 1) = ((move - (pos + 1) : ℕ) : ℤ) := by omega
    have hmoveLeft : signed width ((move - (pos + 1) : ℕ) : ℤ) =
        some ((move - (pos + 1) : ℕ) : ℤ) := by
      rw [signed, if_pos (differenceType_natCast (by omega))]
    have hlast : BasicRle.sizeType bits (runs[it].length - 1) = runs[it].length - 1 :=
      BasicRle.sizeType_eq (by omega) (by omega)
    obtain ⟨j, hj, hjin, hjindex⟩ := ih _ _ hprevious (by omega : move - (pos + 1) < 2 ^ width)
      (by omega)
    refine ⟨j, ?_, hjin, by omega⟩
    unfold backward
    rw [if_pos (by omega), hspace, if_neg (by exact_mod_cast hstay)]
    simp only [hstep, hleft, hmoveLeft, hrun, hlast, Option.bind_eq_bind, Option.bind_some]
    exact hj

theorem advance_spec (hpos : ∀ run ∈ runs, 0 < run.length ∧ run.length < 2 ^ width)
    (hfits : Run.total runs < 2 ^ bits) (hin : InRange runs i) {move : ℤ}
    (hlower : -2 ^ width < move) (hupper : move < 2 ^ width) (hge : 0 ≤ index runs i + move)
    (hle : index runs i + move ≤ Run.total runs) :
    ∃ j, advance bits width runs i move = some j ∧ InRange runs j ∧
      (index runs j : ℤ) = index runs i + move := by
  by_cases hforward : move ≥ 0
  · obtain ⟨n, rfl⟩ := Int.eq_ofNat_of_zero_le hforward
    have hn : n < 2 ^ width := by exact_mod_cast hupper
    have hsplit : runs.take i.it ++ runs.drop i.it = runs := List.take_append_drop i.it runs
    have htake : (runs.take i.it).length = i.it := List.length_take_of_le hin.it_le
    have hsum : Run.total runs = Run.total (runs.take i.it) + Run.total (runs.drop i.it) := by
      rw [← Run.total_append, hsplit]
    have hinRest : InRange (runs.drop i.it) ⟨0, i.pos⟩ := by
      rcases hin with ⟨run, hrun, hlt⟩ | ⟨hend, hzero⟩
      · exact .inl ⟨run, by rw [List.getElem?_drop, Nat.add_zero, hrun], hlt⟩
      · exact .inr ⟨by rw [hend, List.drop_length]; rfl, hzero⟩
    obtain ⟨j, hj, hjin, hjindex⟩ := forward_spec bits width i.it n
      (fun run hrun => hpos run (List.mem_of_mem_drop hrun)) (by omega) hinRest hn
      (by rw [index] at hle; omega)
    refine ⟨⟨i.it + j.it, j.pos⟩, ?_, ?_, ?_⟩
    · rw [advance, if_pos hforward]
      exact hj
    · have hlift := inRange_append (l := runs.take i.it) hjin
      rwa [hsplit, htake] at hlift
    · have hlift := index_append (runs.take i.it) (runs.drop i.it) j
      rw [hsplit, htake] at hlift
      rw [hlift, hjindex, index]
      push_cast
      omega
  · obtain ⟨n, hn⟩ := Int.eq_ofNat_of_zero_le (by omega : 0 ≤ -move)
    have hnWidth : n < 2 ^ width := by
      zify
      omega
    obtain ⟨j, hj, hjin, hjindex⟩ := backward_spec bits width i.it i.pos n
      hpos hfits hin hnWidth (by change n ≤ index runs i; omega)
    refine ⟨j, ?_, hjin, by change index runs j + n = index runs i at hjindex; omega⟩
    have hsigned : signed width (n : ℤ) = some (n : ℤ) := by
      rw [signed, if_pos (differenceType_natCast hnWidth)]
    rw [advance, if_neg hforward, hn, hsigned]
    exact hj

theorem retreat_spec (hpos : ∀ run ∈ runs, 0 < run.length ∧ run.length < 2 ^ width)
    (hfits : Run.total runs < 2 ^ bits) (hin : InRange runs i) {offset : ℤ}
    (hlower : -2 ^ width < offset) (hupper : offset < 2 ^ width) (hge : 0 ≤ index runs i - offset)
    (hle : index runs i - offset ≤ Run.total runs) :
    ∃ j, retreat bits width runs i offset = some j ∧ InRange runs j ∧
      (index runs j : ℤ) = index runs i - offset := by
  have hsigned : signed width (-offset) = some (-offset) := signed_eq (by omega) (by omega)
  rw [retreat, hsigned]
  exact advance_spec hpos hfits hin (by omega) (by omega) (by omega) (by omega)

theorem lt_iff :
    lt left right = true ↔ left.it < right.it ∨ left.it = right.it ∧ left.pos < right.pos := by
  simp [lt]

theorem distance_magnitude {lower upper : RleIterator} (hle : lower.it ≤ upper.it) :
    differenceType width (differenceType width (((runs.take upper.it).drop lower.it).foldl
        (fun distance run => differenceType width (distance + run.length)) 0 - lower.pos) +
      upper.pos) = differenceType width ((index runs upper : ℤ) - index runs lower) := by
  have hbetween : Run.total (runs.take upper.it) =
      Run.total (runs.take lower.it) + Run.total ((runs.take upper.it).drop lower.it) := by
    have hsplit := List.take_append_drop lower.it (runs.take upper.it)
    rw [List.take_take, Nat.min_eq_left hle] at hsplit
    rw [← Run.total_append, hsplit]
  rw [differenceType_add, sub_add_eq_add_sub, add_sub_assoc, ← differenceType_add,
    foldl_differenceType, differenceType_add]
  congr 1
  rw [index, index, hbetween]
  push_cast
  ring

theorem distance_eq
    (hlower : -2 ^ width < (index runs left : ℤ) - index runs right)
    (hupper : (index runs left : ℤ) - index runs right < 2 ^ width) :
    distance width runs left right = some ((index runs left : ℤ) - index runs right) := by
  unfold distance
  by_cases hlt : lt left right = true
  · have hle : left.it ≤ right.it := by
      rcases lt_iff.mp hlt with h | h <;> omega
    simp only [hlt, if_true]
    rw [distance_magnitude hle, differenceType_eq (by omega) (by omega), neg_sub]
    exact signed_eq hlower.le hupper
  · have hle : right.it ≤ left.it := by
      have hnot := mt lt_iff.mpr hlt
      omega
    simp only [hlt, if_false, Bool.false_eq_true]
    rw [distance_magnitude hle, differenceType_eq hlower.le hupper]

end Moves

end RleIterator

namespace BasicRle

open RleIterator

variable {bits width : ℕ} {rle : BasicRle T}

/-- The reads and resizes of a vector are those of the list it encodes. -/
structure ReadsDecoded [DecidableEq T] (bits : ℕ) (rle : BasicRle T) : Prop where
  at_eq : ∀ position, rle.at_ bits position = (Run.decode rle.runs)[position]?
  slice : ∀ startIndex endIndex, ∃ s, rle.slice bits startIndex endIndex = some s ∧ s.Valid bits ∧
    Run.decode s.runs = ((Run.decode rle.runs).take (min endIndex rle.totalLength)).drop
      (min startIndex rle.totalLength)
  resize : ∀ newSize < 2 ^ bits, ∀ last ∈ (Run.decode rle.runs).getLast?,
    ∃ s, rle.resizeTrailingExtent bits newSize = some s ∧ s.Valid bits ∧
      Run.decode s.runs = (Run.decode rle.runs).take newSize ++
        List.replicate (newSize - rle.totalLength) last
  resize_empty : Run.decode rle.runs = [] → ∀ newSize,
    rle.resizeTrailingExtent bits newSize = if newSize = 0 then some ⟨[], 0⟩ else none
  replaceValues : ∀ oldValue newValue,
    ∃ s, rle.replaceValues bits oldValue newValue = some s ∧ s.Valid bits ∧ Run.Compact s.runs ∧
      Run.decode s.runs =
        (Run.decode rle.runs).map fun v => if v = oldValue then newValue else v

/-- The arithmetic of the iterators of a vector is that of the indices of the list it encodes, for
displacements that have a negative in the difference type. -/
structure IteratorsDecoded (bits width : ℕ) (rle : BasicRle T) : Prop where
  begin_ : InRange rle.runs ⟨0, 0⟩ ∧ index rle.runs ⟨0, 0⟩ = 0
  end_ : InRange rle.runs ⟨rle.runs.length, 0⟩ ∧
    index rle.runs ⟨rle.runs.length, 0⟩ = rle.totalLength
  deref : ∀ i, InRange rle.runs i → index rle.runs i ≤ rle.totalLength ∧
    RleIterator.deref rle.runs i = (Run.decode rle.runs)[index rle.runs i]?
  advance : ∀ i (move : ℤ), InRange rle.runs i → -2 ^ width < move → move < 2 ^ width →
    0 ≤ index rle.runs i + move → index rle.runs i + move ≤ rle.totalLength →
    ∃ j, RleIterator.advance bits width rle.runs i move = some j ∧ InRange rle.runs j ∧
      (index rle.runs j : ℤ) = index rle.runs i + move ∧
      RleIterator.distance width rle.runs j i = some move
  retreat : ∀ i (offset : ℤ), InRange rle.runs i → -2 ^ width < offset → offset < 2 ^ width →
    0 ≤ index rle.runs i - offset → index rle.runs i - offset ≤ rle.totalLength →
    ∃ j, RleIterator.retreat bits width rle.runs i offset = some j ∧ InRange rle.runs j ∧
      (index rle.runs j : ℤ) = index rle.runs i - offset ∧
      RleIterator.distance width rle.runs i j = some offset
  distance : ∀ i j, InRange rle.runs i → InRange rle.runs j →
    -2 ^ width < (index rle.runs i : ℤ) - index rle.runs j →
    (index rle.runs i : ℤ) - index rle.runs j < 2 ^ width →
    RleIterator.distance width rle.runs i j =
      some ((index rle.runs i : ℤ) - index rle.runs j)

theorem Valid.readsDecoded [DecidableEq T] (h : rle.Valid bits) : rle.ReadsDecoded bits where
  at_eq := at_eq h
  slice := slice_spec h
  resize _ hnew _ hlast := resizeTrailingExtent_spec h hlast hnew
  resize_empty := resizeTrailingExtent_of_empty h
  replaceValues := replaceValues_spec h

theorem Valid.iteratorsDecoded (h : rle.Valid bits) (hwidth : ∀ run ∈ rle.runs, run.length < 2 ^ width) :
    rle.IteratorsDecoded bits width := by
  have hpos : ∀ run ∈ rle.runs, 0 < run.length ∧ run.length < 2 ^ width := fun run hrun =>
    ⟨h.length_pos run hrun, hwidth run hrun⟩
  have hfits : Run.total rle.runs < 2 ^ bits := by
    rw [← h.total_eq]
    exact h.fits
  refine ⟨⟨inRange_zero h.length_pos, ?_⟩, ⟨.inr ⟨rfl, rfl⟩, ?_⟩, ?_, ?_, ?_, ?_⟩
  · rw [index, List.take_zero, Run.total_nil, Nat.zero_add]
  · rw [index, List.take_length, h.total_eq, Nat.add_zero]
  · intro i hi
    rw [h.total_eq]
    exact ⟨hi.index_lt_iff.1, hi.deref_eq⟩
  · intro i move hi hlower hupper hge hle
    rw [h.total_eq] at hle
    obtain ⟨j, hj, hjin, hjindex⟩ := advance_spec hpos hfits hi hlower hupper hge hle
    have hdiff : (index rle.runs j : ℤ) - index rle.runs i = move := by omega
    refine ⟨j, hj, hjin, hjindex, ?_⟩
    rw [distance_eq (by rwa [hdiff]) (by rwa [hdiff]), hdiff]
  · intro i offset hi hlower hupper hge hle
    rw [h.total_eq] at hle
    obtain ⟨j, hj, hjin, hjindex⟩ := retreat_spec hpos hfits hi hlower hupper hge hle
    have hdiff : (index rle.runs i : ℤ) - index rle.runs j = offset := by omega
    refine ⟨j, hj, hjin, hjindex, ?_⟩
    rw [distance_eq (by rwa [hdiff]) (by rwa [hdiff]), hdiff]
  · intro i j _ _ hlower hupper
    exact distance_eq hlower hupper

/-- The reads of every vector are those of the list it encodes, and the arithmetic of its iterators
is too if the difference type can hold the length of each run. -/
theorem reads_decoded [DecidableEq T] (bits width : ℕ) (rle : BasicRle T) (h : rle.Valid bits) :
    rle.ReadsDecoded bits ∧
      ((∀ run ∈ rle.runs, run.length < 2 ^ width) → rle.IteratorsDecoded bits width) :=
  ⟨h.readsDecoded, h.iteratorsDecoded⟩

/-- Two runs with a 16 bit length, and a difference type of 64 bits. -/
theorem reads_decoded_short :
    BasicRle.ReadsDecoded 16 (⟨[⟨'a', 3⟩, ⟨'b', 2⟩], 5⟩ : BasicRle Char) ∧
      BasicRle.IteratorsDecoded 16 63 (⟨[⟨'a', 3⟩, ⟨'b', 2⟩], 5⟩ : BasicRle Char) := by
  obtain ⟨hreads, hiterators⟩ := reads_decoded 16 63 (⟨[⟨'a', 3⟩, ⟨'b', 2⟩], 5⟩ : BasicRle Char)
    ⟨by simp, by simp, by simp⟩
  exact ⟨hreads, hiterators (by simp)⟩

/-- A run that is longer than the difference type can hold: the step from its first element to its
second leaves the runs. -/
theorem iterator_longRun :
    BasicRle.Valid 64 (⟨[⟨'a', 2 ^ 64 - 1⟩], 2 ^ 64 - 1⟩ : BasicRle Char) ∧
      ¬BasicRle.IteratorsDecoded 64 63 (⟨[⟨'a', 2 ^ 64 - 1⟩], 2 ^ 64 - 1⟩ : BasicRle Char) := by
  refine ⟨⟨by simp, by simp, by simp⟩, fun h => ?_⟩
  obtain ⟨j, hj, -⟩ := h.advance ⟨0, 0⟩ 1 h.begin_.1 (by norm_num) (by norm_num)
    (by rw [h.begin_.2]; norm_num) (by rw [h.begin_.2]; norm_num)
  have hnone : RleIterator.advance 64 63 [(⟨'a', 2 ^ 64 - 1⟩ : Run Char)] ⟨0, 0⟩ 1 = none := by
    decide
  rw [hnone] at hj
  cases hj

end BasicRle

end IntelligentTerminal.Buffer
