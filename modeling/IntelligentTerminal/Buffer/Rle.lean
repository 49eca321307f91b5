import IntelligentTerminal.Buffer.Attributes
import IntelligentTerminal.Data.ListSegment
import IntelligentTerminal.Data.RunLength

/-!
# Replacing a range of a run-length encoded vector

`til::basic_rle::replace` cuts the range out of the runs, puts the replacement in and joins what
has become equal, all in place: it plans which runs are kept, which are overwritten and which have
to be inserted before it changes any of them. An iterator is an index; one that is dereferenced
outside of the runs makes the result `none`. All lengths are values of the size type, which wraps.

Source: `src/inc/til/rle.h`, lines 457-492 and 619-1022.
-/

namespace IntelligentTerminal.Buffer

open IntelligentTerminal (Run)

variable {T : Type}

/-- `til::basic_rle`. -/
structure BasicRle (T : Type) where
  runs : List (Run T)
  totalLength : ℕ

namespace BasicRle

/-- A value of the unsigned type `S`, of so many bits. -/
def sizeType (bits : ℕ) (v : ℤ) : ℕ := (v % 2 ^ bits).toNat

/-- `rle_scanner::scan` on the runs from `it` on: the iterator, the position in its run and the
total before it. -/
def scan (bits index : ℕ) : List (Run T) → ℕ → ℕ → ℕ × ℕ × ℕ
  | [], it, total => (it, 0, total)
  | run :: rest, it, total =>
    let newTotal := sizeType bits (total + run.length)
    if newTotal > index then (it, sizeType bits (index - total), total)
    else scan bits index rest (it + 1) newTotal

def previous (begin_ beginPos : ℕ) : Option ℕ :=
  if beginPos ≠ 0 then some begin_ else if begin_ = 0 then none else some (begin_ - 1)

def setLength (runs : List (Run T)) (it : ℕ) (f : ℕ → ℕ) : Option (List (Run T)) :=
  if it < runs.length then some (runs.modify it fun run => { run with length := f run.length })
  else none

/-- `container::erase`. -/
def erase (runs : List (Run T)) (first last : ℕ) : List (Run T) := runs.take first ++ runs.drop last

/-- `container::insert`. -/
def insert (runs : List (Run T)) (it : ℕ) (new : List (Run T)) : List (Run T) :=
  runs.take it ++ new ++ runs.drop it

/-- The branch of `_replace_unchecked` for an empty replacement: it joins the runs at the two ends
of the range. -/
def joinRemoved [DecidableEq T] (bits : ℕ) (runs : List (Run T)) (totalLength startIndex endIndex : ℕ)
    (begin_ beginPos end_ endPos : ℕ) : Option (List (Run T) × ℕ × ℕ × ℕ) :=
  if startIndex ≠ 0 ∧ endIndex ≠ totalLength then do
    let it ← previous begin_ beginPos
    let prev ← runs[it]?
    let last ← runs[end_]?
    if prev.value = last.value then
      let kept := if beginPos ≠ 0 then beginPos else prev.length
      let runs ← setLength runs end_ fun length => sizeType bits (length - (endPos - kept))
      some (runs, it, 0, 0)
    else some (runs, begin_, beginPos, endPos)
  else some (runs, begin_, beginPos, endPos)

/-- `[Step3]` for the run at the start, which keeps what is before the range: the runs, and the
iterator to the first one to be replaced. -/
def shortenFront (runs : List (Run T)) (begin_ beginPos : ℕ) : Option (List (Run T) × ℕ) :=
  if beginPos ≠ 0 then do
    let runs ← setLength runs begin_ fun _ => beginPos
    some (runs, begin_ + 1)
  else some (runs, begin_)

/-- `[Step3]` for the run at the end, which keeps what is after the range. -/
def shortenBack (bits : ℕ) (runs : List (Run T)) (end_ endPos : ℕ) : Option (List (Run T)) :=
  if endPos ≠ 0 then setLength runs end_ fun length => sizeType bits (length - endPos)
  else some runs

/-- `[Step1]` for the predecessor: the iterator, the position and `begin_additional_length`. -/
def joinFront [DecidableEq T] (runs : List (Run T)) (startIndex begin_ beginPos : ℕ) (front : Run T) :
    Option (ℕ × ℕ × ℕ) :=
  if startIndex ≠ 0 then do
    let it ← previous begin_ beginPos
    let prev ← runs[it]?
    if prev.value = front.value then
      some (it, 0, if beginPos ≠ 0 then beginPos else prev.length)
    else some (begin_, beginPos, 0)
  else some (begin_, beginPos, 0)

/-- `[Step1]` for the successor: the iterator, the position and `end_additional_length`. -/
def joinBack [DecidableEq T] (bits : ℕ) (runs : List (Run T)) (totalLength endIndex end_ endPos : ℕ)
    (back : Run T) : Option (ℕ × ℕ × ℕ) :=
  if endIndex ≠ totalLength then do
    let run ← runs[end_]?
    if run.value = back.value then some (end_ + 1, 0, sizeType bits (run.length - endPos))
    else some (end_, endPos, 0)
  else some (end_, endPos, 0)

/-- `[Step2]`: `mid_insertion_trailer`, and `end_pos`. -/
def splitMiddle (bits : ℕ) (runs : List (Run T)) (begin_ beginPos end_ endPos : ℕ) :
    Option (Option (Run T) × ℕ) :=
  if begin_ = end_ ∧ beginPos ≠ 0 then do
    let run ← runs[begin_]?
    some (some ⟨run.value, sizeType bits (run.length - endPos)⟩, 0)
  else some (none, endPos)

def requiredSpace (replacements : List (Run T)) (trailer : Option (Run T)) : ℕ :=
  replacements.length + if trailer.isSome then 1 else 0

/-- `[Step4]` to `[Step6.2]`: the replacements are copied over the range, and what is too much is
erased or what is too little inserted. -/
def store [Inhabited T] (runs : List (Run T)) (begin_ end_ : ℕ) (replacements : List (Run T))
    (trailer : Option (Run T)) : List (Run T) :=
  let availableSpace := if begin_ < end_ then end_ - begin_ else 0
  let directCopy := min availableSpace replacements.length
  let runs := runs.overwrite begin_ (replacements.take directCopy)
  let copied := begin_ + directCopy
  if availableSpace ≥ requiredSpace replacements trailer then erase runs copied end_
  else match trailer with
    | some trailer =>
      let space := requiredSpace replacements (some trailer) - availableSpace
      let runs := insert runs copied (List.replicate space default)
      let runs := runs.overwrite begin_ (replacements.drop directCopy)
      runs.set (begin_ + (replacements.drop directCopy).length) trailer
    | none => insert runs copied (replacements.drop directCopy)

/-- `[Step7]`: a run gets an additional length. -/
def addLength (bits : ℕ) (runs : List (Run T)) (it additional : ℕ) : Option (List (Run T)) :=
  if additional ≠ 0 then setLength runs it fun length => sizeType bits (length + additional)
  else some runs

/-- `[Step4]` to `[Step7]`. -/
def finish [Inhabited T] (bits : ℕ) (runs : List (Run T)) (beginIndex end_ : ℕ) (replacements : List (Run T))
    (trailer : Option (Run T)) (beginAdditional endAdditional : ℕ) : Option (List (Run T)) := do
  let runs := store runs beginIndex end_ replacements trailer
  let runs ← addLength bits runs beginIndex beginAdditional
  addLength bits runs (beginIndex + requiredSpace replacements trailer - 1) endAdditional

/-- The runs after the branch for an empty replacement. -/
def removeRange [DecidableEq T] (bits : ℕ) (runs : List (Run T))
    (totalLength startIndex endIndex begin_ beginPos end_ endPos : ℕ) : Option (List (Run T)) := do
  let (runs, begin_, beginPos, endPos) ←
    joinRemoved bits runs totalLength startIndex endIndex begin_ beginPos end_ endPos
  let (runs, begin_) ← shortenFront runs begin_ beginPos
  let runs ← shortenBack bits runs end_ endPos
  some (erase runs begin_ end_)

/-- The runs after `[Step1]` to `[Step7]`. -/
def replaceRange [DecidableEq T] [Inhabited T] (bits : ℕ) (runs : List (Run T))
    (totalLength startIndex endIndex begin_ beginPos end_ endPos : ℕ) (front : Run T)
    (tail : List (Run T)) : Option (List (Run T)) := do
  let back := (front :: tail).getLast (List.cons_ne_nil front tail)
  let (begin_, beginPos, beginAdditional) ← joinFront runs startIndex begin_ beginPos front
  let (end_, endPos, endAdditional) ← joinBack bits runs totalLength endIndex end_ endPos back
  let (trailer, endPos) ← splitMiddle bits runs begin_ beginPos end_ endPos
  let (runs, beginIndex) ← shortenFront runs begin_ beginPos
  let runs ← shortenBack bits runs end_ endPos
  finish bits runs beginIndex end_ (front :: tail) trailer beginAdditional endAdditional

def replaceUnchecked [DecidableEq T] [Inhabited T] (bits : ℕ) (rle : BasicRle T)
    (startIndex endIndex : ℕ) (replacements : List (Run T)) : Option (BasicRle T) :=
  let (begin_, beginPos, total) := scan bits startIndex rle.runs 0 0
  let (end_, endPos, _) := scan bits endIndex (rle.runs.drop begin_) begin_ total
  match replacements with
  | [] => do
    let removed := sizeType bits (endIndex - startIndex)
    let runs ←
      removeRange bits rle.runs rle.totalLength startIndex endIndex begin_ beginPos end_ endPos
    some ⟨runs, sizeType bits (rle.totalLength - removed)⟩
  | front :: tail => do
    let runs ←
      replaceRange bits rle.runs rle.totalLength startIndex endIndex begin_ beginPos end_ endPos
        front tail
    -- [Step8]
    some ⟨runs, (front :: tail).foldl (fun total run => sizeType bits (total + run.length))
      (sizeType bits (rle.totalLength - sizeType bits (endIndex - startIndex)))⟩

/-- `basic_rle::replace`; `none` stands for the exception of `_check_indices` too. -/
def replace [DecidableEq T] [Inhabited T] (bits : ℕ) (rle : BasicRle T)
    (startIndex endIndex : ℕ) (replacements : List (Run T)) : Option (BasicRle T) :=
  let endIndex := if endIndex > rle.totalLength then rle.totalLength else endIndex
  if startIndex > endIndex then none
  else replaceUnchecked bits rle startIndex endIndex replacements

/-! ### Finding the range -/

section Scan

variable {bits : ℕ}

theorem sizeType_eq {v : ℤ} {n : ℕ} (h : v = n) (hn : n < 2 ^ bits) : sizeType bits v = n := by
  rw [sizeType, h]
  exact_mod_cast Nat.mod_eq_of_lt hn

theorem scan_cases {runs : List (Run T)} (bits index it total : ℕ)
    (hpos : ∀ run ∈ runs, 0 < run.length) (hlower : total ≤ index)
    (hupper : index ≤ total + Run.total runs) (hfits : total + Run.total runs < 2 ^ bits) :
    (∃ l r, runs = l ++ r ∧ index = total + Run.total l ∧
      scan bits index runs it total = (it + l.length, 0, index)) ∨
    (∃ l r v p q, runs = l ++ ⟨v, p + q⟩ :: r ∧ 0 < p ∧ 0 < q ∧ index = total + Run.total l + p ∧
      scan bits index runs it total = (it + l.length, p, total + Run.total l)) := by
  induction runs generalizing it total with
  | nil =>
    have hindex : index = total := by simpa using (by simpa using hupper : index ≤ total).antisymm hlower
    exact .inl ⟨[], [], rfl, by simpa using hindex, by rw [hindex]; rfl⟩
  | cons run runs ih =>
    rw [Run.total_cons] at hupper hfits
    have hnew : sizeType bits (total + run.length) = total + run.length :=
      sizeType_eq (by push_cast; rfl) (by omega)
    have hrun : 0 < run.length := hpos run List.mem_cons_self
    unfold scan
    simp only [hnew]
    by_cases hinside : total + run.length > index
    · rw [if_pos hinside]
      rcases Nat.eq_or_lt_of_le hlower with hstart | hstart
      · refine .inl ⟨[], run :: runs, rfl, by simp [hstart], ?_⟩
        rw [sizeType_eq (n := 0) (by omega) (by positivity), hstart]
        rfl
      · refine .inr ⟨[], runs, run.value, index - total, total + run.length - index, ?_, by omega,
          by omega, by simp; omega, ?_⟩
        · rw [List.nil_append]
          congr 1
          rw [Run.mk.injEq]
          exact ⟨rfl, by omega⟩
        · rw [sizeType_eq (n := index - total) (by omega) (by omega)]
          rfl
    · rw [if_neg hinside]
      obtain ⟨l, r, hruns, hindex, hscan⟩ | ⟨l, r, v, p, q, hruns, hp, hq, hindex, hscan⟩ :=
        ih (it + 1) (total + run.length) (fun x hx => hpos x (List.mem_cons_of_mem _ hx)) (by omega)
          (by omega) (by omega)
      · refine .inl ⟨run :: l, r, by rw [hruns]; rfl, by rw [Run.total_cons]; omega, ?_⟩
        rw [hscan, List.length_cons]
        congr 1
        omega
      · refine .inr ⟨run :: l, r, v, p, q, by rw [hruns]; rfl, hp, hq, by rw [Run.total_cons]; omega, ?_⟩
        rw [hscan, List.length_cons, Run.total_cons]
        congr 1
        · omega
        · congr 1
          omega

end Scan

/-! ### The runs around the range -/

/-- The runs `a` up to the start of the range, with the iterator and the position of the start, and
what is left of them before it. -/
inductive FrontCut : List (Run T) → ℕ → ℕ → List (Run T) → Prop
  | between (a : List (Run T)) : FrontCut a a.length 0 a
  | within (l : List (Run T)) (v : T) (p q : ℕ) (hp : 0 < p) :
      FrontCut (l ++ [⟨v, p + q⟩]) l.length p (l ++ [⟨v, p⟩])

/-- The runs `b` from the end of the range on, with the position of the end, and what is left of
them after it. -/
inductive BackCut : List (Run T) → ℕ → List (Run T) → Prop
  | between (b : List (Run T)) : BackCut b 0 b
  | within (v : T) (p q : ℕ) (r : List (Run T)) (hp : 0 < p) (hq : 0 < q) :
      BackCut (⟨v, p + q⟩ :: r) p (⟨v, q⟩ :: r)

section Cuts

variable {a b l r rest : List (Run T)} {bits begin_ beginPos endPos : ℕ}

theorem FrontCut.length_eq (h : FrontCut a begin_ beginPos l) : l.length = a.length := by
  cases h <;> simp

theorem FrontCut.compact (h : FrontCut a begin_ beginPos l) (ha : Run.Compact a) :
    Run.Compact l := by
  cases h with
  | between => exact ha
  | within l v p q hp => exact ha.cut hp

theorem BackCut.compact (h : BackCut b endPos r) (hb : Run.Compact b) : Run.Compact r := by
  cases h with
  | between => exact hb
  | within v p q r hp hq => exact hb.cut (l := []) hq

theorem FrontCut.decode (h : FrontCut a begin_ beginPos l) :
    ∃ cut, Run.decode a = Run.decode l ++ cut := by
  cases h with
  | between => exact ⟨[], by rw [List.append_nil]⟩
  | within l v p q hp =>
    refine ⟨List.replicate q v, ?_⟩
    simp only [Run.decode_append, Run.decode_cons, Run.decode_nil, List.append_nil,
      List.replicate_add, List.append_assoc]

theorem BackCut.decode (h : BackCut b endPos r) : ∃ cut, Run.decode b = cut ++ Run.decode r := by
  cases h with
  | between => exact ⟨[], rfl⟩
  | within v p q r hp hq =>
    refine ⟨List.replicate endPos v, ?_⟩
    simp only [Run.decode_cons, List.replicate_add, List.append_assoc]

theorem FrontCut.previous (h : FrontCut a begin_ beginPos l) (hne : l ≠ []) :
    ∃ p v n kept, a = p ++ [⟨v, n⟩] ∧ l = p ++ [⟨v, kept⟩] ∧
      BasicRle.previous begin_ beginPos = some p.length ∧
      (if beginPos ≠ 0 then beginPos else n) = kept := by
  cases h with
  | between =>
    obtain ⟨p, x, hsplit⟩ := (List.eq_nil_or_concat a).resolve_left hne
    rw [List.concat_eq_append] at hsplit
    refine ⟨p, x.value, x.length, x.length, hsplit, hsplit, ?_, by simp⟩
    simp [BasicRle.previous, hsplit]
  | within l v p q hp =>
    refine ⟨l, v, beginPos + q, beginPos, rfl, rfl, ?_, ?_⟩
    · simp [BasicRle.previous, hp.ne']
    · simp [hp.ne']

theorem BackCut.next (h : BackCut b endPos r) (hne : r ≠ []) :
    ∃ q v n, b = ⟨v, n⟩ :: q ∧ r = ⟨v, n - endPos⟩ :: q ∧ endPos ≤ n := by
  cases h with
  | between =>
    obtain ⟨x, q, hsplit⟩ := List.exists_cons_of_ne_nil hne
    exact ⟨q, x.value, x.length, hsplit, hsplit, Nat.zero_le _⟩
  | within v p q r hp hq =>
    exact ⟨r, v, endPos + q, rfl, by rw [Nat.add_sub_cancel_left], Nat.le_add_right endPos q⟩

theorem setLength_append (a b : List (Run T)) (run : Run T) (f : ℕ → ℕ) :
    setLength (a ++ run :: b) a.length f = some (a ++ { run with length := f run.length } :: b) := by
  rw [setLength, if_pos (by simp)]
  congr 1
  induction a with
  | nil => rfl
  | cons x a ih => simp [ih]

theorem addLength_append (a b : List (Run T)) (run : Run T) {additional it : ℕ} (hit : it = a.length)
    (hfits : run.length + additional < 2 ^ bits) :
    addLength bits (a ++ run :: b) it additional =
      some (a ++ ⟨run.value, run.length + additional⟩ :: b) := by
  subst hit
  unfold addLength
  by_cases hadditional : additional = 0
  · rw [if_neg (not_not.mpr hadditional), hadditional]
    rfl
  · rw [if_pos hadditional, setLength_append, sizeType_eq (by push_cast; rfl) hfits]

theorem FrontCut.shortenFront (h : FrontCut a begin_ beginPos l) (rest : List (Run T)) :
    BasicRle.shortenFront (a ++ rest) begin_ beginPos = some (l ++ rest, l.length) := by
  cases h with
  | between => rfl
  | within l v p q hp =>
    rw [BasicRle.shortenFront, if_pos hp.ne', List.append_assoc, List.singleton_append,
      setLength_append]
    simp

theorem BackCut.shortenBack (h : BackCut b endPos r) (pre : List (Run T))
    (hfits : Run.total b < 2 ^ bits) :
    BasicRle.shortenBack bits (pre ++ b) pre.length endPos = some (pre ++ r) := by
  cases h with
  | between => rfl
  | within v p q r hp hq =>
    rw [Run.total_cons] at hfits
    rw [BasicRle.shortenBack, if_pos hp.ne', setLength_append,
      sizeType_eq (n := q) (by push_cast; ring) (by dsimp only at hfits; omega)]

/-- How `[Step1]` joins the run before the range with the replacement. -/
inductive FrontJoin (front : Run T) : List (Run T) → ℕ → List (Run T) → Prop
  | apart {l : List (Run T)} (hvalues : ∀ x ∈ l.getLast?, x.value ≠ front.value) :
      FrontJoin front l 0 l
  | merged (p : List (Run T)) (n : ℕ) (hn : 0 < n) : FrontJoin front p n (p ++ [⟨front.value, n⟩])

/-- How `[Step1]` joins the replacement with the run after the range. -/
inductive BackJoin (back : Run T) : List (Run T) → ℕ → List (Run T) → Prop
  | apart {r : List (Run T)} (hvalues : ∀ y ∈ r.head?, back.value ≠ y.value) : BackJoin back r 0 r
  | merged (q : List (Run T)) (n : ℕ) (hn : 0 < n) : BackJoin back q n (⟨back.value, n⟩ :: q)

end Cuts

/-! ### Storing the replacement -/

section Store

variable [Inhabited T] {bits : ℕ}

theorem store_range (p n q replacements : List (Run T)) :
    store (p ++ n ++ q) p.length (p ++ n).length replacements none = p ++ replacements ++ q := by
  have havailable : (if p.length < (p ++ n).length then (p ++ n).length - p.length else 0) =
      n.length := by
    rw [List.length_append]
    split_ifs <;> omega
  unfold store
  simp only [havailable, requiredSpace, Option.isSome_none, Bool.false_eq_true, if_false,
    Nat.add_zero]
  by_cases hfits : n.length ≥ replacements.length
  · rw [if_pos hfits, Nat.min_eq_right hfits, List.take_length,
      List.append_assoc, List.overwrite_append rfl (by rw [List.length_append]; omega), erase,
      List.drop_append_of_le_length hfits]
    have htake : (p ++ replacements ++ (n.drop replacements.length ++ q)).take
        (p.length + replacements.length) = p ++ replacements := by
      rw [← List.length_append, List.take_left]
    have hdrop : (p ++ replacements ++ (n.drop replacements.length ++ q)).drop (p ++ n).length =
        q := by
      have hlength : (p ++ n).length = (p ++ replacements ++ n.drop replacements.length).length := by
        simp only [List.length_append, List.length_drop]
        omega
      rw [hlength, ← List.append_assoc, List.drop_left]
    rw [htake, hdrop]
  · have hlt : n.length ≤ replacements.length := by omega
    have hlength : (replacements.take n.length).length = n.length := by
      rw [List.length_take]
      omega
    rw [if_neg hfits, Nat.min_eq_left hlt, List.overwrite_middle rfl hlength, insert]
    have hpos : p.length + n.length = (p ++ replacements.take n.length).length := by
      rw [List.length_append, hlength]
    rw [hpos, List.take_left, List.drop_left, List.append_assoc p, List.take_append_drop]

theorem store_split (p q replacements : List (Run T)) (trailer : Run T) {end_ : ℕ}
    (hend : end_ ≤ p.length) :
    store (p ++ q) p.length end_ replacements (some trailer) =
      p ++ replacements ++ trailer :: q := by
  have havailable : (if p.length < end_ then end_ - p.length else 0) = 0 := if_neg (by omega)
  unfold store
  simp only [havailable, requiredSpace, Option.isSome_some, if_true, Nat.zero_min, List.take_zero,
    List.overwrite_nil, List.drop_zero, Nat.add_zero, Nat.sub_zero]
  rw [if_neg (by omega), insert, List.take_left, List.drop_left, List.append_assoc p,
    List.overwrite_append rfl (by simp; omega)]
  have hdrop : (List.replicate (replacements.length + 1) (default : Run T) ++ q).drop
      replacements.length = default :: q := by
    rw [List.drop_append_of_le_length (by simp), List.drop_replicate, Nat.add_sub_cancel_left]
    rfl
  rw [hdrop, ← List.length_append]
  simp

end Store

/-! ### Joining the replacement -/

section Join

variable {a b l r p q : List (Run T)} {front back : Run T}
  {bits add begin_ beginPos endPos startIndex endIndex totalLength : ℕ}

theorem FrontJoin.le_total (h : FrontJoin front p add l) : add ≤ Run.total l := by
  cases h with
  | apart => exact Nat.zero_le _
  | merged => simp

theorem BackJoin.le_total (h : BackJoin back q add r) : add ≤ Run.total r := by
  cases h with
  | apart => exact Nat.zero_le _
  | merged => simp

theorem FrontJoin.joined (h : FrontJoin front p add l) (length : ℕ) (t : List (Run T)) :
    Run.Joined l (⟨front.value, length⟩ :: t) (p ++ ⟨front.value, length + add⟩ :: t) := by
  cases h with
  | apart hvalues =>
    refine .apart fun x hx y hy => ?_
    obtain rfl : (⟨front.value, length⟩ : Run T) = y := by simpa using hy
    exact hvalues x hx
  | merged =>
    rw [Nat.add_comm]
    exact .merged p t front.value _ length

theorem BackJoin.joined (h : BackJoin back q add r) (init : List (Run T)) (length : ℕ) :
    Run.Joined (init ++ [⟨back.value, length⟩]) r (init ++ ⟨back.value, length + add⟩ :: q) := by
  cases h with
  | apart hvalues =>
    have happart : Run.Joined (init ++ [⟨back.value, length⟩]) r
        (init ++ [⟨back.value, length⟩] ++ r) := by
      refine .apart fun x hx y hy => ?_
      obtain rfl : (⟨back.value, length⟩ : Run T) = x := by simpa using hx
      exact hvalues y hy
    rwa [List.append_assoc] at happart
  | merged => exact .merged init q back.value length _

theorem finish_range [Inhabited T] (hfront : FrontJoin front p add l) {add' : ℕ}
    (hback : BackJoin back q add' r) (n : List (Run T)) {init tail : List (Run T)}
    (hlist : front :: tail = init ++ [back])
    (hfits : Run.total l + Run.total (front :: tail) + Run.total r < 2 ^ bits) :
    ∃ t s, Run.Joined (front :: tail) r t ∧ Run.Joined l t s ∧
      finish bits (p ++ n ++ q) p.length (p ++ n).length (front :: tail) none add add' = some s := by
  have hadd := hfront.le_total
  have hadd' := hback.le_total
  rw [Run.total_cons] at hfits
  unfold finish
  rw [store_range]
  simp only [requiredSpace, Option.isSome_none, Bool.false_eq_true, if_false, Nat.add_zero,
    List.append_assoc, List.cons_append]
  rw [addLength_append p (tail ++ q) front rfl (by omega), Option.bind_eq_bind, Option.bind_some]
  rcases init with _ | ⟨first, init⟩
  · -- a single run, which may be joined on both sides
    obtain ⟨rfl, rfl⟩ : front = back ∧ tail = [] := by simpa using hlist
    refine ⟨_, _, hback.joined [] front.length, hfront.joined _ q, ?_⟩
    rw [List.nil_append, addLength_append p q _ (by simp) (by dsimp only; omega)]
    congr 3
    rw [Run.mk.injEq]
    exact ⟨rfl, by dsimp only; omega⟩
  · obtain ⟨rfl, rfl⟩ : front = first ∧ tail = init ++ [back] := by simpa using hlist
    rw [Run.total_append, Run.total_cons] at hfits
    refine ⟨_, _, hback.joined (front :: init) back.length, hfront.joined front.length _, ?_⟩
    have hsplit : p ++ ⟨front.value, front.length + add⟩ :: (init ++ [back] ++ q) =
        (p ++ ⟨front.value, front.length + add⟩ :: init) ++ back :: q := by simp
    rw [hsplit, addLength_append _ q back (by simp) (by omega)]
    simp

theorem FrontCut.joinFront [DecidableEq T] (h : FrontCut a begin_ beginPos l)
    (hpos : ∀ run ∈ l, 0 < run.length) (hstart : startIndex ≠ 0 ↔ l ≠ []) (front : Run T)
    (rest : List (Run T)) :
    ∃ it pos add p n, BasicRle.joinFront (a ++ rest) startIndex begin_ beginPos front =
        some (it, pos, add) ∧
      FrontJoin front p add l ∧ (p ++ n).length = a.length ∧
      BasicRle.shortenFront (a ++ rest) it pos = some (p ++ n ++ rest, p.length) ∧
      (pos ≠ 0 → it < a.length) := by
  have hinside : beginPos ≠ 0 → begin_ < a.length := by
    intro hbegin
    cases h with
    | between => exact absurd rfl hbegin
    | within l v p q hp => simp
  have hunmerged : (∀ x ∈ l.getLast?, x.value ≠ front.value) →
      FrontJoin front l 0 l ∧ (l ++ []).length = a.length ∧
      BasicRle.shortenFront (a ++ rest) begin_ beginPos = some (l ++ [] ++ rest, l.length) := by
    intro hvalues
    refine ⟨.apart hvalues, ?_, ?_⟩
    · rw [List.append_nil, h.length_eq]
    · rw [List.append_nil, h.shortenFront]
  unfold BasicRle.joinFront
  by_cases hnil : l = []
  · have hzero : startIndex = 0 := by
      by_contra hne
      exact hstart.mp hne hnil
    rw [if_neg (not_not.mpr hzero)]
    obtain ⟨hjoin, hlength, hshort⟩ := hunmerged (by simp [hnil])
    exact ⟨begin_, beginPos, 0, l, [], rfl, hjoin, hlength, hshort, hinside⟩
  · obtain ⟨p, v, n, kept, ha, hl, hprevious, hkept⟩ := h.previous hnil
    have hrun : (a ++ rest)[p.length]? = some ⟨v, n⟩ := by simp [ha]
    rw [if_pos (hstart.mpr hnil), hprevious]
    simp only [Option.bind_eq_bind, Option.bind_some, hrun, hkept]
    by_cases hvalue : v = front.value
    · rw [if_pos hvalue]
      refine ⟨_, _, _, p, [⟨v, n⟩], rfl, ?_, by rw [ha], ?_, fun hne => absurd rfl hne⟩
      · rw [hl, hvalue]
        exact .merged p kept (hpos ⟨v, kept⟩ (by simp [hl]))
      · rw [ha]
        rfl
    · rw [if_neg hvalue]
      obtain ⟨hjoin, hlength, hshort⟩ := hunmerged (by simpa [hl] using hvalue)
      exact ⟨begin_, beginPos, 0, l, [], rfl, hjoin, hlength, hshort, hinside⟩

theorem BackCut.joinBack [DecidableEq T] (h : BackCut b endPos r)
    (hpos : ∀ run ∈ r, 0 < run.length) (hend : endIndex ≠ totalLength ↔ r ≠ []) (back : Run T)
    (pre : List (Run T)) (hfits : Run.total b < 2 ^ bits) :
    ∃ it pos add n q, BasicRle.joinBack bits (pre ++ b) totalLength endIndex pre.length endPos back =
        some (it, pos, add) ∧
      BackJoin back q add r ∧ pre.length ≤ it ∧
      ∀ pre' : List (Run T), pre'.length = pre.length →
        BasicRle.shortenBack bits (pre' ++ b) it pos = some (pre' ++ n ++ q) ∧
        it = (pre' ++ n).length := by
  have hunmerged : (∀ y ∈ r.head?, back.value ≠ y.value) → BackJoin back r 0 r ∧
      ∀ pre' : List (Run T), pre'.length = pre.length →
        BasicRle.shortenBack bits (pre' ++ b) pre.length endPos = some (pre' ++ [] ++ r) ∧
        pre.length = (pre' ++ []).length := by
    intro hvalues
    refine ⟨.apart hvalues, fun pre' hpre => ⟨?_, ?_⟩⟩
    · rw [← hpre, h.shortenBack pre' hfits, List.append_nil]
    · rw [List.append_nil, hpre]
  unfold BasicRle.joinBack
  by_cases hnil : r = []
  · have htotal : endIndex = totalLength := by
      by_contra hne
      exact hend.mp hne hnil
    rw [if_neg (not_not.mpr htotal)]
    obtain ⟨hjoin, hshort⟩ := hunmerged (by simp [hnil])
    exact ⟨pre.length, endPos, 0, [], r, rfl, hjoin, le_rfl, hshort⟩
  · obtain ⟨q, v, n, hb, hr, hle⟩ := h.next hnil
    have hrun : (pre ++ b)[pre.length]? = some ⟨v, n⟩ := by simp [hb]
    rw [if_pos (hend.mpr hnil)]
    simp only [Option.bind_eq_bind, Option.bind_some, hrun]
    by_cases hvalue : v = back.value
    · have hadd : sizeType bits (n - endPos) = n - endPos := by
        rw [hb, Run.total_cons] at hfits
        exact sizeType_eq (by omega) (by dsimp only at hfits; omega)
      rw [if_pos hvalue, hadd]
      refine ⟨_, _, _, [⟨v, n⟩], q, rfl, ?_, Nat.le_succ _, fun pre' hpre => ⟨?_, ?_⟩⟩
      · rw [hr, hvalue]
        exact .merged q _ (hpos ⟨v, n - endPos⟩ (by simp [hr]))
      · rw [hb, List.append_assoc]
        rfl
      · rw [List.length_append, hpre, List.length_singleton]
    · rw [if_neg hvalue]
      obtain ⟨hjoin, hshort⟩ := hunmerged (by simpa [hr] using Ne.symm hvalue)
      exact ⟨pre.length, endPos, 0, [], r, rfl, hjoin, le_rfl, hshort⟩

end Join

/-! ### The range within the runs -/

/-- The runs with the range that two scans have found: either the two ends of the range are in
different runs or between runs, or the range is inside of one run and touches neither of its
ends. -/
inductive RangeCut : List (Run T) → (begin_ beginPos end_ endPos : ℕ) → List (Run T) →
    List (Run T) → Prop
  | apart {a b l r : List (Run T)} {begin_ beginPos endPos : ℕ} (m : List (Run T))
      (hfront : FrontCut a begin_ beginPos l) (hback : BackCut b endPos r) :
      RangeCut (a ++ m ++ b) begin_ beginPos (a ++ m).length endPos l r
  | inside (l r : List (Run T)) (v : T) (p k q : ℕ) (hp : 0 < p) (hq : 0 < q) :
      RangeCut (l ++ ⟨v, p + k + q⟩ :: r) l.length p l.length (p + k) (l ++ [⟨v, p⟩]) (⟨v, q⟩ :: r)

section Range

variable {bits startIndex endIndex begin_ beginPos end_ endPos totalLength : ℕ}
  {runs l r : List (Run T)}

theorem scan_range (hpos : ∀ run ∈ runs, 0 < run.length) (hle : startIndex ≤ endIndex)
    (hend : endIndex ≤ Run.total runs) (hfits : Run.total runs < 2 ^ bits) :
    ∃ begin_ beginPos end_ endPos total total' l r,
      scan bits startIndex runs 0 0 = (begin_, beginPos, total) ∧
      scan bits endIndex (runs.drop begin_) begin_ total = (end_, endPos, total') ∧
      RangeCut runs begin_ beginPos end_ endPos l r ∧
      startIndex = Run.total l ∧ endIndex + Run.total r = Run.total runs := by
  obtain ⟨a, c, rfl, hstart, hscan⟩ | ⟨a, c, v, p, q, rfl, hp, hq, hstart, hscan⟩ :=
    scan_cases bits startIndex 0 0 hpos (Nat.zero_le _) (by omega) (by omega)
  all_goals simp only [Nat.zero_add] at hstart hscan
  · rw [Run.total_append] at hend hfits
    have hc : ∀ run ∈ c, 0 < run.length := fun run hrun => hpos run (List.mem_append_right a hrun)
    obtain ⟨m, b, rfl, hindex, hscan'⟩ | ⟨m, b, v, p, q, rfl, hp, hq, hindex, hscan'⟩ :=
      scan_cases bits endIndex a.length startIndex hc hle (by omega) (by omega)
    all_goals rw [← List.length_append] at hscan'
    · refine ⟨a.length, 0, (a ++ m).length, 0, startIndex, endIndex, a, b, hscan, ?_, ?_, hstart, ?_⟩
      · rw [List.drop_left]
        exact hscan'
      · rw [← List.append_assoc]
        exact .apart m (.between a) (.between b)
      · simp only [Run.total_append]
        omega
    · refine ⟨a.length, 0, (a ++ m).length, p, startIndex, startIndex + Run.total m, a,
        ⟨v, q⟩ :: b, hscan, ?_, ?_, hstart, ?_⟩
      · rw [List.drop_left]
        exact hscan'
      · rw [← List.append_assoc]
        exact .apart m (.between a) (.within v p q b hp hq)
      · simp only [Run.total_append, Run.total_cons]
        omega
  · rw [Run.total_append, Run.total_cons] at hend hfits
    dsimp only at hend hfits
    have hc : ∀ run ∈ (⟨v, p + q⟩ :: c : List (Run T)), 0 < run.length :=
      fun run hrun => hpos run (List.mem_append_right a hrun)
    have hl : startIndex = Run.total (a ++ [⟨v, p⟩]) := by simpa using hstart
    obtain ⟨m, b, hsplit, hindex, hscan'⟩ | ⟨m, b, w, p', q', hsplit, hp', hq', hindex, hscan'⟩ :=
      scan_cases bits endIndex a.length (Run.total a) hc (by omega)
        (by rw [Run.total_cons]; dsimp only; omega) (by rw [Run.total_cons]; dsimp only; omega)
    · rcases m with _ | ⟨first, m⟩
      · -- the end is not before the start
        simp only [Run.total_nil] at hindex
        omega
      obtain ⟨rfl, rfl⟩ : ⟨v, p + q⟩ = first ∧ c = m ++ b := by simpa using hsplit
      have hruns : a ++ ⟨v, p + q⟩ :: (m ++ b) = a ++ [⟨v, p + q⟩] ++ m ++ b := by simp
      have hlength : a.length + (⟨v, p + q⟩ :: m : List (Run T)).length =
          (a ++ [(⟨v, p + q⟩ : Run T)] ++ m).length := by simp
      rw [hlength] at hscan'
      refine ⟨a.length, p, (a ++ [(⟨v, p + q⟩ : Run T)] ++ m).length, 0, Run.total a, endIndex, a ++ [⟨v, p⟩],
        b, hscan, ?_, ?_, hl, ?_⟩
      · rw [List.drop_left]
        exact hscan'
      · rw [hruns]
        exact .apart m (.within a v p q hp) (.between b)
      · simp only [Run.total_append, Run.total_cons] at hindex ⊢
        omega
    · rcases m with _ | ⟨first, m⟩
      · -- the range is inside of one run
        obtain ⟨⟨rfl, hlengths⟩, rfl⟩ : (v = w ∧ p + q = p' + q') ∧ c = b := by simpa using hsplit
        obtain ⟨k, rfl⟩ : ∃ k, p' = p + k := ⟨p' - p, by
          simp only [Run.total_nil] at hindex
          omega⟩
        rw [hlengths] at hscan hscan' ⊢
        refine ⟨a.length, p, a.length, p + k, Run.total a, Run.total a, a ++ [⟨v, p⟩],
          ⟨v, q'⟩ :: c, hscan, ?_, .inside a c v p k q' hp hq', hl, ?_⟩
        · rw [List.drop_left]
          exact hscan'
        · simp only [Run.total_append, Run.total_cons, Run.total_nil] at hindex ⊢
          omega
      · obtain ⟨rfl, rfl⟩ : ⟨v, p + q⟩ = first ∧ c = m ++ ⟨w, p' + q'⟩ :: b := by simpa using hsplit
        have hruns : a ++ ⟨v, p + q⟩ :: (m ++ ⟨w, p' + q'⟩ :: b) =
            a ++ [⟨v, p + q⟩] ++ m ++ ⟨w, p' + q'⟩ :: b := by simp
        have hlength : a.length + (⟨v, p + q⟩ :: m : List (Run T)).length =
            (a ++ [(⟨v, p + q⟩ : Run T)] ++ m).length := by simp
        rw [hlength] at hscan'
        refine ⟨a.length, p, (a ++ [(⟨v, p + q⟩ : Run T)] ++ m).length, p', Run.total a,
          Run.total a + Run.total (⟨v, p + q⟩ :: m), a ++ [⟨v, p⟩], ⟨w, q'⟩ :: b, hscan, ?_, ?_, hl, ?_⟩
        · rw [List.drop_left]
          exact hscan'
        · rw [hruns]
          exact .apart m (.within a v p q hp) (.within w p' q' b hp' hq')
        · simp only [Run.total_append, Run.total_cons] at hindex ⊢
          omega

theorem RangeCut.compact (h : RangeCut runs begin_ beginPos end_ endPos l r)
    (hruns : Run.Compact runs) : Run.Compact l ∧ Run.Compact r := by
  cases h with
  | apart m hfront hback => exact ⟨hfront.compact hruns.left.left, hback.compact hruns.right⟩
  | inside l r v p k q hp hq =>
    constructor
    · rw [List.append_cons] at hruns
      exact hruns.left.cut hp
    · exact hruns.right.cut (l := []) hq

theorem RangeCut.decode (h : RangeCut runs begin_ beginPos end_ endPos l r) :
    ∃ cut, Run.decode runs = Run.decode l ++ cut ++ Run.decode r := by
  cases h with
  | @apart a b _ _ _ _ _ m hfront hback =>
    obtain ⟨cut, hcut⟩ := hfront.decode
    obtain ⟨cut', hcut'⟩ := hback.decode
    refine ⟨cut ++ Run.decode m ++ cut', ?_⟩
    simp only [Run.decode_append, hcut, hcut', List.append_assoc]
  | inside l r v p k q hp hq =>
    refine ⟨List.replicate k v, ?_⟩
    simp only [Run.decode_append, Run.decode_cons, Run.decode_nil, List.append_nil,
      List.replicate_add, List.append_assoc]

theorem RangeCut.removeRange [DecidableEq T] (h : RangeCut runs begin_ beginPos end_ endPos l r)
    (hstart : startIndex ≠ 0 ↔ l ≠ []) (hend : endIndex ≠ totalLength ↔ r ≠ [])
    (hfits : Run.total runs < 2 ^ bits) :
    ∃ s, Run.Joined l r s ∧ BasicRle.removeRange bits runs totalLength startIndex endIndex begin_
      beginPos end_ endPos = some s := by
  cases h with
  | @apart a b _ _ _ _ _ m hfront hback =>
    rw [Run.total_append, Run.total_append] at hfits
    have hb : Run.total b < 2 ^ bits := by omega
    -- the two sides that are not joined
    have hapart : (BasicRle.shortenFront (a ++ m ++ b) begin_ beginPos).bind (fun x =>
        (BasicRle.shortenBack bits x.1 (a ++ m).length endPos).bind fun runs =>
          some (erase runs x.2 (a ++ m).length)) = some (l ++ r) := by
      have hlength : (a ++ m).length = (l ++ m).length := by
        rw [List.length_append, List.length_append, hfront.length_eq]
      rw [List.append_assoc, hfront.shortenFront, Option.bind_some, hlength]
      dsimp only
      rw [← List.append_assoc, hback.shortenBack (l ++ m) hb, Option.bind_some, erase,
        List.append_assoc, List.take_left, ← List.append_assoc, List.drop_left]
    unfold BasicRle.removeRange joinRemoved
    by_cases hboth : startIndex ≠ 0 ∧ endIndex ≠ totalLength
    · rw [if_pos hboth]
      obtain ⟨p, v, n, kept, ha, hl, hprevious, hkept⟩ := hfront.previous (hstart.mp hboth.1)
      obtain ⟨q, w, n', hb', hr, hle⟩ := hback.next (hend.mp hboth.2)
      have hprev : (a ++ m ++ b)[p.length]? = some ⟨v, n⟩ := by simp [ha]
      have hlast : (a ++ m ++ b)[(a ++ m).length]? = some ⟨w, n'⟩ := by simp [hb']
      rw [hprevious]
      simp only [Option.bind_eq_bind, Option.bind_some, hprev, hlast, hkept]
      by_cases hvalue : v = w
      · have hlt : kept + (n' - endPos) < 2 ^ bits := by
          have hkeptLe : kept ≤ Run.total l := by simp [hl]
          have hcut : Run.total l ≤ Run.total a := by
            obtain ⟨cut, hcut⟩ := hfront.decode
            rw [← Run.length_decode, ← Run.length_decode a, hcut, List.length_append]
            omega
          rw [hb', Run.total_cons] at hfits
          dsimp only at hfits
          omega
        have hsize : sizeType bits (n' - (endPos - kept)) = kept + (n' - endPos) :=
          sizeType_eq (by push_cast; omega) hlt
        refine ⟨p ++ ⟨v, kept + (n' - endPos)⟩ :: q, ?_, ?_⟩
        · rw [hl, hr, ← hvalue]
          exact .merged p q v kept _
        · rw [if_pos hvalue, hb', setLength_append]
          simp only [Option.bind_some, hsize, BasicRle.shortenFront, BasicRle.shortenBack,
            ne_eq, not_true_eq_false, if_false, erase]
          rw [List.drop_left, ha, hvalue]
          simp
      · refine ⟨l ++ r, .apart ?_, ?_⟩
        · simpa [hl, hr] using hvalue
        · rw [if_neg hvalue]
          exact hapart
    · rw [if_neg hboth]
      refine ⟨l ++ r, .apart fun x hx y hy => ?_, hapart⟩
      have hl : l ≠ [] := by
        rintro rfl
        simp at hx
      have hr : r ≠ [] := by
        rintro rfl
        simp at hy
      exact absurd ⟨hstart.mpr hl, hend.mpr hr⟩ hboth
  | inside l r v p k q hp hq =>
    have hfits' : beginPos + k + q < 2 ^ bits := by
      rw [Run.total_append, Run.total_cons] at hfits
      dsimp only at hfits
      omega
    refine ⟨l ++ ⟨v, beginPos + q⟩ :: r, .merged l r v beginPos q, ?_⟩
    have hboth : startIndex ≠ 0 ∧ endIndex ≠ totalLength :=
      ⟨hstart.mpr (by simp), hend.mpr (by simp)⟩
    have hrun : (l ++ ⟨v, beginPos + k + q⟩ :: r)[l.length]? = some ⟨v, beginPos + k + q⟩ := by simp
    have hsize : sizeType bits (((beginPos + k + q : ℕ) : ℤ) - (((beginPos + k : ℕ) : ℤ) - beginPos)) =
        beginPos + q := sizeType_eq (by push_cast; ring) (by omega)
    unfold BasicRle.removeRange joinRemoved
    rw [if_pos hboth, previous, if_pos hp.ne']
    simp only [Option.bind_eq_bind, Option.bind_some, hrun, if_true, if_pos hp.ne']
    rw [setLength_append]
    dsimp only
    rw [hsize]
    simp [BasicRle.shortenFront, BasicRle.shortenBack, erase]

theorem RangeCut.replaceRange [DecidableEq T] [Inhabited T]
    (h : RangeCut runs begin_ beginPos end_ endPos l r)
    (hl : Run.Compact l) (hr : Run.Compact r)
    (hstart : startIndex ≠ 0 ↔ l ≠ []) (hend : endIndex ≠ totalLength ↔ r ≠ [])
    (hfits : Run.total runs < 2 ^ bits) (front : Run T) (tail : List (Run T))
    (hresult : Run.total l + Run.total (front :: tail) + Run.total r < 2 ^ bits) :
    ∃ t s, Run.Joined (front :: tail) r t ∧ Run.Joined l t s ∧
      BasicRle.replaceRange bits runs totalLength startIndex endIndex begin_ beginPos end_ endPos
        front tail = some s := by
  set back := (front :: tail).getLast (List.cons_ne_nil front tail) with hback
  have hlist : front :: tail = (front :: tail).dropLast ++ [back] :=
    (List.dropLast_append_getLast _).symm
  cases h with
  | @apart a b _ _ _ _ _ m hfront hback' =>
    rw [Run.total_append] at hfits
    have hb : Run.total b < 2 ^ bits := by omega
    obtain ⟨it, pos, add, p, n, hjoin, hfrontJoin, hlength, hshort, hinside⟩ :=
      hfront.joinFront hl.length_pos hstart front (m ++ b)
    obtain ⟨it', pos', add', n', q, hjoin', hbackJoin, hle, hshort'⟩ :=
      hback'.joinBack hr.length_pos hend back (a ++ m) hb
    have hprefix : (p ++ n ++ m).length = (a ++ m).length := by
      rw [List.length_append, hlength, List.length_append]
    obtain ⟨hback'', hend'⟩ := hshort' (p ++ n ++ m) hprefix
    have hnotInside : ¬(it = it' ∧ pos ≠ 0) := by
      rintro ⟨heq, hne⟩
      have := hinside hne
      rw [List.length_append] at hle
      omega
    obtain ⟨t, s, ht, hs, hfinish⟩ :=
      finish_range hfrontJoin hbackJoin (n ++ m ++ n') hlist hresult
    refine ⟨t, s, ht, hs, ?_⟩
    unfold BasicRle.replaceRange
    rw [← hback, List.append_assoc, hjoin]
    simp only [Option.bind_eq_bind, Option.bind_some]
    rw [← List.append_assoc, hjoin']
    simp only [Option.bind_some, splitMiddle, if_neg hnotInside]
    rw [List.append_assoc, hshort]
    simp only [Option.bind_some]
    rw [← List.append_assoc, hback'', hend']
    simp only [Option.bind_some]
    have hregroup : p ++ (n ++ m ++ n') = p ++ n ++ m ++ n' := by simp
    rw [hregroup] at hfinish
    exact hfinish
  | inside l r v p k q hp hq =>
    have hfits' : beginPos + k + q < 2 ^ bits := by
      rw [Run.total_append, Run.total_cons] at hfits
      dsimp only at hfits
      omega
    have hsize : sizeType bits (((beginPos + k + q : ℕ) : ℤ) - ((beginPos + k : ℕ) : ℤ)) = q :=
      sizeType_eq (by push_cast; ring) (by omega)
    have hrun : (l ++ ⟨v, beginPos + k + q⟩ :: r)[l.length]? = some ⟨v, beginPos + k + q⟩ := by simp
    have hposk : beginPos + k ≠ 0 := by omega
    have hfrontValue : v ≠ front.value →
        FrontJoin front (l ++ [⟨v, beginPos⟩]) 0 (l ++ [⟨v, beginPos⟩]) :=
      fun hne => .apart (by simpa using hne)
    have hbackValue : v ≠ back.value → BackJoin back (⟨v, q⟩ :: r) 0 (⟨v, q⟩ :: r) :=
      fun hne => .apart (by simpa using hne.symm)
    have hcuts : (l ++ [(⟨v, beginPos⟩ : Run T)]).length = l.length + 1 := by simp
    unfold BasicRle.replaceRange
    have hendNe : endIndex ≠ totalLength := hend.mpr (by simp)
    rw [← hback, BasicRle.joinFront, if_pos (hstart.mpr (by simp)), previous, if_pos hp.ne']
    simp only [Option.bind_eq_bind, Option.bind_some, BasicRle.joinBack, if_pos hendNe, hrun,
      if_pos hp.ne', hsize]
    by_cases hv : v = front.value
    · by_cases hw : v = back.value
      · -- joined on both sides: the run is overwritten
        have hfrontJoin : FrontJoin front l beginPos (l ++ [⟨v, beginPos⟩]) := by
          rw [hv]
          exact .merged l beginPos hp
        have hbackJoin : BackJoin back r q (⟨v, q⟩ :: r) := by
          rw [hw]
          exact .merged r q hq
        obtain ⟨t, s, ht, hs, hfinish⟩ :=
          finish_range hfrontJoin hbackJoin [⟨v, beginPos + k + q⟩] hlist hresult
        refine ⟨t, s, ht, hs, ?_⟩
        simp only [if_pos hv, if_pos hw, Option.bind_some, splitMiddle, BasicRle.shortenFront,
          BasicRle.shortenBack, ne_eq, not_true_eq_false, and_false, if_false]
        simpa using hfinish
      · -- what is after the range stays in the run
        have hfrontJoin : FrontJoin front l beginPos (l ++ [⟨v, beginPos⟩]) := by
          rw [hv]
          exact .merged l beginPos hp
        obtain ⟨t, s, ht, hs, hfinish⟩ :=
          finish_range hfrontJoin (hbackValue hw) [] hlist hresult
        refine ⟨t, s, ht, hs, ?_⟩
        simp only [if_pos hv, if_neg hw, Option.bind_some, splitMiddle, BasicRle.shortenFront,
          BasicRle.shortenBack, ne_eq, not_true_eq_false, and_false, if_false, hposk,
          not_false_eq_true, if_true, setLength_append, hsize]
        simpa using hfinish
    · by_cases hw : v = back.value
      · -- what is before the range stays in the run
        have hbackJoin : BackJoin back r q (⟨v, q⟩ :: r) := by
          rw [hw]
          exact .merged r q hq
        obtain ⟨t, s, ht, hs, hfinish⟩ :=
          finish_range (hfrontValue hv) hbackJoin [] hlist hresult
        refine ⟨t, s, ht, hs, ?_⟩
        simp only [if_neg hv, if_pos hw, Option.bind_some, splitMiddle, BasicRle.shortenFront,
          BasicRle.shortenBack, ne_eq, hp.ne', not_false_eq_true, if_true, setLength_append]
        simpa using hfinish
      · -- the run is split in two
        refine ⟨front :: tail ++ ⟨v, q⟩ :: r, l ++ [⟨v, beginPos⟩] ++ (front :: tail ++ ⟨v, q⟩ :: r),
          .apart ?_, .apart ?_, ?_⟩
        · intro x hx y hy
          obtain rfl : (⟨v, q⟩ : Run T) = y := by simpa using hy
          obtain rfl : back = x := by
            rw [hlist, List.getLast?_concat] at hx
            simpa using hx
          exact Ne.symm hw
        · simpa using hv
        · have hlength : l.length ≤ (l ++ [(⟨v, beginPos⟩ : Run T)]).length := by simp
          have hstore := store_split (l ++ [⟨v, beginPos⟩]) r (front :: tail) (⟨v, q⟩ : Run T) hlength
          rw [List.append_assoc, List.singleton_append, hcuts] at hstore
          simp only [if_neg hv, if_neg hw, Option.bind_some, splitMiddle, true_and, ne_eq, hp.ne',
            not_false_eq_true, if_true, hrun, Option.bind_eq_bind, hsize, BasicRle.shortenFront,
            setLength_append, BasicRle.shortenBack, not_true_eq_false, if_false, finish, hstore,
            addLength]
          simp

end Range

/-! ### The replacement -/

section Replace

variable {bits : ℕ} {rle : BasicRle T} {startIndex endIndex : ℕ} {replacements : List (Run T)}

theorem foldl_sizeType (replacements : List (Run T)) {total : ℕ}
    (hfits : total + Run.total replacements < 2 ^ bits) :
    replacements.foldl (fun total run => sizeType bits (total + run.length)) total =
      total + Run.total replacements := by
  induction replacements generalizing total with
  | nil => rfl
  | cons run replacements ih =>
    rw [Run.total_cons] at hfits ⊢
    have hnext : sizeType bits ((total : ℤ) + run.length) = total + run.length :=
      sizeType_eq (by push_cast; rfl) (by omega)
    rw [List.foldl_cons, hnext, ih (by omega), Nat.add_assoc]

theorem replaceUnchecked_eq [DecidableEq T] [Inhabited T] (hruns : Run.Compact rle.runs)
    (htotal : rle.totalLength = Run.total rle.runs) (hfits : rle.totalLength < 2 ^ bits)
    (hreplacements : Run.Compact replacements) (hle : startIndex ≤ endIndex)
    (hend : endIndex ≤ rle.totalLength)
    (hresult : rle.totalLength - (endIndex - startIndex) + Run.total replacements < 2 ^ bits) :
    ∃ l r t s, Run.Compact s ∧ Run.decode l = (Run.decode rle.runs).take startIndex ∧
      Run.decode r = (Run.decode rle.runs).drop endIndex ∧
      Run.Joined replacements r t ∧ Run.Joined l t s ∧
      replaceUnchecked bits rle startIndex endIndex replacements = some ⟨s, Run.total s⟩ := by
  rw [htotal] at hfits hend hresult
  obtain ⟨begin_, beginPos, end_, endPos, total, total', l, r, hscan, hscan', hcut, hl, hr⟩ :=
    scan_range hruns.length_pos hle hend hfits
  obtain ⟨hcompactL, hcompactR⟩ := hcut.compact hruns
  obtain ⟨cut, hdecode⟩ := hcut.decode
  have hlength : cut.length = endIndex - startIndex := by
    have := congrArg List.length hdecode
    simp only [List.length_append, Run.length_decode] at this
    omega
  have htake : Run.decode l = (Run.decode rle.runs).take startIndex := by
    rw [hdecode, List.append_assoc, List.take_left' (by rw [Run.length_decode, hl])]
  have hdrop : Run.decode r = (Run.decode rle.runs).drop endIndex := by
    rw [hdecode, List.drop_left']
    rw [List.length_append, Run.length_decode, hlength]
    omega
  have hpos (rs : List (Run T)) (hrs : Run.Compact rs) : Run.total rs ≠ 0 ↔ rs ≠ [] := by
    rcases rs with _ | ⟨run, rs⟩
    · simp
    · have := hrs.length_pos run List.mem_cons_self
      rw [Run.total_cons]
      exact iff_of_true (by omega) (by simp)
  have hstartNe : startIndex ≠ 0 ↔ l ≠ [] := by rw [hl, hpos l hcompactL]
  have hendNe : endIndex ≠ rle.totalLength ↔ r ≠ [] := by
    rw [htotal, ← hpos r hcompactR]
    omega
  have hremoved : sizeType bits ((endIndex : ℤ) - startIndex) = endIndex - startIndex :=
    sizeType_eq (by omega) (by omega)
  have hrest : sizeType bits ((Run.total rle.runs : ℤ) - (endIndex - startIndex : ℕ)) =
      Run.total l + Run.total r := sizeType_eq (by omega) (by omega)
  rcases replacements with _ | ⟨front, tail⟩
  · obtain ⟨s, hjoined, hremove⟩ := hcut.removeRange hstartNe hendNe hfits
    have hnil : Run.Joined ([] : List (Run T)) r r := .apart (by simp)
    rw [htotal] at hremove
    refine ⟨l, r, r, s, hjoined.compact hcompactL hcompactR, htake, hdrop, hnil, hjoined, ?_⟩
    simp only [replaceUnchecked, hscan, hscan', hremove, Option.bind_eq_bind, Option.bind_some,
      hremoved, htotal, hrest, hjoined.total_eq]
  · obtain ⟨t, s, ht, hs, hreplace⟩ := hcut.replaceRange hcompactL hcompactR hstartNe hendNe hfits
      front tail (by omega)
    refine ⟨l, r, t, s, hs.compact hcompactL (ht.compact hreplacements hcompactR), htake, hdrop, ht,
      hs, ?_⟩
    rw [htotal] at hreplace
    have htotals : Run.total s = Run.total l + Run.total r + Run.total (front :: tail) := by
      rw [hs.total_eq, ht.total_eq]
      omega
    simp only [replaceUnchecked, hscan, hscan', hreplace, Option.bind_eq_bind, Option.bind_some,
      hremoved, htotal, hrest, htotals]
    rw [foldl_sizeType _ (by omega)]

/-- `replace` is the replacement in the encoded list, and leaves runs that are compact, with their
length. -/
theorem replace_refines [DecidableEq T] [Inhabited T] (bits : ℕ) (rle : BasicRle T)
    (startIndex endIndex : ℕ) (replacements : List (Run T)) (hruns : Run.Compact rle.runs)
    (htotal : rle.totalLength = Run.total rle.runs) (hfits : rle.totalLength < 2 ^ bits)
    (hreplacements : Run.Compact replacements) (hle : startIndex ≤ min endIndex rle.totalLength)
    (hresult : rle.totalLength - (min endIndex rle.totalLength - startIndex) +
      Run.total replacements < 2 ^ bits) :
    ∃ result, rle.replace bits startIndex endIndex replacements = some result ∧
      Run.decode result.runs = (Run.decode rle.runs).take startIndex ++ Run.decode replacements ++
        (Run.decode rle.runs).drop (min endIndex rle.totalLength) ∧
      result.totalLength = (Run.decode result.runs).length ∧ Run.Compact result.runs := by
  have hclamp : (if endIndex > rle.totalLength then rle.totalLength else endIndex) =
      min endIndex rle.totalLength := by
    split_ifs <;> omega
  obtain ⟨l, r, t, s, hcompact, htake, hdrop, ht, hs, heq⟩ := replaceUnchecked_eq hruns htotal hfits
    hreplacements hle (Nat.min_le_right _ _) hresult
  refine ⟨⟨s, Run.total s⟩, ?_, ?_, (Run.length_decode s).symm, hcompact⟩
  · simp only [replace, hclamp, if_neg (Nat.not_lt.mpr hle), heq]
  · rw [hs.decode_eq, ht.decode_eq, htake, hdrop, List.append_assoc]

/-- A run of three is split by a replacement in its middle. -/
theorem replace_refines_split : ∃ result,
    (⟨[⟨'a', 3⟩], 3⟩ : BasicRle Char).replace 16 1 2 [⟨'b', 1⟩] = some result ∧
      Run.decode result.runs = ['a', 'b', 'a'] := by
  obtain ⟨result, hreplace, hdecode, -⟩ := replace_refines 16 (⟨[⟨'a', 3⟩], 3⟩ : BasicRle Char) 1 2
    [⟨'b', 1⟩] ⟨by simp, by simp⟩ rfl (by decide) ⟨by simp, by simp⟩ (by decide) (by decide)
  exact ⟨result, hreplace, hdecode⟩

instance : Inhabited TextAttribute := ⟨{}⟩

end Replace

end BasicRle

end IntelligentTerminal.Buffer
