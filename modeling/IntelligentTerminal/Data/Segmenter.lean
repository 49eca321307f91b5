import Mathlib

/-!
# Cutting a stream into pieces

A segmenter cuts a list of symbols into pieces. The state of the current piece decides whether the
next symbol belongs to it. When the list ends the current piece is left open, so that the list may
be given in several parts. Each symbol has a length of its own, and `memo` is what the segmenter
learns from one piece to the next.
-/

namespace IntelligentTerminal

/-- A piece of the list, by its start and its length. -/
structure Piece (σ : Type*) where
  start : ℕ
  length : ℕ
  value : σ
deriving DecidableEq

/-- The pieces of two parts; the last piece of the first part goes on with the first of the second
part, which also says what is known of it in the end. -/
def joinPieces {σ : Type*} (l r : List (Piece σ)) : List (Piece σ) :=
  match l.getLast?, r with
  | none, r => r
  | some _, [] => l
  | some last, first :: rest =>
    l.dropLast ++ ⟨last.start, last.length + first.length, first.value⟩ :: rest

/-- How a piece starts and which symbols it goes on with. -/
structure Segmenter (κ α σ : Type*) where
  start : κ → α → σ × κ
  extend : σ → α → Option σ

/-- The pieces of what was read so far. -/
structure Segmentation (κ σ : Type*) where
  closed : List (Piece σ) := []
  current : Option (Piece σ) := none
  position : ℕ
  memo : κ

variable {κ α σ : Type*}

/-- All pieces, the open one included. -/
def Segmentation.pieces (s : Segmentation κ σ) : List (Piece σ) := s.closed ++ s.current.toList

namespace Segmenter

variable (m : Segmenter κ α σ)

/-- A symbol that starts a piece. -/
def open_ (s : Segmentation κ σ) (symbol : α × ℕ) : Segmentation κ σ :=
  { s with
    current := some ⟨s.position, symbol.2, (m.start s.memo symbol.1).1⟩
    position := s.position + symbol.2
    memo := (m.start s.memo symbol.1).2 }

/-- One symbol, with its length. -/
def add (s : Segmentation κ σ) (symbol : α × ℕ) : Segmentation κ σ :=
  match s.current with
  | none => m.open_ s symbol
  | some piece =>
    match m.extend piece.value symbol.1 with
    | some value =>
      { s with
        current := some ⟨piece.start, piece.length + symbol.2, value⟩
        position := s.position + symbol.2 }
    | none => m.open_ { s with closed := s.closed ++ [piece] } symbol

/-- The symbols that a piece goes on with: their length, the state after them, and the rest. -/
def extendAll (value : σ) : List (α × ℕ) → ℕ × σ × List (α × ℕ)
  | [] => (0, value, [])
  | symbol :: rest =>
    match m.extend value symbol.1 with
    | none => (0, value, symbol :: rest)
    | some value =>
      let (length, value, rest) := extendAll value rest
      (symbol.2 + length, value, rest)

variable {m} {closed : List (Piece σ)} {s t : Segmentation κ σ} {last : Piece σ}
  {s : Segmentation κ σ}

theorem foldl_add_extendAll (symbols : List (α × ℕ)) {piece : Piece σ}
    (hcurrent : s.current = some piece) {length : ℕ} {value : σ} {rest : List (α × ℕ)}
    (hextend : m.extendAll piece.value symbols = (length, value, rest)) :
    (rest = [] → symbols.foldl m.add s =
      { s with
        current := some ⟨piece.start, piece.length + length, value⟩
        position := s.position + length }) ∧
    (rest ≠ [] → symbols.foldl m.add s = rest.foldl m.add
      { s with
        closed := s.closed ++ [⟨piece.start, piece.length + length, value⟩]
        current := none
        position := s.position + length }) := by
  induction symbols generalizing s piece length value with
  | nil =>
    obtain ⟨rfl, rfl, rfl⟩ : 0 = length ∧ piece.value = value ∧ [] = rest := by
      simpa [extendAll] using hextend
    refine ⟨fun _ => ?_, fun hrest => absurd rfl hrest⟩
    rw [List.foldl_nil, Nat.add_zero, Nat.add_zero, ← hcurrent]
  | cons symbol symbols ih =>
    unfold extendAll at hextend
    cases hsymbol : m.extend piece.value symbol.1 with
    | none =>
      rw [hsymbol] at hextend
      obtain ⟨rfl, rfl, rfl⟩ : 0 = length ∧ piece.value = value ∧ symbol :: symbols = rest := by
        simpa using hextend
      refine ⟨fun hrest => absurd hrest (by simp), fun _ => ?_⟩
      have hadd : m.add s symbol =
          m.add { s with closed := s.closed ++ [piece], current := none } symbol := by
        simp only [add, hcurrent, hsymbol]
        rfl
      rw [List.foldl_cons, List.foldl_cons, hadd]
      rfl
    | some value' =>
      rw [hsymbol] at hextend
      rcases htail : m.extendAll value' symbols with ⟨length', value'', rest'⟩
      simp only [htail, Prod.mk.injEq] at hextend
      obtain ⟨rfl, rfl, rfl⟩ := hextend
      have hadd : m.add s symbol =
          { s with
            current := some ⟨piece.start, piece.length + symbol.2, value'⟩
            position := s.position + symbol.2 } := by
        simp only [add, hcurrent, hsymbol]
      have hih := ih (s := m.add s symbol) (by rw [hadd]) htail
      rw [List.foldl_cons]
      simpa only [hadd, Nat.add_assoc] using hih

theorem foldl_add_closed (closed : List (Piece σ)) (symbols : List (α × ℕ)) (s : Segmentation κ σ) :
    symbols.foldl m.add { s with closed := closed ++ s.closed } =
      { symbols.foldl m.add s with closed := closed ++ (symbols.foldl m.add s).closed } := by
  induction symbols generalizing s with
  | nil => rfl
  | cons symbol symbols ih =>
    have hadd : m.add { s with closed := closed ++ s.closed } symbol =
        { m.add s symbol with closed := closed ++ (m.add s symbol).closed } := by
      obtain ⟨closed', current, position, memo⟩ := s
      cases current with
      | none => rfl
      | some piece =>
        cases hsymbol : m.extend piece.value symbol.1 with
        | some value => simp only [add, hsymbol]
        | none => simp only [add, hsymbol, open_, List.append_assoc]
    rw [List.foldl_cons, List.foldl_cons, hadd, ih]

theorem position_foldl_add (symbols : List (α × ℕ)) (s : Segmentation κ σ) :
    (symbols.foldl m.add s).position = s.position + (symbols.map Prod.snd).sum := by
  induction symbols generalizing s with
  | nil => rfl
  | cons symbol symbols ih =>
    have hadd : (m.add s symbol).position = s.position + symbol.2 := by
      obtain ⟨closed, current, position, memo⟩ := s
      cases current with
      | none => rfl
      | some piece => cases hsymbol : m.extend piece.value symbol.1 <;> simp only [add, hsymbol, open_]
    rw [List.foldl_cons, ih, hadd, List.map_cons, List.sum_cons, Nat.add_assoc]

/-- Two ways to read the same symbols: `s` has the piece from its start, and `t` only from where the
list was interrupted. -/
inductive Resumed (closed : List (Piece σ)) (last : Piece σ) :
    Segmentation κ σ → Segmentation κ σ → Prop
  | open_ (start length position : ℕ) (value : σ) (memo : κ) :
      Resumed closed last
        ⟨closed, some ⟨last.start, last.length + length, value⟩, position, memo⟩
        ⟨[], some ⟨start, length, value⟩, position, memo⟩
  | closed (first : Piece σ) (rest : List (Piece σ)) (current : Option (Piece σ)) (position : ℕ)
      (memo : κ) :
      Resumed closed last
        ⟨closed ++ ⟨last.start, last.length + first.length, first.value⟩ :: rest, current, position,
          memo⟩
        ⟨first :: rest, current, position, memo⟩

theorem Resumed.add
    (h : Resumed closed last s t) (symbol : α × ℕ) :
    Resumed closed last (m.add s symbol) (m.add t symbol) := by
  cases h with
  | open_ start length position value memo =>
    unfold Segmenter.add
    cases hsymbol : m.extend value symbol.1 with
    | some value' =>
      simp only [hsymbol, Nat.add_assoc]
      exact .open_ start (length + symbol.2) (position + symbol.2) value' memo
    | none =>
      simp only [hsymbol]
      exact .closed ⟨start, length, value⟩ [] _ _ _
  | closed first rest current position memo =>
    unfold Segmenter.add
    cases current with
    | none => exact .closed first rest _ _ _
    | some piece =>
      cases hsymbol : m.extend piece.value symbol.1 with
      | some value' =>
        simp only [hsymbol]
        exact .closed first rest _ _ _
      | none =>
        simp only [hsymbol, List.append_assoc, List.cons_append]
        exact .closed first (rest ++ [piece]) _ _ _

theorem Resumed.foldl
    (h : Resumed closed last s t) (symbols : List (α × ℕ)) :
    Resumed closed last (symbols.foldl m.add s) (symbols.foldl m.add t) := by
  induction symbols generalizing s t with
  | nil => exact h
  | cons symbol symbols ih => exact ih (h.add symbol)

theorem Resumed.pieces_eq
    (h : Resumed closed last s t) : s.pieces = joinPieces (closed ++ [last]) t.pieces := by
  cases h with
  | open_ => simp [Segmentation.pieces, joinPieces]
  | closed => simp [Segmentation.pieces, joinPieces]

theorem Resumed.current_value
    (h : Resumed closed last s t) :
    s.current.map Piece.value = t.current.map Piece.value ∧ s.memo = t.memo := by
  cases h with
  | open_ => exact ⟨rfl, rfl⟩
  | closed => exact ⟨rfl, rfl⟩

/-- The first part of a list was read up to an open piece. Reading on is the same as reading the
second part with that piece resumed, and joining the pieces. -/
theorem pieces_foldl_resume (symbols : List (α × ℕ))
    (hcurrent : s.current = some last) :
    Resumed s.closed last (symbols.foldl m.add s)
      (symbols.foldl m.add ⟨[], some ⟨s.position, 0, last.value⟩, s.position, s.memo⟩) := by
  obtain ⟨closed, current, position, memo⟩ := s
  obtain rfl : current = some last := hcurrent
  exact Resumed.foldl (.open_ position 0 position last.value memo) symbols

end Segmenter

end IntelligentTerminal
