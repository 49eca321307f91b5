import IntelligentTerminal.Selection.Rows

/-!
# What is highlighted is what is copied

In each row of a selection the highlighted cells are those from a symbol on up to the end of a
symbol, or of the row, and the loop that copies the row steps over the symbols in between. This
depends on the ends of the selection being first cells of symbols, which
`normalize_wide_cell_x` takes care of if no symbol takes more than two cells.
-/

namespace IntelligentTerminal.TextSelection

/-! ### What is claimed of a frame -/

section Claims

variable (env : Env) (b : Buffer)

/-- The selections that can be made on a frame. -/
inductive Selectable : Selection → Prop
  | all {selection : Selection} (h : selectAll env b = some selection) : Selectable selection
  | linear {x y x' y' : ℕ} {p q : Point} (hp : pointInBuffer env b x y = some p)
      (hq : pointInBuffer env b x' y' = some q) : Selectable ⟨p, q, .linear⟩
  | word {x y : ℕ} {p start stop : Point} (hp : pointInBuffer env b x y = some p)
      (hbounds : wordBounds env b p = some (start, stop)) : Selectable ⟨start, stop, .word⟩
  | lines {x y x' y' : ℕ} {p q : Point} (hp : pointInBuffer env b x y = some p)
      (hq : pointInBuffer env b x' y' = some q) : Selectable ⟨p, q, .lines⟩

/-- The symbols that are copied are, row by row, those whose first cells are highlighted, and
nothing is highlighted in other rows. -/
def Copies (selection : Selection) : Prop :=
  ∃ top n, selectedSymbols env b selection = some ((List.range' top n).map fun y =>
    ((leading env b y).filter fun x => selectionContains env b selection ⟨x, y⟩).map
      fun x => b.symbol x y) ∧
    ∀ x y, selectionContains env b selection ⟨x, y⟩ = true → y ∈ List.range' top n

/-- The cells that are highlighted are those of symbols whose first cells are highlighted. -/
def Highlights (selection : Selection) : Prop :=
  ∀ x y, b.area.Contains x y → (selectionContains env b selection ⟨x, y⟩ = true ↔
    ∃ x' ∈ leading env b y, selectionContains env b selection ⟨x', y⟩ = true ∧
      Covers env b y x' x)

/-- The symbols from `start` to `stop` are the maximal run of symbols of one class around `p`. -/
def MaximalRun (p start stop : Point) : Prop :=
  start.y = p.y ∧ stop.y = p.y ∧ ∃ before run after,
    leading env b p.y = before ++ run ++ after ∧ p.x ∈ run ∧
    run.head? = some start.x ∧ run.getLast? = some stop.x ∧
    (∀ x ∈ run, symbolClass env (b.symbol x p.y) = symbolClass env (b.symbol p.x p.y)) ∧
    (∀ x ∈ before.getLast?,
      symbolClass env (b.symbol x p.y) ≠ symbolClass env (b.symbol p.x p.y)) ∧
    ∀ x ∈ after.head?, symbolClass env (b.symbol x p.y) ≠ symbolClass env (b.symbol p.x p.y)

/-- What is highlighted is what is copied, in either direction of a drag, and a word is a maximal
run. -/
structure Faithful : Prop where
  copies : ∀ selection, Selectable env b selection → Copies env b selection
  highlights : ∀ selection, Selectable env b selection → Highlights env b selection
  reversed : ∀ x y x' y' p q, pointInBuffer env b x y = some p →
    pointInBuffer env b x' y' = some q →
    selectedText env b ⟨p, q, .linear⟩ = selectedText env b ⟨q, p, .linear⟩
  words : ∀ x y p, pointInBuffer env b x y = some p →
    ∃ start stop, wordBounds env b p = some (start, stop) ∧ MaximalRun env b p start stop

end Claims

variable {env : Env} {b : Buffer} {selection : Selection} {p q start stop : Point} {x y : ℕ}

/-! ### Windows -/

/-- The highlighted cells of a row are those from `lo` to `z`, and the loop over the row runs from
`lo` to `maxX`. -/
structure Window (env : Env) (b : Buffer) (selection : Selection) (y lo maxX z : ℕ) : Prop where
  lo_mem : lo ∈ leading env b y
  contains_iff : ∀ x, b.area.x ≤ x → x < b.area.x + b.area.width →
    (selectionContains env b selection ⟨x, y⟩ = true ↔ lo ≤ x ∧ x < z)
  maxX_lt : maxX < b.area.x + b.area.width
  le_iff : ∀ x ∈ leading env b y, x ≤ maxX ↔ x < z
  cut : ∀ x ∈ leading env b y, x < z → x + extent env b x y ≤ z

namespace Window

variable {lo maxX z : ℕ}

theorem toEnd (hrow : IsRow env b y (leading env b y)) (hlo : lo ∈ leading env b y)
    (hcontains : ∀ x, b.area.x ≤ x → x < b.area.x + b.area.width →
      (selectionContains env b selection ⟨x, y⟩ = true ↔ lo ≤ x)) :
    Window env b selection y lo (b.area.x + b.area.width - 1) (b.area.x + b.area.width) where
  lo_mem := hlo
  contains_iff x hle hx := (hcontains x hle hx).trans (iff_self_and.mpr fun _ => hx)
  maxX_lt := by
    have := hrow.bounds hlo
    omega
  le_iff x hx := by
    have := hrow.bounds hx
    omega
  cut x hx _ := (hrow.bounds hx).2.2

theorem toSymbol (hrow : IsRow env b y (leading env b y)) (hlo : lo ∈ leading env b y)
    {e : ℕ} (he : e ∈ leading env b y)
    (hcontains : ∀ x, b.area.x ≤ x → x < b.area.x + b.area.width →
      (selectionContains env b selection ⟨x, y⟩ = true ↔ lo ≤ x ∧ x ≤ cellEndX env b e y)) :
    Window env b selection y lo e (e + extent env b e y) where
  lo_mem := hlo
  contains_iff x hle hx := by
    have hpos : 0 < extent env b e y := extent_pos
    rw [hcontains x hle hx, hrow.cellEndX_eq he]
    omega
  maxX_lt := (hrow.bounds he).2.1
  le_iff x hx := by
    have hpos : 0 < extent env b e y := extent_pos
    refine ⟨by omega, fun hlt => ?_⟩
    by_contra hnot
    have := hrow.tiled.end_le he hx (by omega)
    omega
  cut x hx hlt := by
    obtain hxe | rfl | hxe := lt_trichotomy x e
    · have := hrow.tiled.end_le hx he hxe
      omega
    · exact le_rfl
    · have := hrow.tiled.end_le he hx hxe
      omega

theorem rowLoop_eq (hrow : IsRow env b y (leading env b y))
    (h : Window env b selection y lo maxX z) :
    rowLoop env b y maxX (maxX + 2) lo = some (((leading env b y).filter fun x =>
      selectionContains env b selection ⟨x, y⟩).map fun x => b.symbol x y) := by
  obtain ⟨before, after, hsplit⟩ := List.append_of_mem h.lo_mem
  obtain ⟨lo', htiled, -, hbefore⟩ := (hsplit ▸ hrow.tiled).split
  obtain rfl := htiled.eq_head
  have henough : maxX + 2 ≤ lo' + (maxX + 2) := Nat.le_add_left _ _
  have hloop := hrow.rowLoop_tiled htiled (hrow.bounds h.lo_mem).1 h.maxX_lt (Nat.succ_pos _)
    henough fun x hx => hsplit ▸ List.mem_append_right _ hx
  -- In front of `lo` nothing is highlighted, and behind it the two tests agree.
  have hnone : before.filter (fun x => selectionContains env b selection ⟨x, y⟩) = [] := by
    refine List.filter_eq_nil_iff.mpr fun x hx hcontains => ?_
    have hmem : x ∈ leading env b y := hsplit ▸ List.mem_append_left _ hx
    have hle := ((h.contains_iff x (hrow.bounds hmem).1 (hrow.bounds hmem).2.1).mp hcontains).1
    have hpos : 0 < extent env b x y := extent_pos
    have := (hbefore x hx).2
    omega
  have hagree : (lo' :: after).filter (fun x => selectionContains env b selection ⟨x, y⟩) =
      (lo' :: after).filter fun x => x ≤ maxX := by
    refine List.filter_congr fun x hx => ?_
    have hmem : x ∈ leading env b y := hsplit ▸ List.mem_append_right _ hx
    rw [Bool.eq_iff_iff, decide_eq_true_eq,
      h.contains_iff x (hrow.bounds hmem).1 (hrow.bounds hmem).2.1, h.le_iff x hmem]
    exact and_iff_right (htiled.bounds.2 x hx).1
  rw [hloop, hsplit, List.filter_append, hnone, List.nil_append, hagree]

theorem covers_iff (hrow : IsRow env b y (leading env b y))
    (h : Window env b selection y lo maxX z) (hle : b.area.x ≤ x)
    (hlt : x < b.area.x + b.area.width) :
    selectionContains env b selection ⟨x, y⟩ = true ↔
      ∃ x' ∈ leading env b y, selectionContains env b selection ⟨x', y⟩ = true ∧
        Covers env b y x' x := by
  rw [h.contains_iff x hle hlt]
  have hiff (x') (hx' : x' ∈ leading env b y) :=
    h.contains_iff x' (hrow.bounds hx').1 (hrow.bounds hx').2.1
  constructor
  · rintro ⟨hlo, hz⟩
    obtain ⟨x', hx', hcovers⟩ := hrow.tiled.exists_covers hle hlt
    refine ⟨x', hx', (hiff x' hx').mpr ⟨?_, ?_⟩, hcovers⟩
    · by_contra hnot
      have := hrow.tiled.end_le hx' h.lo_mem (not_le.mp hnot)
      have := hcovers.2
      omega
    · exact lt_of_le_of_lt hcovers.1 hz
  · rintro ⟨x', hx', hcontains, hcovers⟩
    obtain ⟨hlo, hz⟩ := (hiff x' hx').mp hcontains
    exact ⟨hlo.trans hcovers.1, hcovers.2.trans_le (h.cut x' hx' hz)⟩

end Window

theorem mapM_eq_some {α β : Type*} {f : α → Option β} {g : α → β} {l : List α}
    (h : ∀ x ∈ l, f x = some (g x)) : l.mapM f = some (l.map g) := by
  induction l with
  | nil => rfl
  | cons x l ih =>
    rw [List.mapM_cons, h x List.mem_cons_self, ih fun x' hx' => h x' (List.mem_cons_of_mem _ hx')]
    rfl

theorem copies_and_highlights (hwf : WellFormed env b)
    (hends : selectionEnds b selection = some (start, stop))
    (hrows : ∀ y, start.y ≤ y → y ≤ stop.y → IsRow env b y (leading env b y) ∧
      ∃ z, Window env b selection y (rowLimits b selection.kind start stop y).1
        (rowLimits b selection.kind start stop y).2 z)
    (hcontains : ∀ x y, selectionContains env b selection ⟨x, y⟩ = true →
      start.y ≤ y ∧ y ≤ stop.y) :
    Copies env b selection ∧ Highlights env b selection := by
  constructor
  · refine ⟨start.y, stop.y + 1 - start.y, ?_, fun x y hxy => ?_⟩
    · rw [selectedSymbols, hends]
      dsimp only [Option.bind_eq_bind, Option.bind_some]
      refine mapM_eq_some fun y hy => ?_
      rw [List.mem_range'_1] at hy
      obtain ⟨hrow, z, hwindow⟩ := hrows y hy.1 (by omega)
      exact hwindow.rowLoop_eq hrow
    · have := hcontains x y hxy
      rw [List.mem_range'_1]
      omega
  · intro x y hxy
    have hright := hwf.right
    obtain ⟨hle, hlt, -, -⟩ := hxy
    rw [saturatingAdd, min_eq_left hright] at hlt
    by_cases hin : start.y ≤ y ∧ y ≤ stop.y
    · obtain ⟨hrow, z, hwindow⟩ := hrows y hin.1 hin.2
      exact hwindow.covers_iff hrow hle hlt
    · refine iff_of_false (fun h => hin (hcontains x y h)) ?_
      rintro ⟨x', -, h, -⟩
      exact hin (hcontains x' y h)

/-! ### Points -/

theorem orderedPoints_comm (p q : Point) : orderedPoints p q = orderedPoints q p := by
  obtain ⟨px, py⟩ := p
  obtain ⟨qx, qy⟩ := q
  simp only [orderedPoints]
  split_ifs with h h'
  · obtain ⟨rfl, rfl⟩ : px = qx ∧ py = qy := by omega
    rfl
  · rfl
  · rfl
  · omega

theorem orderedPoints_y (p q : Point) :
    (orderedPoints p q).1.y = min p.y q.y ∧ (orderedPoints p q).2.y = max p.y q.y := by
  rw [orderedPoints]
  split_ifs
  · constructor <;> dsimp only <;> omega
  · constructor <;> dsimp only <;> omega

theorem exists_orderedPoints (p q : Point) : ∃ start stop, orderedPoints p q = (start, stop) ∧
    start.y ≤ stop.y ∧ ∀ P : Point → Prop, P p → P q → P start ∧ P stop := by
  have hy := orderedPoints_y p q
  obtain ⟨start, stop, hord⟩ : ∃ start stop, orderedPoints p q = (start, stop) := ⟨_, _, rfl⟩
  rw [hord] at hy
  refine ⟨start, stop, hord, by dsimp only at hy; omega, fun P hp hq => ?_⟩
  rw [orderedPoints] at hord
  split_ifs at hord
  · obtain ⟨rfl, rfl⟩ := Prod.mk.inj hord
    exact ⟨hp, hq⟩
  · obtain ⟨rfl, rfl⟩ := Prod.mk.inj hord
    exact ⟨hq, hp⟩

theorem point_spec (hwf : WellFormed env b) (hnarrow : Narrow env b)
    (hp : pointInBuffer env b x y = some p) :
    IsRow env b p.y (leading env b p.y) ∧ p.x ∈ leading env b p.y := by
  have hright := hwf.right
  have hbottom := hwf.bottom
  rw [pointInBuffer] at hp
  dsimp only [Option.bind_eq_bind] at hp
  rw [checkedAdd, if_pos hright, checkedAdd, if_pos hbottom] at hp
  dsimp only [Option.bind_some] at hp
  split_ifs at hp with hout
  obtain rfl := Option.some.inj hp
  have hrow : IsRow env b y (leading env b y) := hwf.isRow (by omega) (by omega)
  obtain ⟨x', hx', hcovers⟩ := hrow.tiled.exists_covers (i := x) (by omega) (by omega)
  refine ⟨hrow, ?_⟩
  dsimp only
  rw [hrow.normalizeWideCellX_of_covers hx' (hnarrow y hrow.top_le hrow.lt_bottom x' hx') hcovers]
  exact hx'

theorem selectionEnds_eq (hwf : WellFormed env b) (hwidth : 0 < b.area.width)
    (hheight : 0 < b.area.height) {kind : SelectionKind} (hkind : kind ≠ .all)
    (hord : orderedPoints p q = (start, stop)) :
    selectionEnds b ⟨p, q, kind⟩ = some (start, stop) := by
  have hright := hwf.right
  have hbottom := hwf.bottom
  rw [selectionEnds, checkedAdd, if_pos hright, checkedAdd, if_pos hbottom]
  dsimp only [Option.bind_eq_bind, Option.bind_some]
  rw [checkedSub, if_pos (by omega), checkedSub, if_pos (by omega)]
  dsimp only [Option.bind_some]
  rw [if_neg hkind, hord]

/-! ### Kinds of selections -/

theorem selectionContains_linear (hord : orderedPoints p q = (start, stop)) :
    selectionContains env b ⟨p, q, .linear⟩ ⟨x, y⟩ = true ↔ (start.y ≤ y ∧ y ≤ stop.y) ∧
      if start.y = stop.y then start.x ≤ x ∧ x ≤ cellEndX env b stop.x stop.y
      else if y = start.y then start.x ≤ x
      else if y = stop.y then x ≤ cellEndX env b stop.x stop.y
      else True := by
  have hy := orderedPoints_y p q
  rw [hord] at hy
  rw [selectionContains, if_neg nofun]
  dsimp only
  rw [hord, ← hy.1, ← hy.2]
  dsimp only
  by_cases hin : start.y ≤ y ∧ y ≤ stop.y
  · rw [if_neg (by omega), and_iff_right hin]
    split_ifs <;> simp
  · rw [if_pos (by omega)]
    simp [hin]

theorem selectionContains_lines (hord : orderedPoints p q = (start, stop)) :
    selectionContains env b ⟨p, q, .lines⟩ ⟨x, y⟩ = true ↔ (start.y ≤ y ∧ y ≤ stop.y) ∧
      b.area.x ≤ x ∧ x < saturatingAdd b.area.x b.area.width := by
  have hy := orderedPoints_y p q
  rw [hord] at hy
  rw [selectionContains, if_neg nofun]
  dsimp only
  rw [← hy.1, ← hy.2]
  dsimp only
  split_ifs with hout
  · simp only [false_iff]
    omega
  · simp only [Bool.and_eq_true, decide_eq_true_eq]
    omega

theorem selectionContains_all :
    selectionContains env b ⟨p, q, .all⟩ ⟨x, y⟩ = true ↔
      (b.area.y ≤ y ∧ y ≤ saturatingAdd b.area.y b.area.height - 1) ∧
        b.area.x ≤ x ∧ x < saturatingAdd b.area.x b.area.width := by
  rw [selectionContains, if_pos rfl]
  dsimp only
  split_ifs with hout
  · simp only [false_iff]
    omega
  · simp only [Bool.and_eq_true, decide_eq_true_eq]
    omega

theorem selectionContains_word (hy : start.y = stop.y) (hx : start.x ≤ stop.x) :
    selectionContains env b ⟨start, stop, .word⟩ ⟨x, y⟩ = true ↔
      y = start.y ∧ start.x ≤ x ∧ x ≤ cellEndX env b stop.x y := by
  rw [selectionContains, if_neg nofun]
  dsimp only
  rw [min_eq_left hx, max_eq_right hx, hy, min_self, max_self]
  split_ifs with hout
  · simp only [false_iff]
    omega
  · simp only [Bool.and_eq_true, decide_eq_true_eq]
    omega

theorem IsRow.first_mem {xs : List ℕ} (h : IsRow env b y xs) (hwidth : 0 < b.area.width) :
    b.area.x ∈ xs := by
  obtain ⟨x', hx', hle, -⟩ := h.tiled.exists_covers (i := b.area.x) le_rfl (by omega)
  have := h.bounds hx'
  obtain rfl : x' = b.area.x := by omega
  exact hx'

theorem Window.full (hrow : IsRow env b y (leading env b y)) (hwidth : 0 < b.area.width)
    (hcontains : ∀ x, b.area.x ≤ x → x < b.area.x + b.area.width →
      (selectionContains env b selection ⟨x, y⟩ = true ↔ b.area.x ≤ x)) :
    Window env b selection y b.area.x (b.area.x + b.area.width - 1)
      (b.area.x + b.area.width) :=
  .toEnd hrow (hrow.first_mem hwidth) hcontains

theorem linear_faithful (hwf : WellFormed env b)
    (hp : IsRow env b p.y (leading env b p.y) ∧ p.x ∈ leading env b p.y)
    (hq : IsRow env b q.y (leading env b q.y) ∧ q.x ∈ leading env b q.y) :
    Copies env b ⟨p, q, .linear⟩ ∧ Highlights env b ⟨p, q, .linear⟩ := by
  obtain ⟨start, stop, hord, hle, hboth⟩ := exists_orderedPoints p q
  obtain ⟨hstart, hstop⟩ := hboth
    (fun p => IsRow env b p.y (leading env b p.y) ∧ p.x ∈ leading env b p.y) hp hq
  have hbounds := hstart.1.bounds hstart.2
  have hwidth : 0 < b.area.width := by omega
  have hheight : 0 < b.area.height := by
    have := hstart.1.top_le
    have := hstart.1.lt_bottom
    omega
  refine copies_and_highlights hwf (selectionEnds_eq hwf hwidth hheight (by simp) hord)
    (fun y htop hbottom => ?_) fun x y h => ((selectionContains_linear hord).mp h).1
  have hrow : IsRow env b y (leading env b y) :=
    hwf.isRow (hstart.1.top_le.trans htop) (hbottom.trans_lt hstop.1.lt_bottom)
  refine ⟨hrow, ?_⟩
  have hcontains (x : ℕ) : selectionContains env b ⟨p, q, .linear⟩ ⟨x, y⟩ = true ↔ _ :=
    selectionContains_linear hord
  rw [rowLimits]
  by_cases hone : start.y = stop.y
  · obtain rfl : y = stop.y := by omega
    simp only [hone, le_refl, and_self, if_true, true_and] at hcontains ⊢
    rw [hone] at hstart
    exact ⟨_, .toSymbol hrow hstart.2 hstop.2 fun x _ _ => hcontains x⟩
  · simp only [if_neg hone, htop, hbottom, and_self, true_and] at hcontains ⊢
    by_cases hfirst : y = start.y
    · simp only [if_pos hfirst] at hcontains ⊢
      exact ⟨_, .toEnd hrow (hfirst ▸ hstart.2) fun x _ _ => hcontains x⟩
    · simp only [if_neg hfirst] at hcontains ⊢
      by_cases hlast : y = stop.y
      · simp only [if_pos hlast] at hcontains ⊢
        refine ⟨_, .toSymbol hrow (hrow.first_mem hwidth) (hlast ▸ hstop.2) fun x hx _ => ?_⟩
        rw [hcontains, and_iff_right hx, hlast]
      · simp only [if_neg hlast, iff_true] at hcontains ⊢
        exact ⟨_, .full hrow hwidth fun x hx _ => iff_of_true (hcontains x) hx⟩

theorem full_faithful (hwf : WellFormed env b) (hwidth : 0 < b.area.width)
    (hends : selectionEnds b selection = some (start, stop)) (htop : b.area.y ≤ start.y)
    (hbottom : stop.y < b.area.y + b.area.height)
    (hlimits : ∀ y, rowLimits b selection.kind start stop y =
      (b.area.x, b.area.x + b.area.width - 1))
    (hcontains : ∀ x y, selectionContains env b selection ⟨x, y⟩ = true ↔
      (start.y ≤ y ∧ y ≤ stop.y) ∧ b.area.x ≤ x ∧ x < saturatingAdd b.area.x b.area.width) :
    Copies env b selection ∧ Highlights env b selection := by
  refine copies_and_highlights hwf hends (fun y hy hy' => ?_) fun x y h => ((hcontains x y).mp h).1
  have hrow : IsRow env b y (leading env b y) := hwf.isRow (htop.trans hy) (hy'.trans_lt hbottom)
  refine ⟨hrow, b.area.x + b.area.width, ?_⟩
  rw [hlimits]
  refine .full hrow hwidth fun x hx hlt => ?_
  rw [hcontains, saturatingAdd, min_eq_left hwf.right]
  exact ⟨fun h => h.2.1, fun h => ⟨⟨hy, hy'⟩, h, hlt⟩⟩

theorem lines_faithful (hwf : WellFormed env b)
    (hp : IsRow env b p.y (leading env b p.y) ∧ p.x ∈ leading env b p.y)
    (hq : IsRow env b q.y (leading env b q.y)) :
    Copies env b ⟨p, q, .lines⟩ ∧ Highlights env b ⟨p, q, .lines⟩ := by
  obtain ⟨start, stop, hord, -, hboth⟩ := exists_orderedPoints p q
  obtain ⟨hstart, hstop⟩ := hboth (fun p => IsRow env b p.y (leading env b p.y)) hp.1 hq
  have hbounds := hp.1.bounds hp.2
  have htop := hp.1.top_le
  have hbottom := hp.1.lt_bottom
  have hwidth : 0 < b.area.width := by omega
  exact full_faithful hwf hwidth (selectionEnds_eq hwf hwidth (by omega) (by simp) hord)
    hstart.top_le hstop.lt_bottom (fun _ => rfl) fun x y => selectionContains_lines hord

theorem word_faithful (hwf : WellFormed env b) (hy : start.y = stop.y)
    (hrow : IsRow env b stop.y (leading env b stop.y)) (hstart : start.x ∈ leading env b stop.y)
    (hstop : stop.x ∈ leading env b stop.y) (hle : start.x ≤ stop.x) :
    Copies env b ⟨start, stop, .word⟩ ∧ Highlights env b ⟨start, stop, .word⟩ := by
  have hbounds := hrow.bounds hstart
  have htop := hrow.top_le
  have hbottom := hrow.lt_bottom
  have hord : orderedPoints start stop = (start, stop) := if_pos (.inr ⟨hy, hle⟩)
  have hends : selectionEnds b ⟨start, stop, .word⟩ = some (start, stop) :=
    selectionEnds_eq hwf (by omega) (by omega) (by simp) hord
  refine copies_and_highlights hwf hends (fun y hy' hy'' => ?_) fun x y h => ?_
  · obtain rfl : y = stop.y := by omega
    refine ⟨hrow, _, .toSymbol hrow hstart hstop fun x _ _ => ?_⟩
    exact (selectionContains_word hy hle).trans (and_iff_right hy.symm)
  · have := ((selectionContains_word hy hle).mp h).1
    omega

theorem selectionEnds_all (hwf : WellFormed env b) (hx : 1 ≤ b.area.x + b.area.width)
    (hy : 1 ≤ b.area.y + b.area.height) :
    selectionEnds b ⟨p, q, .all⟩ = some (⟨b.area.x, b.area.y⟩,
      ⟨b.area.x + b.area.width - 1, b.area.y + b.area.height - 1⟩) := by
  rw [selectionEnds, checkedAdd, if_pos hwf.right, checkedAdd, if_pos hwf.bottom]
  dsimp only [Option.bind_eq_bind, Option.bind_some]
  rw [checkedSub, if_pos hx, checkedSub, if_pos hy]
  rfl

theorem selectedText_of_empty (hwf : WellFormed env b) (hx : 1 ≤ b.area.x + b.area.width)
    (hy : 1 ≤ b.area.y + b.area.height) (hempty : b.area.width = 0 ∨ b.area.height = 0) :
    selectedText env b ⟨p, q, .all⟩ = some [] := by
  have hrows : selectedSymbols env b ⟨p, q, .all⟩ = some ((List.range' b.area.y
      (b.area.y + b.area.height - 1 + 1 - b.area.y)).map fun _ => []) := by
    rw [selectedSymbols, selectionEnds_all hwf hx hy]
    dsimp only [Option.bind_eq_bind, Option.bind_some]
    refine mapM_eq_some fun y hmem => ?_
    rw [List.mem_range'_1] at hmem
    change rowLoop env b y (b.area.x + b.area.width - 1) (b.area.x + b.area.width - 1 + 2)
      b.area.x = _
    rw [rowLoop, if_neg (by omega)]
  have hdrop : ((List.range' b.area.y (b.area.y + b.area.height - 1 + 1 - b.area.y)).map fun _ =>
      ([] : List Char)).rdropWhile List.isEmpty = [] := by
    refine List.rdropWhile_eq_nil_iff.mpr fun row hrow => ?_
    obtain ⟨_, -, rfl⟩ := List.mem_map.mp hrow
    rfl
  rw [selectedText, hrows]
  dsimp only [Option.bind_eq_bind, Option.bind_some]
  rw [if_pos rfl, List.map_map]
  exact congrArg (fun rows => some (['\r', '\n'].intercalate rows)) hdrop

theorem selectAll_spec (hwf : WellFormed env b) (h : selectAll env b = some selection) :
    0 < b.area.width ∧ 0 < b.area.height ∧
      selection = ⟨⟨b.area.x, b.area.y⟩,
        ⟨b.area.x + b.area.width - 1, b.area.y + b.area.height - 1⟩, .all⟩ := by
  rw [selectAll, checkedAdd, if_pos hwf.right, checkedAdd, if_pos hwf.bottom] at h
  obtain ⟨focusX, hfocusX, h⟩ := Option.bind_eq_some_iff.mp h
  obtain ⟨focusY, hfocusY, h⟩ := Option.bind_eq_some_iff.mp h
  rw [Option.bind_some, checkedSub] at hfocusX hfocusY
  split_ifs at hfocusX hfocusY with hx hy
  obtain rfl := Option.some.inj hfocusX
  obtain rfl := Option.some.inj hfocusY
  dsimp only at h
  split_ifs at h with hany
  obtain rfl := Option.some.inj h
  obtain ⟨text, htext, hne⟩ := (Option.any_eq_true _ _).mp hany
  have hnonempty : ¬(b.area.width = 0 ∨ b.area.height = 0) := fun hempty => by
    obtain rfl := Option.some.inj (htext.symm.trans (selectedText_of_empty hwf hx hy hempty))
    exact absurd hne (by decide)
  exact ⟨by omega, by omega, rfl⟩

theorem all_faithful (hwf : WellFormed env b) (h : selectAll env b = some selection) :
    Copies env b selection ∧ Highlights env b selection := by
  obtain ⟨hwidth, hheight, rfl⟩ := selectAll_spec hwf h
  have hright := hwf.right
  have hbottom := hwf.bottom
  refine full_faithful hwf hwidth (selectionEnds_all hwf (by omega) (by omega)) le_rfl
    (by dsimp only; omega) (fun _ => rfl) fun x y => ?_
  have hmin : saturatingAdd b.area.y b.area.height = b.area.y + b.area.height := min_eq_left hbottom
  rw [selectionContains_all, hmin]

/-! ### Words -/

theorem wordBounds_spec (hnarrow : Narrow env b)
    (hp : IsRow env b p.y (leading env b p.y) ∧ p.x ∈ leading env b p.y) :
    ∃ start stop, wordBounds env b p = some (start, stop) ∧ MaximalRun env b p start stop := by
  obtain ⟨hrow, hmem⟩ := hp
  have hnarrow' := hnarrow p.y hrow.top_le hrow.lt_bottom
  have hbounds := hrow.bounds hmem
  obtain ⟨before, after, hsplit⟩ := List.append_of_mem hmem
  obtain ⟨z, htiled, hbefore, -⟩ := (hsplit ▸ hrow.tiled).split
  obtain rfl := htiled.eq_head
  have hafter := htiled.length_le
  rw [List.length_cons] at hafter
  have hfuel : before.length < p.x + 1 := by omega
  have hfuel' : after.length < b.area.width + 1 := by omega
  obtain ⟨outside, run, hrun, hstart, hclass, hout⟩ := hrow.startLoop_run hnarrow' hsplit hfuel
  obtain ⟨run', outside', hrun', hstop, hclass', hout'⟩ := hrow.endLoop_run hsplit hfuel'
  obtain ⟨start, hhead⟩ : ∃ start, (run ++ [p.x]).head? = some start := by
    cases run <;> exact ⟨_, rfl⟩
  obtain ⟨stop, hlast⟩ : ∃ stop, (p.x :: run').getLast? = some stop :=
    ⟨_, List.getLast?_eq_getLast_of_ne_nil (List.cons_ne_nil _ _)⟩
  refine ⟨⟨start, p.y⟩, ⟨stop, p.y⟩, ?_, rfl, rfl, outside, run ++ p.x :: run', outside', ?_, ?_,
    ?_, ?_, ?_, hout, hout'⟩
  · rw [wordBounds, hrow.cellClass_eq hmem, hstart, hhead]
    dsimp only [Option.bind_eq_bind, Option.bind_some]
    rw [hstop, hlast]
    rfl
  · rw [hsplit, hrun, hrun']
    simp
  · simp
  · cases run <;> exact hhead
  · rw [List.getLast?_append, hlast]
    rfl
  · intro x hx
    obtain hx | hx := List.mem_append.mp hx
    · exact hclass x hx
    · obtain rfl | hx := List.mem_cons.mp hx
      · rfl
      · exact hclass' x hx

theorem MaximalRun.faithful (h : MaximalRun env b p start stop) (hwf : WellFormed env b)
    (hrow : IsRow env b p.y (leading env b p.y)) :
    Copies env b ⟨start, stop, .word⟩ ∧ Highlights env b ⟨start, stop, .word⟩ := by
  obtain ⟨hstart, hstop, before, run, after, hsplit, -, hhead, hlast, -⟩ := h
  obtain ⟨rest, rfl⟩ : ∃ rest, run = start.x :: rest := by
    cases run with
    | nil => exact absurd hhead (by simp)
    | cons x rest => exact ⟨rest, congrArg (· :: rest) (Option.some.inj hhead)⟩
  have hlast := List.mem_of_getLast? hlast
  have hmem : ∀ x ∈ start.x :: rest, x ∈ leading env b stop.y := by
    intro x hx
    rw [hstop, hsplit]
    exact List.mem_append_left _ (List.mem_append_right _ hx)
  rw [List.append_assoc] at hsplit
  obtain ⟨z, htiled, -, -⟩ := (hsplit ▸ hrow.tiled).split
  obtain rfl := htiled.eq_head
  exact word_faithful hwf (hstart.trans hstop.symm) (hstop ▸ hrow)
    (hmem _ List.mem_cons_self) (hmem _ hlast)
    (htiled.bounds.2 stop.x (List.mem_append_left _ hlast)).1

theorem selectedText_reversed (p q : Point) :
    selectedText env b ⟨p, q, .linear⟩ = selectedText env b ⟨q, p, .linear⟩ := by
  have hends : selectionEnds b ⟨p, q, .linear⟩ = selectionEnds b ⟨q, p, .linear⟩ := by
    rw [selectionEnds, selectionEnds]
    dsimp only
    rw [orderedPoints_comm]
  rw [selectedText, selectedText, selectedSymbols, selectedSymbols, hends]

/-! ### Wider symbols -/

theorem pointInBuffer_of_wide (hrow : IsRow env b y (leading env b y))
    (hx : x ∈ leading env b y) (hwide : 2 < env.width (b.symbol x y)) :
    pointInBuffer env b (x + 2) y = some ⟨x + 2, y⟩ := by
  have hbounds := hrow.bounds hx
  have htop := hrow.top_le
  have hbottom := hrow.lt_bottom
  have hextent : env.width (b.symbol x y) ≤ extent env b x y := le_max_left _ _
  have hwidth : env.width (b.symbol (x + 1) y) ≤ 1 :=
    hrow.tiled.width_continuation hx (by omega) (by omega)
  have hnormalize : normalizeWideCellX env b (x + 2) y = x + 2 := by
    rw [hrow.normalizeWideCellX_eq (by omega) (by omega)]
    exact if_neg (not_lt.mpr hwidth)
  rw [pointInBuffer]
  dsimp only [Option.bind_eq_bind]
  rw [checkedAdd, if_pos hrow.right, checkedAdd, if_pos hrow.bottom]
  dsimp only [Option.bind_some]
  rw [if_neg (by omega), hnormalize]

theorem le_cellEndX : x ≤ cellEndX env b x y := by
  rw [cellEndX]
  cases b.cell x y with
  | none => exact le_rfl
  | some symbol =>
    rw [Option.bind_some, checkedAdd]
    split_ifs
    · exact Nat.le_add_right _ _
    · exact le_rfl

theorem not_highlights_of_wide (hrow : IsRow env b y (leading env b y))
    (hx : x ∈ leading env b y) (hwide : 2 < env.width (b.symbol x y)) :
    ¬Highlights env b ⟨⟨x + 2, y⟩, ⟨x + 2, y⟩, .linear⟩ := by
  intro h
  have hbounds := hrow.bounds hx
  have hextent : env.width (b.symbol x y) ≤ extent env b x y := le_max_left _ _
  have hcontains (i : ℕ) :
      selectionContains env b ⟨⟨x + 2, y⟩, ⟨x + 2, y⟩, .linear⟩ ⟨i, y⟩ = true ↔ _ :=
    selectionContains_linear (if_pos (.inr ⟨rfl, le_rfl⟩))
  simp only [le_refl, and_self, if_true, true_and] at hcontains
  have hend : x + 2 ≤ cellEndX env b (x + 2) y := le_cellEndX
  obtain ⟨x', hx', hself, hcovers⟩ :=
    (h (x + 2) y (hrow.contains (by omega) (by omega))).mp ((hcontains _).mpr ⟨le_rfl, hend⟩)
  have hle := ((hcontains x').mp hself).1
  have := hrow.tiled.end_le hx hx' (by omega)
  have := hcovers.1
  omega

/-- What is highlighted is what is copied, in either direction of a drag, and words are maximal
runs, if and only if no symbol of the frame takes more than two cells. -/
theorem faithful_iff_narrow (hwf : WellFormed env b) : Faithful env b ↔ Narrow env b := by
  constructor
  · intro h y htop hbottom x hx
    by_contra hwide
    have hrow := hwf.isRow htop hbottom
    have hpoint := pointInBuffer_of_wide hrow hx (not_le.mp hwide)
    exact not_highlights_of_wide hrow hx (not_le.mp hwide)
      (h.highlights _ (.linear hpoint hpoint))
  · intro hnarrow
    have hboth (selection : Selection) (h : Selectable env b selection) :
        Copies env b selection ∧ Highlights env b selection := by
      cases h with
      | all h => exact all_faithful hwf h
      | linear hp hq =>
        exact linear_faithful hwf (point_spec hwf hnarrow hp) (point_spec hwf hnarrow hq)
      | word hp hbounds =>
        have hpoint := point_spec hwf hnarrow hp
        obtain ⟨start, stop, hword, hrun⟩ := wordBounds_spec hnarrow hpoint
        obtain ⟨rfl, rfl⟩ := Prod.mk.inj (Option.some.inj (hbounds.symm.trans hword))
        exact hrun.faithful hwf hpoint.1
      | lines hp hq =>
        exact lines_faithful hwf (point_spec hwf hnarrow hp) (point_spec hwf hnarrow hq).1
    exact ⟨fun selection h => (hboth selection h).1, fun selection h => (hboth selection h).2,
      fun _ _ _ _ p q _ _ => selectedText_reversed p q,
      fun x y p hp => wordBounds_spec hnarrow (point_spec hwf hnarrow hp)⟩

/-! ### Two frames -/

/-- The widths of an ideograph, and of two leading consonants of Hangul in one grapheme. -/
def sampleEnv : Env where
  width symbol := if symbol = ['宽'] then 2 else if symbol = ['ᄀ', 'ᄀ'] then 4 else symbol.length
  isAlphanumeric := Char.isAlphanum

/-- A row that begins with a symbol of the given width, and ends with a letter. -/
def sampleBuffer (symbol : Symbol) (width : ℕ) : Buffer where
  area := ⟨0, 0, width + 1, 1⟩
  symbol x _ := if x = 0 then symbol else if x = width then ['x'] else [' ']

theorem wellFormed_ideograph : WellFormed sampleEnv (sampleBuffer ['宽'] 2) := by
  refine ⟨by decide, by decide, fun y _ hy => ?_, fun y _ hy => ?_⟩ <;>
    obtain rfl : y = 0 := Nat.lt_one_iff.mp hy
  · decide
  · intro x hx i hlt hi
    have hx : x ∈ [0, 2] := hx
    fin_cases hx
    · obtain rfl : i = 1 := by
        have hi : i < 2 := hi
        omega
      decide
    · have hi : i < 3 := hi
      omega

theorem wellFormed_jamo : WellFormed sampleEnv (sampleBuffer ['ᄀ', 'ᄀ'] 4) := by
  refine ⟨by decide, by decide, fun y _ hy => ?_, fun y _ hy => ?_⟩ <;>
    obtain rfl : y = 0 := Nat.lt_one_iff.mp hy
  · decide
  · intro x hx i hlt hi
    have hx : x ∈ [0, 4] := hx
    fin_cases hx
    · have hi : i < 4 := hi
      interval_cases i <;> decide
    · have hi : i < 5 := hi
      omega

/-- With an ideograph in the row, what is highlighted is what is copied. -/
theorem faithful_ideograph : Faithful sampleEnv (sampleBuffer ['宽'] 2) :=
  (faithful_iff_narrow wellFormed_ideograph).mpr fun y _ hy => by
    obtain rfl : y = 0 := Nat.lt_one_iff.mp hy
    decide

/-- With a grapheme that takes four cells in the row, it is not: its third cell can be selected
without the first. -/
theorem not_faithful_jamo :
    WellFormed sampleEnv (sampleBuffer ['ᄀ', 'ᄀ'] 4) ∧ ¬Faithful sampleEnv (sampleBuffer ['ᄀ', 'ᄀ'] 4) := by
  refine ⟨wellFormed_jamo, fun h => ?_⟩
  have hrow := wellFormed_jamo.isRow (y := 0) le_rfl Nat.one_pos
  have hpoint := pointInBuffer_of_wide (x := 0) hrow (by decide) (by decide)
  exact not_highlights_of_wide hrow (by decide) (by decide)
    (h.highlights _ (.linear hpoint hpoint))

end IntelligentTerminal.TextSelection
