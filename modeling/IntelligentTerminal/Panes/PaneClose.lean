import IntelligentTerminal.Panes.Pane
import Mathlib.Algebra.Order.Ring.Rat
import Mathlib.Tactic.NormNum

/-!
# Closing a pane

When a child is closed, the parent object stays in its place and becomes what the sibling is. It
takes over the content of a leaf but not whether it takes broadcast input, and the split of a parent
but not the position of the split. So the rest of the layout is as before exactly when these agree.
-/

namespace IntelligentTerminal.Panes

/-- What matters of a leaf in a layout. -/
structure LeafLayout where
  content : Option PaneContent
  contentId : Option ℕ
  broadcastEnabled : Bool
deriving DecidableEq

namespace Pane

open SplitTree

variable {F : Type*} {t : Pane F} {q : List Bool} {side : Bool} {p : ParentPane F}
  {first second : Pane F}

def leafLayout (p : LeafPane) : LeafLayout where
  content := p.content
  contentId := p.contentId
  broadcastEnabled := p.broadcastEnabled

def layout (t : Pane F) : SplitTree (SplitState × F) LeafLayout :=
  t.map (fun p => (p.splitState, p.desiredSplitPosition)) leafLayout

/-- The sibling is as before when the parent object has become it: a leaf that is still open takes
broadcast input as the parent object does, and the split of a parent has the position of the parent
object's. -/
def Survives (p : ParentPane F) : Pane F → Prop
  | leaf sibling => sibling.content ≠ none ∧ sibling.broadcastEnabled = p.broadcastEnabled
  | SplitTree.split sibling _ _ => sibling.desiredSplitPosition = p.desiredSplitPosition

instance [DecidableEq F] (p : ParentPane F) : DecidablePred (Survives p)
  | leaf sibling => inferInstanceAs (Decidable (_ ∧ sibling.broadcastEnabled = _))
  | SplitTree.split sibling _ _ => inferInstanceAs (Decidable (sibling.desiredSplitPosition = _))

theorem layout_closeChild_iff (hagent : isAgentLeaf (child (!side) first second) = false) :
    layout (closeChild (!side) (SplitTree.split p first second)).1 =
        layout (child (!side) first second) ↔
      Survives p (child (!side) first second) := by
  rw [closeChild]
  cases hsibling : child (!side) first second with
  | leaf sibling =>
    rw [hsibling] at hagent
    have hnot : sibling.isAgentPane = false := hagent
    simp only [hnot, Bool.false_eq_true, if_false]
    cases hcontent : sibling.content with
    | none =>
      refine iff_of_false (fun heq => ?_) fun hsurvives => hsurvives.1 hcontent
      cases side <;> cases heq
    | some content =>
      simp only [layout, SplitTree.map, leafLayout, leaf.injEq, LeafLayout.mk.injEq, hcontent,
        Survives, LeafPane.ofContent, ne_eq, reduceCtorEq, not_false_iff, true_and, eq_comm]
  | split sibling first' second' =>
    simp only [layout, SplitTree.map, SplitTree.split.injEq, Prod.mk.injEq, and_true, true_and,
      Survives, eq_comm]

theorem subtree_layout (t : Pane F) (path : List Bool) :
    (layout t).subtree path = (t.subtree path).map layout :=
  subtree_map _ _ _ _

theorem layout_set (t : Pane F) (path : List Bool) (s : Pane F) :
    layout (t.set path s) = (layout t).set path (layout s) :=
  map_set _ _ _ _ _

theorem layout_set_closeChild_iff (h : t.subtree q = some (SplitTree.split p first second))
    {first' second' : Pane F}
    (hchild : child (!side) first' second' = child (!side) first second)
    (hagent : isAgentLeaf (child (!side) first second) = false) :
    layout (t.set q (closeChild (!side) (SplitTree.split p first' second')).1) =
        (layout t).remove (q ++ [side]) ↔
      Survives p (child (!side) first second) := by
  have hlayout : (layout t).subtree q = some (SplitTree.split
      (p.splitState, p.desiredSplitPosition) (layout first) (layout second)) := by
    rw [subtree_layout, h]
    rfl
  have hsibling : child (!side) (layout first) (layout second) =
      layout (child (!side) first second) := by
    cases side <;> rfl
  rw [remove_eq_set hlayout, layout_set, set_inj hlayout, hsibling, ← hchild]
  exact layout_closeChild_iff (by rw [hchild]; exact hagent)

theorem layout_detachPane_iff (h : t.subtree q = some (SplitTree.split p first second))
    (hagent : isAgentLeaf (child (!side) first second) = false) :
    ∃ t' raised, detachPane t (q ++ [side]) = some (t', child side first second, raised) ∧
      (layout t' = (layout t).remove (q ++ [side]) ↔ Survives p (child (!side) first second)) :=
  ⟨_, _, detachPane_eq h side, layout_set_closeChild_iff h rfl hagent⟩

theorem layout_closePane_iff (h : t.subtree q = some (SplitTree.split p first second))
    (hagent : isAgentLeaf (child (!side) first second) = false) :
    ∃ t' raised, closePane t (q ++ [side]) = some (t', raised) ∧
      (layout t' = (layout t).remove (q ++ [side]) ↔ Survives p (child (!side) first second)) := by
  have hclosed : t.subtree (q ++ [side]) = some (child side first second) := by
    rw [subtree_append, h, Option.bind_some]
    cases side <;> exact subtree_nil _
  -- the closed child is still in the tree when its parent handles `Closed`
  obtain ⟨first', second', hchild, hsplit⟩ : ∃ first' second' : Pane F,
      child (!side) first' second' = child (!side) first second ∧
        (SplitTree.split p first second).set [side] (closeContent (child side first second)) =
          SplitTree.split p first' second' := by
    cases side with
    | false => exact ⟨closeContent first, second, rfl, congrArg (SplitTree.split p · second)
        (set_nil _ _)⟩
    | true => exact ⟨first, closeContent second, rfl, congrArg (SplitTree.split p first)
        (set_nil _ _)⟩
  have hset : t.set (q ++ [side]) (closeContent (child side first second)) =
      t.set q (SplitTree.split p first' second') := by
    rw [set_append h, hsplit]
  refine ⟨t.set q (closeChild (!side) (SplitTree.split p first' second')).1,
    (closeChild (!side) (SplitTree.split p first' second')).2, ?_,
    layout_set_closeChild_iff h hchild hagent⟩
  rw [closePane, hclosed, Option.bind_some, hset, detachPane_eq (subtree_set h _) side,
    Option.map_some, set_set]

/-! ### Splitting and closing again -/

/-- A pane that is split with a new pane of this size is as before when the new pane is closed: a
leaf that is open, and a parent whose split has the position of the new split. -/
def Restores [One F] [Sub F] (splitSize : F) : Pane F → Prop
  | leaf p => p.content ≠ none
  | SplitTree.split p _ _ => p.desiredSplitPosition = 1 - splitSize

theorem layout_splitOff (t : Pane F) : layout (splitOff t) = layout t := by
  cases t with
  | leaf p => rfl
  | split p first second => rfl

variable [One F] [Sub F]

theorem splitPane_eq (wider : Bool) (direction : SplitDirection) (splitSize : F)
    (newPane pane : Pane F) : ∃ (parent : ParentPane F) (first second : Pane F),
    splitPane wider direction splitSize newPane pane = SplitTree.split parent first second ∧
      parent.broadcastEnabled = (base pane).broadcastEnabled ∧
      parent.desiredSplitPosition = 1 - splitSize ∧
      child (!isLeading direction) first second = newPane ∧
      child (isLeading direction) first second = splitOff pane := by
  rw [splitPane]
  cases hleading : isLeading direction with
  | false => exact ⟨_, _, _, rfl, rfl, rfl, rfl, rfl⟩
  | true => exact ⟨_, _, _, rfl, rfl, rfl, rfl, rfl⟩

theorem layout_split_detach_iff {pane : Pane F} (h : t.subtree q = some pane)
    (hagent : isAgentLeaf pane = false) (wider : Bool) (direction : SplitDirection) (splitSize : F)
    (newPane : Pane F) :
    ∃ t' raised, detachPane (t.set q (splitPane wider direction splitSize newPane pane))
        (q ++ [!isLeading direction]) = some (t', newPane, raised) ∧
      (layout t' = layout t ↔ Restores splitSize pane) := by
  obtain ⟨parent, first, second, hsplit, hbroadcast, hposition, hnew, hold⟩ :=
    splitPane_eq wider direction splitSize newPane pane
  have hsubtree := subtree_set h (SplitTree.split parent first second)
  have hdetach := detachPane_eq hsubtree (!isLeading direction)
  rw [set_set, hnew] at hdetach
  rw [hsplit]
  refine ⟨_, _, hdetach, ?_⟩
  have hlayout : (layout t).subtree q = some (layout pane) := by
    rw [subtree_layout, h]
    rfl
  have hsibling : isAgentLeaf (child (!!isLeading direction) first second) = false := by
    rw [Bool.not_not, hold]
    cases pane with
    | leaf p =>
      have hcontent : ∀ c, p.content = some c → c.isAgent = false := fun c hc =>
        (p.agent c hc).symm.trans hagent
      cases hp : p.content with
      | none => simp [splitOff, isAgentLeaf, LeafPane.ofContent, hp]
      | some c => simpa [splitOff, isAgentLeaf, LeafPane.ofContent, hp] using hcontent c hp
    | split => rfl
  have hiff := layout_closeChild_iff (p := parent) hsibling
  rw [Bool.not_not, hold, layout_splitOff] at hiff
  rw [layout_set, Bool.not_not]
  refine Iff.trans ?_ (hiff.trans ?_)
  · nth_rewrite 2 [← set_subtree hlayout]
    exact set_inj hlayout
  · cases pane with
    | leaf p =>
      refine ⟨fun hsurvives => hsurvives.1, fun hcontent => ⟨hcontent, ?_⟩⟩
      exact hbroadcast.symm
    | split p first' second' =>
      change p.desiredSplitPosition = parent.desiredSplitPosition ↔ _
      rw [hposition]
      rfl

end Pane

open Pane SplitTree

/-- Closing or detaching a pane leaves the rest of the layout as it was exactly if the sibling
survives, and a pane that is split and closed again restores the layout exactly if it is an open
leaf or its split has the position of the new one. -/
theorem closing_keeps_layout_iff {F : Type*} [One F] [Sub F] {t : Pane F} {q : List Bool} :
    (∀ (p : ParentPane F) (first second : Pane F) (side : Bool),
      t.subtree q = some (SplitTree.split p first second) →
      isAgentLeaf (child (!side) first second) = false →
      (∃ t' raised, detachPane t (q ++ [side]) = some (t', child side first second, raised) ∧
        (Pane.layout t' = (Pane.layout t).remove (q ++ [side]) ↔
          Survives p (child (!side) first second))) ∧
      ∃ t' raised, closePane t (q ++ [side]) = some (t', raised) ∧
        (Pane.layout t' = (Pane.layout t).remove (q ++ [side]) ↔
          Survives p (child (!side) first second))) ∧
    ∀ (pane newPane : Pane F) (wider : Bool) (direction : SplitDirection) (splitSize : F),
      t.subtree q = some pane → isAgentLeaf pane = false →
      ∃ t' raised, detachPane (t.set q (splitPane wider direction splitSize newPane pane))
          (q ++ [!isLeading direction]) = some (t', newPane, raised) ∧
        (Pane.layout t' = Pane.layout t ↔ Restores splitSize pane) :=
  ⟨fun _ _ _ _ h hagent => ⟨layout_detachPane_iff h hagent, layout_closePane_iff h hagent⟩,
    fun _ newPane wider direction splitSize h hagent =>
      layout_split_detach_iff h hagent wider direction splitSize newPane⟩

/-- Three shells, the second and third of them in a split of their own. When the first one is
detached and that split has the position of the whole, the layout is kept. -/
theorem closing_keeps_layout_even :
    let shell : String → Pane ℚ := fun settings =>
      leaf (LeafPane.ofContent (some (.terminal settings none)))
    let inner : Pane ℚ := SplitTree.split
      { splitState := .horizontal, desiredSplitPosition := 1 / 2 } (shell "two") (shell "three")
    let t : Pane ℚ := SplitTree.split
      { splitState := .vertical, desiredSplitPosition := 1 / 2 } (shell "one") inner
    ∃ t' raised, detachPane t [false] = some (t', shell "one", raised) ∧
      Pane.layout t' = Pane.layout inner := by
  intro shell inner t
  obtain ⟨t', raised, hdetach, hiff⟩ :=
    ((closing_keeps_layout_iff (t := t) (q := [])).1 _ _ _ false rfl rfl).1
  exact ⟨t', raised, hdetach, hiff.mpr rfl⟩

/-- When that split has another position, it gets the one of the whole. -/
theorem closing_not_keeps_layout :
    let shell : String → Pane ℚ := fun settings =>
      leaf (LeafPane.ofContent (some (.terminal settings none)))
    let inner : Pane ℚ := SplitTree.split
      { splitState := .horizontal, desiredSplitPosition := 3 / 10 } (shell "two") (shell "three")
    let t : Pane ℚ := SplitTree.split
      { splitState := .vertical, desiredSplitPosition := 1 / 2 } (shell "one") inner
    (detachPane t [false]).map (fun detached => Pane.layout detached.1) =
        some (SplitTree.split (.horizontal, 1 / 2) (Pane.layout (shell "two")) (Pane.layout (shell "three"))) ∧
      (detachPane t [false]).map (fun detached => Pane.layout detached.1) ≠
        some ((Pane.layout t).remove [false]) := by
  intro shell inner t
  refine ⟨rfl, fun heq => ?_⟩
  have hsplit : (1 / 2 : ℚ) = 3 / 10 := by
    injection heq with heq
    injection heq with heq
    injection heq
  norm_num at hsplit

end IntelligentTerminal.Panes
