import Mathlib
import IntelligentTerminal.Panes.StartupActions

/-!
# A saved layout makes the tree again

The actions of a layout are a program without a stack for a machine that has a tree and a focused
leaf. The actions of a subtree, started at the leaf that is its first pane, make the subtree there
and end at its last leaf. So the previous leaf of a new pane is the first pane of the first subtree,
and the next leaf of the end of the first subtree is the new pane.

A sketch is what a layout says of a tree: the splits, and for each leaf what it is made from and the
number of panes that were made before it.
-/

namespace IntelligentTerminal.Panes

open SplitTree

variable {F : Type*}

/-! ### Moving the focus along the leaves -/

namespace Pane

/-- No pane of the tree is hidden. -/
def Shown : Pane F → Prop
  | leaf p => p.hidden = false
  | SplitTree.split p first second => p.hidden = false ∧ Shown first ∧ Shown second

variable {l : List (List Bool × Bool)} {pre post : List (List Bool)} {q : List Bool} {t : Pane F}

theorem walkTree_eq (h : Shown t) : walkTree t = t.nodes := by
  induction t with
  | leaf p => exact if_neg (by rw [show p.hidden = false from h]; exact Bool.false_ne_true)
  | split p first second ih ih' =>
    rw [walkTree, if_neg (by rw [h.1]; exact Bool.false_ne_true), ih h.2.1, ih' h.2.2]
    rfl

variable {target : List Bool} {q q' : List Bool} {p : LeafPane} {t s : Pane F}

theorem nextLoop_of_found (h : ∀ e ∈ l, ¬target <+: e.1)
    (firstLeaf : Option (List Bool)) :
    nextLoop target l firstLeaf true =
      ((l.filterMap fun e => if e.2 then some e.1 else none).head?).or firstLeaf := by
  induction l with
  | nil => rfl
  | cons e l ih =>
    obtain ⟨path, isLeaf⟩ := e
    have hpath : decide (target <+: path) = false :=
      decide_eq_false (h _ List.mem_cons_self)
    rw [nextLoop]
    simp only [hpath, Bool.true_and, Bool.false_and, Bool.false_eq_true, if_false]
    cases isLeaf with
    | true => rfl
    | false =>
      simp only [Bool.false_eq_true, if_false, Option.or_none, Bool.true_or]
      rw [ih fun e he => h e (List.mem_cons_of_mem _ he)]
      rfl

theorem nextLoop_append (h : ∀ e ∈ l, e.1 ≠ target)
    (rest : List (List Bool × Bool)) (firstLeaf : Option (List Bool)) :
    ∃ firstLeaf', nextLoop target (l ++ rest) firstLeaf false =
      nextLoop target rest firstLeaf' false := by
  induction l generalizing firstLeaf with
  | nil => exact ⟨firstLeaf, rfl⟩
  | cons e l ih =>
    obtain ⟨path, isLeaf⟩ := e
    have hpath : decide (path = target) = false := decide_eq_false (h _ List.mem_cons_self)
    obtain ⟨firstLeaf', hrest⟩ := ih (fun e he => h e (List.mem_cons_of_mem _ he))
      (firstLeaf.or (if isLeaf then some path else none))
    refine ⟨firstLeaf', ?_⟩
    rw [← hrest, List.cons_append, nextLoop]
    simp only [Bool.false_and, Bool.false_eq_true, if_false, hpath, Bool.or_self]

theorem previousLoop_append (h : ∀ e ∈ l, e.1 ≠ target)
    (rest : List (List Bool × Bool)) (lastLeaf : Option (List Bool)) :
    previousLoop target (l ++ rest) lastLeaf false = previousLoop target rest
      ((l.filterMap fun e => if e.2 then some e.1 else none).getLast?.or lastLeaf) false := by
  induction l generalizing lastLeaf with
  | nil => rfl
  | cons e l ih =>
    obtain ⟨path, isLeaf⟩ := e
    have hpath : path ≠ target := h _ List.mem_cons_self
    rw [List.cons_append, previousLoop, if_neg (fun hand => hpath hand.1), decide_eq_false hpath,
      Bool.or_self, ih fun e he => h e (List.mem_cons_of_mem _ he)]
    cases isLeaf with
    | false => rfl
    | true =>
      change _ = previousLoop target rest ((path :: l.filterMap _).getLast?.or lastLeaf) false
      rw [List.getLast?_cons]
      cases (l.filterMap fun e => if e.2 then some e.1 else none).getLast? <;> rfl

theorem nodes_eq_of_leafPaths_eq
    (h : t.leafPaths = pre ++ q :: post) :
    ∃ l l', t.nodes = l ++ (q, true) :: l' ∧
      l.filterMap (fun e => if e.2 then some e.1 else none) = pre ∧
      l'.filterMap (fun e => if e.2 then some e.1 else none) = post ∧
      (∀ e ∈ l, e.1 ≠ q) ∧ ∀ e ∈ l', ¬q <+: e.1 := by
  rw [← filterMap_nodes, List.filterMap_eq_append_iff] at h
  obtain ⟨l, l', hnodes, hpre, hrest⟩ := h
  rw [List.filterMap_eq_cons_iff] at hrest
  obtain ⟨skipped, ⟨path, isLeaf⟩, l'', hl', hskipped, hleaf, hpost⟩ := hrest
  have hq : isLeaf = true ∧ path = q := by
    cases isLeaf with
    | false => cases hleaf
    | true => exact ⟨rfl, Option.some.inj hleaf⟩
  obtain ⟨rfl, rfl⟩ := hq
  have hall : t.nodes = (l ++ skipped) ++ (path, true) :: l'' := by
    rw [hnodes, hl', List.append_assoc]
  have hnodup := nodup_nodes t
  rw [hall, List.map_append, List.map_cons] at hnodup
  obtain ⟨-, hcons, hdisjoint⟩ := List.nodup_append.mp hnodup
  have hmem : path ∈ t.leafPaths := by
    rw [← filterMap_nodes, hall]
    simp
  obtain ⟨a, ha⟩ := mem_leafPaths_iff.mp hmem
  refine ⟨l ++ skipped, l'', hall, ?_, hpost, fun e he heq => ?_, fun e he hprefix => ?_⟩
  · rw [List.filterMap_append, hpre, List.filterMap_eq_nil_iff.mpr hskipped, List.append_nil]
  · exact hdisjoint e.1 (List.mem_map_of_mem he) path List.mem_cons_self heq
  · have heq := eq_of_isPrefix_of_mem_nodes ha
      (hall ▸ List.mem_append_right _ (List.mem_cons_of_mem _ he)) hprefix
    have hmem' := List.mem_map_of_mem (f := Prod.fst) he
    rw [heq] at hmem'
    exact (List.nodup_cons.mp hcons).1 hmem'

theorem nextPane_eq (hshown : Shown t) (h : t.leafPaths = pre ++ q :: q' :: post) :
    nextPane t q = some q' := by
  obtain ⟨l, l', hnodes, -, hpost, hbefore, hafter⟩ := nodes_eq_of_leafPaths_eq h
  have hparent : t.isLeaf = false := isLeaf_eq_false h
  rw [nextPane, hparent, if_neg Bool.false_ne_true, walkTree_eq hshown, hnodes]
  obtain ⟨firstLeaf, heq⟩ := nextLoop_append hbefore ((q, true) :: l') none
  rw [heq, nextLoop]
  simp only [Bool.false_and, Bool.false_eq_true, if_false, decide_true, Bool.or_true, if_true]
  rw [nextLoop_of_found hafter, hpost]
  rfl

theorem previousPane_eq (hshown : Shown t) (h : t.leafPaths = pre ++ q :: q' :: post) :
    previousPane t q' = some q := by
  have hparent : t.isLeaf = false := isLeaf_eq_false h
  rw [List.append_cons] at h
  obtain ⟨l, l', hnodes, hpre, -, hbefore, -⟩ := nodes_eq_of_leafPaths_eq h
  rw [previousPane, hparent, if_neg Bool.false_ne_true, walkTree_eq hshown, hnodes,
    previousLoop_append hbefore, hpre, List.getLast?_concat]
  exact if_pos ⟨rfl, rfl⟩

/-! ### The focused leaf -/

theorem map_setActive {D A : Type*} {f : ParentPane F → D} {g : LeafPane → A}
    (hf : ∀ p b, f { p with lastActive := b } = f p)
    (hg : ∀ p b, g { p with lastActive := b } = g p) (t : Pane F) (q : List Bool) :
    (setActive t q).map f g = t.map f g := by
  have hclear : (clearActive t).map f g = t.map f g := by
    rw [clearActive, map_map]
    congr 1
    · exact funext fun p => hf p false
    · exact funext fun p => hg p false
  rw [setActive]
  cases hsub : (clearActive t).subtree q with
  | none => exact hclear
  | some active =>
    have hactive : (modifyBase (fun b => { b with lastActive := true }) active).map f g =
        active.map f g := by
      cases active with
      | leaf p => exact congrArg leaf (hg p true)
      | split p first second =>
        exact congrArg (SplitTree.split · (first.map f g) (second.map f g)) (hf p true)
    simp only
    rw [map_set, hactive, hclear, set_subtree]
    rw [← hclear, subtree_map, hsub]
    rfl

theorem setActive_setActive (t : Pane F) (q q' : List Bool) :
    setActive (setActive t q) q' = setActive t q' := by
  have hclear : clearActive (setActive t q) = clearActive t :=
    map_setActive (fun _ _ => rfl) (fun _ _ => rfl) t q
  rw [setActive.eq_1 (setActive t q) q', hclear]
  rfl

theorem leafPaths_setActive (t : Pane F) (q : List Bool) :
    (setActive t q).leafPaths = t.leafPaths := by
  have hmap := map_setActive (D := Unit) (A := Unit) (f := fun _ => ()) (g := fun _ => ())
    (fun _ _ => rfl) (fun _ _ => rfl) t q
  rw [← leafPaths_map (fun _ => ()) (fun _ => ()) (setActive t q), hmap, leafPaths_map]

theorem Shown.of_map_eq {t t' : Pane F} (ht' : Shown t')
    (h : t.map (fun p => p.hidden) (fun p => p.hidden) =
      t'.map (fun p => p.hidden) (fun p => p.hidden)) : Shown t := by
  induction t generalizing t' with
  | leaf p =>
    cases t' with
    | leaf p' => exact (leaf.inj h).trans ht'
    | split p' first second => cases h
  | split p first second ih ih' =>
    cases t' with
    | leaf p' => cases h
    | split p' first' second' =>
      obtain ⟨hp, hfirst, hsecond⟩ := (SplitTree.split.injEq ..).mp h
      exact ⟨hp.trans ht'.1, ih ht'.2.1 hfirst, ih' ht'.2.2 hsecond⟩

theorem hasFocusedChild_set (h : t.subtree q = some s) (hactive : p.lastActive = true) :
    hasFocusedChild (t.set q (leaf p)) = true := by
  induction q generalizing t with
  | nil =>
    rw [set_nil]
    exact hactive
  | cons side q ih =>
    cases t with
    | leaf a => cases h
    | split p' first second =>
      cases side with
      | false => simp [SplitTree.set, hasFocusedChild, ih (t := first) h]
      | true => simp [SplitTree.set, hasFocusedChild, ih (t := second) h]

theorem split_set [One F] [Sub F]
    (hunfocused : hasFocusedChild t = false) (h : t.subtree q = some s)
    (hactive : p.lastActive = true) (hagent : p.isAgentPane = false) (wider : Bool)
    (direction : SplitDirection) (splitSize : F) (newPane : Pane F) :
    split wider direction splitSize newPane (t.set q (leaf p)) =
      some (t.set q (splitPane wider direction splitSize newPane (leaf p)),
        q ++ [!isLeading direction]) := by
  induction q generalizing t with
  | nil =>
    rw [set_nil, set_nil, split, hactive, hagent]
    rfl
  | cons side q ih =>
    cases t with
    | leaf a => cases h
    | split p' first second =>
      simp only [hasFocusedChild, Bool.or_eq_false_iff] at hunfocused
      obtain ⟨⟨hp', hfirst⟩, hsecond⟩ := hunfocused
      cases side with
      | false =>
        have hfocused := hasFocusedChild_set (t := first) h hactive
        rw [SplitTree.set, split, hp', if_neg Bool.false_ne_true, if_pos hfocused, ih hfirst h]
        rfl
      | true =>
        have hfocused := hasFocusedChild_set (t := second) h hactive
        rw [SplitTree.set, split, hp', if_neg Bool.false_ne_true, hfirst, if_neg Bool.false_ne_true,
          if_pos hfocused, ih hsecond h]
        rfl

end Pane

/-! ### Sketches -/

/-- What a layout says of a tree: of a leaf what it is made from, and how many panes were made
before it. -/
abbrev Sketch (F : Type*) := SplitTree (SplitState × F) (Option NewContentArgs × ℕ)

namespace Sketch

def toLeafPane (a : Option NewContentArgs × ℕ) : LeafPane :=
  { LeafPane.ofArgs a.1 with id := some a.2 }

/-- The tree of panes that has no focus. -/
def toPane (T : Sketch F) : Pane F :=
  T.map (fun d => { splitState := d.1, desiredSplitPosition := d.2 }) toLeafPane

/-- No leaf is an agent pane. -/
def Ordinary (T : Sketch F) : Prop := ∀ a ∈ T.leaves, a.1.any (·.type.isPaneType) = false

/-- A tab whose panes are those of a sketch, with the focus at a path. -/
def toTab (T : Sketch F) (q : List Bool) (nextPaneId : ℕ) : Tab F where
  rootPane := Pane.setActive T.toPane q
  activePane := q
  nextPaneId := nextPaneId

variable {T : Sketch F} {q : List Bool} {a : Option NewContentArgs × ℕ}

theorem subtree_toPane (h : T.subtree q = some (leaf a)) :
    T.toPane.subtree q = some (leaf (toLeafPane a)) := by
  rw [toPane, subtree_map, h]
  rfl

theorem toPane_set (T : Sketch F) (q : List Bool) (S : Sketch F) :
    toPane (T.set q S) = T.toPane.set q (toPane S) :=
  map_set _ _ T q S

theorem clearActive_toPane (T : Sketch F) : Pane.clearActive T.toPane = T.toPane :=
  map_map _ _ _ _ T

theorem hasFocusedChild_toPane (T : Sketch F) : Pane.hasFocusedChild T.toPane = false := by
  induction T with
  | leaf a => rfl
  | split d first second ih ih' =>
    change (false || Pane.hasFocusedChild (toPane first) || Pane.hasFocusedChild (toPane second)) =
      false
    rw [ih, ih']
    rfl

theorem setActive_toPane (h : T.subtree q = some (leaf a)) :
    Pane.setActive T.toPane q =
      T.toPane.set q (leaf { toLeafPane a with lastActive := true }) := by
  rw [Pane.setActive, clearActive_toPane, subtree_toPane h]
  rfl

theorem isAgentPane_toLeafPane (h : a.1.any (·.type.isPaneType) = false) :
    (toLeafPane a).isAgentPane = false ∧ (toLeafPane a).hidden = false := by
  obtain ⟨args, id⟩ := a
  cases args with
  | none => exact ⟨rfl, rfl⟩
  | some args =>
    obtain ⟨type, settings⟩ := args
    cases type with
    | terminal => exact ⟨rfl, rfl⟩
    | other name => exact ⟨rfl, rfl⟩
    | agent => cases h
    | agentStashed => cases h

theorem splitOff_toLeafPane (h : a.1.any (·.type.isPaneType) = false) (b : Bool) :
    (Pane.splitOff (leaf { toLeafPane a with lastActive := b }) : Pane F) =
        leaf { toLeafPane a with id := none } ∧
      ({ (toLeafPane a).toPaneBase with lastActive := false } : PaneBase) = {} := by
  obtain ⟨args, id⟩ := a
  cases args with
  | none => exact ⟨rfl, rfl⟩
  | some args =>
    obtain ⟨type, settings⟩ := args
    cases type with
    | terminal => exact ⟨rfl, rfl⟩
    | other name => exact ⟨rfl, rfl⟩
    | agent => cases h
    | agentStashed => cases h

theorem Ordinary.of_subtree (h : T.Ordinary) (hsub : T.subtree q = some (leaf a)) :
    (toLeafPane a).isAgentPane = false :=
  (isAgentPane_toLeafPane (h a (mem_leaves_iff.mpr ⟨q, hsub⟩))).1

theorem Ordinary.shown (h : T.Ordinary) : Pane.Shown T.toPane := by
  induction T with
  | leaf a => exact (isAgentPane_toLeafPane (h a (List.mem_singleton_self a))).2
  | split d first second ih ih' =>
    exact ⟨rfl, ih fun a ha => h a (List.mem_append_left _ ha),
      ih' fun a ha => h a (List.mem_append_right _ ha)⟩

theorem leafPaths_setActive_toPane (T : Sketch F) (q : List Bool) :
    (Pane.setActive T.toPane q).leafPaths = T.leafPaths :=
  (Pane.leafPaths_setActive _ _).trans (leafPaths_map _ _ T)

theorem Ordinary.shown_setActive (h : T.Ordinary) (q : List Bool) :
    Pane.Shown (Pane.setActive T.toPane q) :=
  h.shown.of_map_eq (Pane.map_setActive (fun _ _ => rfl) (fun _ _ => rfl) _ q)

theorem clearActive_splitOff (hordinary : T.Ordinary) {t : Pane F}
    (h : Pane.clearActive t = T.toPane) :
    Pane.clearActive (Pane.setId (Pane.id? t) (Pane.splitOff t)) = T.toPane ∧
      ({ Pane.base t with lastActive := false } : PaneBase) = {} := by
  cases T with
  | leaf a =>
    cases t with
    | leaf p =>
      have hp : p = { toLeafPane a with lastActive := p.lastActive } := by
        rw [← leaf.inj h]
      obtain ⟨hsplitOff, hbase⟩ := splitOff_toLeafPane (F := F)
        (hordinary a (List.mem_singleton_self a)) p.lastActive
      rw [hp, hsplitOff]
      exact ⟨rfl, hbase⟩
    | split p first second => cases h
  | split d first' second' =>
    cases t with
    | leaf p => cases h
    | split p first second =>
      obtain ⟨hp, hfirst, hsecond⟩ := (SplitTree.split.injEq ..).mp h
      refine ⟨?_, congrArg ParentPane.toPaneBase hp⟩
      rw [← h]
      refine (SplitTree.split.injEq ..).mpr ⟨?_, rfl, rfl⟩
      have hbase : ({ p.toPaneBase with lastActive := false } : PaneBase) = {} :=
        congrArg ParentPane.toPaneBase hp
      exact congrArg (ParentPane.mk · p.splitState p.desiredSplitPosition) hbase.symm

theorem Ordinary.set (h : T.Ordinary) {s S : Sketch F} (hsub : T.subtree q = some s)
    (hS : S.Ordinary) : Ordinary (SplitTree.set T q S) := by
  obtain ⟨pre, post, hset⟩ := leaves_set hsub
  rw [Ordinary, ← set_subtree hsub, hset] at h
  intro a ha
  rw [hset] at ha
  simp only [List.mem_append] at ha h
  rcases ha with (ha | ha) | ha
  · exact h a (.inl (.inl ha))
  · exact hS a ha
  · exact h a (.inr ha)

theorem ordinary_split {d : SplitState × F} {A : Sketch F} (hA : A.Ordinary)
    {b : Option NewContentArgs × ℕ} (hb : b.1.any (·.type.isPaneType) = false) :
    Ordinary (SplitTree.split d A (leaf b)) := fun a ha => by
  rcases List.mem_append.mp ha with ha | ha
  · exact hA a ha
  · rw [List.mem_singleton.mp ha]
    exact hb

/-! ### Actions on a sketch -/

variable [One F] [Sub F]
  {args : Option NewContentArgs} {direction : SplitDirection} {pre post : List (List Bool)}
  {q' : List Bool}

theorem exec_splitPane (hordinary : T.Ordinary) (hsub : T.subtree q = some (leaf a))
    (htrailing : Pane.isLeading direction = false) (hargs : args.any (·.type.isPaneType) = false)
    (wider : Bool) (splitSize : F) (n : ℕ) :
    (T.toTab q n).exec wider (.splitPane direction splitSize args) =
      some (toTab (T.set q (SplitTree.split (Pane.convertSplitState wider direction, 1 - splitSize)
        (leaf a) (leaf (args, n)))) (q ++ [true]) (n + 1)) := by
  have hroot := setActive_toPane hsub
  have hpane := subtree_toPane hsub
  obtain ⟨holdPane, hbase⟩ := splitOff_toLeafPane (F := F)
    (hordinary a (mem_leaves_iff.mpr ⟨q, hsub⟩)) true
  have hsplitPane : Pane.splitPane wider direction splitSize (leaf (toLeafPane (args, n)))
      (leaf { toLeafPane a with lastActive := true }) = SplitTree.split
        { splitState := Pane.convertSplitState wider direction
          desiredSplitPosition := 1 - splitSize : ParentPane F }
        (leaf { toLeafPane a with id := none }) (leaf (toLeafPane (args, n))) := by
    rw [Pane.splitPane, htrailing, if_neg Bool.false_ne_true, holdPane]
    exact congrArg (SplitTree.split · _ _) (congrArg (ParentPane.mk · _ _) hbase)
  have hsplit := Pane.split_set (hasFocusedChild_toPane T) hpane
    (p := { toLeafPane a with lastActive := true }) rfl (hordinary.of_subtree hsub) wider direction
    splitSize (leaf (toLeafPane (args, n)))
  rw [htrailing, hsplitPane] at hsplit
  have hid : ((T.toPane.set q (leaf { toLeafPane a with lastActive := true })).subtree q).bind
      Pane.id? = some a.2 := by
    rw [subtree_set hpane]
    rfl
  have horiginal : ∀ u : Pane F, (T.toPane.set q u).subtree (q ++ [false]) = u.subtree [false] :=
    fun u => by rw [subtree_append, subtree_set hpane, Option.bind_some]
  have hset : ∀ u u' : Pane F, (T.toPane.set q u).set (q ++ [false]) u' =
      T.toPane.set q (u.set [false] u') :=
    fun u u' => by rw [set_append (subtree_set hpane u), set_set]
  rw [Tab.exec, hargs, if_neg Bool.false_ne_true, Tab.splitPane]
  simp only [toTab, hroot, hid]
  rw [show (leaf { LeafPane.ofArgs args with id := some n } : Pane F) =
    leaf (toLeafPane (args, n)) from rfl, hsplit, Option.bind_some]
  simp only [Bool.not_false, List.dropLast_concat, htrailing, horiginal, hset, toPane_set]
  rfl

theorem exec_nextInOrder (hordinary : T.Ordinary) (h : T.leafPaths = pre ++ q :: q' :: post)
    (wider : Bool) (n : ℕ) :
    (T.toTab q n).exec wider (.moveFocus .nextInOrder) = some (T.toTab q' n) := by
  have hnext := Pane.nextPane_eq (hordinary.shown_setActive q)
    ((leafPaths_setActive_toPane T q).trans h)
  rw [Tab.exec, Tab.navigateFocus]
  simp only [toTab, hnext, Pane.setActive_setActive]

theorem exec_previousInOrder (hordinary : T.Ordinary) (h : T.leafPaths = pre ++ q :: q' :: post)
    (wider : Bool) (n : ℕ) :
    (T.toTab q' n).exec wider (.moveFocus .previousInOrder) = some (T.toTab q n) := by
  have hprevious := Pane.previousPane_eq (hordinary.shown_setActive q')
    ((leafPaths_setActive_toPane T q').trans h)
  rw [Tab.exec, Tab.navigateFocus]
  simp only [toTab, hprevious, Pane.setActive_setActive]

theorem exec_attachPane (hordinary : T.Ordinary) (hargs : args.any (·.type.isPaneType) = true)
    (wider : Bool) (splitSize : F) (n : ℕ) :
    (T.toTab q n).exec wider (.splitPane direction splitSize args) = some (toTab
      (if Pane.isLeading direction then
        SplitTree.split (Pane.convertSplitState wider direction, 1 - (1 - splitSize))
          (leaf (args, n)) T
      else SplitTree.split (Pane.convertSplitState wider direction, 1 - splitSize)
        T (leaf (args, n)))
      (Pane.isLeading direction :: q) (n + 1)) := by
  have hclear : Pane.clearActive (Pane.setActive T.toPane q) = T.toPane :=
    (Pane.map_setActive (fun _ _ => rfl) (fun _ _ => rfl) T.toPane q).trans (clearActive_toPane T)
  obtain ⟨htree, hbase⟩ := clearActive_splitOff hordinary hclear
  have hfocus : ∀ (t : Pane F) (S : Sketch F) (path : List Bool),
      Pane.clearActive t = S.toPane → Pane.setActive t path = Pane.setActive S.toPane path :=
    fun t S path heq => by
      rw [Pane.setActive.eq_1 t, Pane.setActive.eq_1 S.toPane, heq, clearActive_toPane]
  rw [Tab.exec, hargs, if_pos rfl, Tab.splitPaneAtRoot]
  simp only [toTab, Pane.attachPane, Pane.splitPane, hbase]
  refine congrArg some (congrArg (Tab.mk · _ _) (hfocus _ _ _ ?_))
  cases hleading : Pane.isLeading direction with
  | true =>
    have hsubtree : ∀ (d : ParentPane F) (first second : Pane F),
        (SplitTree.split d first second).subtree [true] = some second := fun _ _ second =>
      subtree_nil second
    simp only [if_true, hsubtree]
    rw [SplitTree.set, set_nil]
    exact congrArg (SplitTree.split _ _) htree
  | false =>
    have hsubtree : ∀ (d : ParentPane F) (first second : Pane F),
        (SplitTree.split d first second).subtree [false] = some first := fun _ first _ =>
      subtree_nil first
    simp only [Bool.false_eq_true, if_false, hsubtree]
    rw [SplitTree.set, set_nil]
    exact congrArg (SplitTree.split _ · _) htree

end Sketch

/-! ### The actions of a subtree without an agent pane -/

namespace Pane

/-- What the actions of a subtree make: its panes are numbered in the order in which they are
made. -/
def sketch : Pane F → ℕ → ℕ → Sketch F
  | leaf p, currentId, _ => leaf (p.getTerminalArgsForPane, currentId)
  | SplitTree.split p first second, currentId, nextId =>
    SplitTree.split (p.splitState, p.desiredSplitPosition)
      (sketch first currentId (nextId + 1)) (sketch second nextId (nextId + first.splits + 1))

theorem lastPath_sketch (t : Pane F) (currentId nextId : ℕ) :
    (sketch t currentId nextId).lastPath = t.lastPath := by
  induction t generalizing currentId nextId with
  | leaf p => rfl
  | split p first second _ ih => exact congrArg (true :: ·) (ih _ _)

theorem isPaneType_getTerminalArgs {p : LeafPane} (h : p.isAgentPane = false) :
    p.getTerminalArgsForPane.any (·.type.isPaneType) = false := by
  rw [LeafPane.getTerminalArgsForPane]
  cases hcontent : p.content with
  | none => rfl
  | some content =>
    have hagent := p.agent content hcontent
    cases content with
    | terminal settings sessionId =>
      simp [h, PaneContent.getNewTerminalArgs, ContentType.isPaneType]
    | other name settings => simp [h, PaneContent.getNewTerminalArgs, ContentType.isPaneType]
    | agent settings sessionId => cases h.symm.trans hagent

variable {t : Pane F}

theorem ordinary_sketch (h : containsAgentPane t = false) (currentId nextId : ℕ) :
    (sketch t currentId nextId).Ordinary := by
  induction t generalizing currentId nextId with
  | leaf p =>
    intro a ha
    rw [List.mem_singleton.mp ha]
    exact isPaneType_getTerminalArgs h
  | split p first second ih ih' =>
    obtain ⟨hfirst, hsecond⟩ := Bool.or_eq_false_iff.mp h
    intro a ha
    rcases List.mem_append.mp ha with ha | ha
    · exact ih hfirst _ _ a ha
    · exact ih' hsecond _ _ a ha

theorem agentLeaf_eq_none (h : containsAgentPane t = false) : agentLeaf t = none := by
  cases t with
  | leaf p => exact if_neg (by rw [show p.isAgentPane = false from h]; exact Bool.false_ne_true)
  | split p first second => rfl

section Build

variable [One F] [Sub F] {p : ParentPane F} {first second : Pane F} {t : Pane F}

theorem buildStartupActions_split (hfirst : containsAgentPane first = false)
    (hsecond : containsAgentPane second = false) (persist : Bool) (currentId nextId : ℕ) :
    let firstState := buildStartupActions persist first currentId (nextId + 1)
    let secondState := buildStartupActions persist second nextId
      (nextId + firstState.panesCreated + 1)
    buildStartupActions persist (SplitTree.split p first second) currentId nextId = {
      args := buildSplitPane p secondState.firstPane ::
        (if firstState.args = [] then []
          else .moveFocus .previousInOrder :: firstState.args ++ [.moveFocus .nextInOrder]) ++
        secondState.args
      firstPane := firstState.firstPane
      focusedPaneId := firstState.focusedPaneId.or secondState.focusedPaneId
      panesCreated := firstState.panesCreated + secondState.panesCreated + 1 } := by
  intro firstState secondState
  have hnone := agentLeaf_eq_none hfirst
  have hnone' := agentLeaf_eq_none hsecond
  cases first with
  | split p' first' second' =>
    rw [buildStartupActions, hnone, hnone']
    exact fun _ _ h => nomatch h
  | leaf p' =>
    cases second with
    | split p'' first'' second'' =>
      rw [buildStartupActions, hnone, hnone']
      exact fun _ _ _ h => nomatch h
    | leaf p'' =>
      simp only [buildStartupActions, hnone, hnone', firstState, secondState]
      cases p'.lastActive <;> rfl

theorem panesCreated_eq (h : containsAgentPane t = false) (persist : Bool)
    (currentId nextId : ℕ) :
    (buildStartupActions persist t currentId nextId).panesCreated = t.splits := by
  induction t generalizing currentId nextId with
  | leaf p => rfl
  | split p first second ih ih' =>
    obtain ⟨hfirst, hsecond⟩ := Bool.or_eq_false_iff.mp h
    rw [buildStartupActions_split hfirst hsecond]
    simp only [ih hfirst, ih' hsecond]
    rfl

theorem isAgentPane_firstPane (h : containsAgentPane t = false) (persist : Bool)
    (currentId nextId : ℕ) :
    (buildStartupActions persist t currentId nextId).firstPane.isAgentPane = false := by
  induction t generalizing currentId nextId with
  | leaf p => exact h
  | split p first second ih _ =>
    obtain ⟨hfirst, hsecond⟩ := Bool.or_eq_false_iff.mp h
    rw [buildStartupActions_split hfirst hsecond]
    exact ih hfirst _ _

theorem countP_args (h : containsAgentPane t = false) (persist : Bool)
    (currentId nextId : ℕ) :
    (buildStartupActions persist t currentId nextId).args.countP StartupAction.isSplitPane =
      t.splits := by
  induction t generalizing currentId nextId with
  | leaf p => rfl
  | split p first second ih ih' =>
    obtain ⟨hfirst, hsecond⟩ := Bool.or_eq_false_iff.mp h
    rw [buildStartupActions_split hfirst hsecond]
    have hsplits : (SplitTree.split p first second).splits = first.splits + second.splits + 1 := rfl
    have hsplit : ∀ newPane, (buildSplitPane p newPane).isSplitPane = true := fun _ => rfl
    have hcount := ih hfirst currentId (nextId + 1)
    simp only [List.cons_append, List.countP_cons, List.countP_append, ih' hsecond, hsplits, hsplit,
      if_true]
    by_cases hargs : (buildStartupActions persist first currentId (nextId + 1)).args = []
    · rw [hargs] at hcount
      rw [if_pos hargs, hcount]
    · rw [if_neg hargs]
      simp [List.countP_append, hcount, StartupAction.isSplitPane]

end Build

/-! ### Replaying the actions of a subtree -/

section Exec

variable [AddCommGroup F] [One F] {T : Sketch F} {q : List Bool}

theorem exec_buildSplitPane (hT : T.Ordinary) {a : Option NewContentArgs × ℕ}
    (hsub : T.subtree q = some (leaf a)) (p : ParentPane F) {newPane : LeafPane}
    (hnew : newPane.isAgentPane = false) (wider : Bool) (n : ℕ) :
    (T.toTab q n).exec wider (buildSplitPane p newPane) = some (Sketch.toTab
      (T.set q (SplitTree.split (p.splitState, p.desiredSplitPosition) (leaf a)
        (leaf (newPane.getTerminalArgsForPane, n)))) (q ++ [true]) (n + 1)) := by
  have htrailing : isLeading (if p.splitState = .horizontal then .down else .right) = false := by
    split_ifs <;> rfl
  have hstate : convertSplitState wider (if p.splitState = .horizontal then .down else .right) =
      p.splitState := by
    cases p.splitState <;> rfl
  rw [buildSplitPane, Sketch.exec_splitPane hT hsub htrailing (isPaneType_getTerminalArgs hnew),
    hstate, sub_sub_cancel]

theorem exists_leafPaths_set_eq {D A : Type*} {t s : SplitTree D A} {q : List Bool}
    (hsub : t.subtree q = some s) (d : D) (first : SplitTree D A) (b : A) :
    ∃ pre post, (t.set q (SplitTree.split d first (leaf b))).leafPaths =
      pre ++ (q ++ false :: first.lastPath) :: (q ++ [true]) :: post := by
  obtain ⟨pre, post, hset⟩ := leafPaths_set hsub
  obtain ⟨l, hl⟩ := leafPaths_eq_concat first
  refine ⟨pre ++ (l.map fun path => q ++ false :: path), post, ?_⟩
  rw [hset, leafPaths, leafPaths, hl]
  simp

/-- What the actions of a subtree do that are started at a leaf. -/
def Makes (wider : Bool) (s : Pane F) (currentId nextId : ℕ) : Prop :=
  ∀ (T : Sketch F) (q : List Bool), T.Ordinary →
    T.subtree q = some (leaf
      ((buildStartupActions true s currentId nextId).firstPane.getTerminalArgsForPane,
        currentId)) →
    (buildStartupActions true s currentId nextId).args.foldlM (Tab.exec wider) (T.toTab q nextId) =
      some (Sketch.toTab (T.set q (sketch s currentId nextId)) (q ++ s.lastPath)
        (nextId + s.splits))

theorem exec_firstState {first : Pane F} (hfirst : containsAgentPane first = false) {wider : Bool}
    {currentId nextId : ℕ} (hmakes : Makes wider first currentId nextId) (hT : T.Ordinary)
    {s : Sketch F} (hsub : T.subtree q = some s) (d : SplitState × F)
    {b : Option NewContentArgs × ℕ} (hb : b.1.any (·.type.isPaneType) = false) :
    let firstState := buildStartupActions true first currentId nextId
    (if firstState.args = [] then []
        else .moveFocus .previousInOrder :: firstState.args ++ [.moveFocus .nextInOrder]).foldlM
      (Tab.exec wider) (Sketch.toTab (T.set q (SplitTree.split d
        (leaf (firstState.firstPane.getTerminalArgsForPane, currentId)) (leaf b)))
        (q ++ [true]) nextId) =
      some (Sketch.toTab (T.set q (SplitTree.split d (sketch first currentId nextId) (leaf b)))
        (q ++ [true]) (nextId + first.splits)) := by
  intro firstState
  have hsplit : ∀ A : Sketch F, A.Ordinary →
      Sketch.Ordinary (T.set q (SplitTree.split d A (leaf b))) := fun A hA =>
    hT.set hsub (Sketch.ordinary_split hA hb)
  have hcount := countP_args hfirst true currentId nextId
  by_cases hargs : firstState.args = []
  · -- only a leaf has no actions
    rw [show (buildStartupActions true first currentId nextId).args = [] from hargs] at hcount
    cases first with
    | leaf p =>
      rw [if_pos hargs]
      rfl
    | split p first' second' => cases hcount
  · have hleaf : Sketch.Ordinary (leaf (firstState.firstPane.getTerminalArgsForPane, currentId) :
        Sketch F) := fun a ha => by
      rw [List.mem_singleton.mp ha]
      exact isPaneType_getTerminalArgs (isAgentPane_firstPane hfirst true currentId nextId)
    obtain ⟨pre, post, hbefore⟩ := exists_leafPaths_set_eq hsub d
      (leaf (firstState.firstPane.getTerminalArgsForPane, currentId)) b
    obtain ⟨pre', post', hafter⟩ := exists_leafPaths_set_eq hsub d
      (sketch first currentId nextId) b
    have hprevious := Sketch.exec_previousInOrder (hsplit _ hleaf) hbefore wider nextId
    have hnext := Sketch.exec_nextInOrder (hsplit _ (ordinary_sketch hfirst currentId nextId))
      hafter wider (nextId + first.splits)
    have hfirstArgs : firstState.args.foldlM (Tab.exec wider)
        (Sketch.toTab (T.set q (SplitTree.split d
          (leaf (firstState.firstPane.getTerminalArgsForPane, currentId)) (leaf b)))
          (q ++ [false]) nextId) =
        some (Sketch.toTab (T.set q (SplitTree.split d (sketch first currentId nextId) (leaf b)))
          (q ++ false :: first.lastPath) (nextId + first.splits)) := by
      have hmade := hmakes _ (q ++ [false]) (hsplit _ hleaf) (by
        rw [subtree_append, subtree_set hsub]
        rfl)
      rw [set_append (subtree_set hsub _), set_set, List.append_assoc] at hmade
      rw [hmade, SplitTree.set, set_nil]
      rfl
    rw [lastPath_sketch] at hnext
    rw [if_neg hargs, List.cons_append, List.foldlM_cons, hprevious]
    simp only [Option.bind_eq_bind, Option.bind_some, List.foldlM_append, lastPath, hfirstArgs,
      List.foldlM_cons, List.foldlM_nil, hnext]
    rfl

theorem exec_buildStartupActions {s : Pane F} (hs : containsAgentPane s = false) (wider : Bool)
    (currentId nextId : ℕ) : Makes wider s currentId nextId := by
  induction s generalizing currentId nextId with
  | leaf p =>
    intro T q _ hsub
    have hset : T.set q (sketch (leaf p : Pane F) currentId nextId) = T := set_subtree hsub
    rw [hset, lastPath, List.append_nil]
    rfl
  | split p first second ih ih' =>
    intro T q hT hsub
    obtain ⟨hfirst, hsecond⟩ := Bool.or_eq_false_iff.mp hs
    have hsecondPane := isAgentPane_firstPane hsecond true nextId (nextId + first.splits + 1)
    have hsecondArgs := isPaneType_getTerminalArgs hsecondPane
    rw [buildStartupActions_split hfirst hsecond] at hsub ⊢
    simp only [panesCreated_eq hfirst] at hsub ⊢
    have hsplit := exec_buildSplitPane hT hsub p hsecondPane wider nextId
    have hmiddle := exec_firstState hfirst (ih hfirst currentId (nextId + 1)) hT hsub
      (p.splitState, p.desiredSplitPosition) (b := ((buildStartupActions true second nextId
        (nextId + first.splits + 1)).firstPane.getTerminalArgsForPane, nextId)) hsecondArgs
    have hlast := ih' hsecond nextId (nextId + first.splits + 1)
      (T.set q (SplitTree.split (p.splitState, p.desiredSplitPosition)
        (sketch first currentId (nextId + 1)) (leaf ((buildStartupActions true second nextId
          (nextId + first.splits + 1)).firstPane.getTerminalArgsForPane, nextId))))
      (q ++ [true])
      (hT.set hsub (Sketch.ordinary_split (ordinary_sketch hfirst _ _) hsecondArgs))
      (by
        rw [subtree_append, subtree_set hsub]
        rfl)
    rw [List.cons_append, List.foldlM_cons, hsplit, Option.bind_eq_bind, Option.bind_some,
      List.foldlM_append, hmiddle, Option.bind_eq_bind, Option.bind_some,
      Nat.add_right_comm nextId 1, hlast, set_append (subtree_set hsub _), set_set,
      List.append_assoc]
    refine congrArg some ?_
    rw [SplitTree.set, set_nil, lastPath, splits, sketch]
    congr 1
    omega

end Exec

/-! ### The focused pane -/

section Focused

variable [One F] [Sub F]

theorem focusedPaneId_eq_none {t : Pane F} (h : containsAgentPane t = false)
    (hinactive : ∀ p ∈ t.leaves, p.lastActive = false) (currentId nextId : ℕ) :
    (buildStartupActions true t currentId nextId).focusedPaneId = none := by
  induction t generalizing currentId nextId with
  | leaf p =>
    refine if_neg ?_
    rw [hinactive p (List.mem_singleton_self p)]
    exact Bool.false_ne_true
  | split p first second ih ih' =>
    obtain ⟨hfirst, hsecond⟩ := Bool.or_eq_false_iff.mp h
    rw [buildStartupActions_split hfirst hsecond]
    simp only [ih hfirst fun p hp => hinactive p (List.mem_append_left _ hp),
      ih' hsecond fun p hp => hinactive p (List.mem_append_right _ hp), Option.or_none]

theorem focusedPaneId_eq {t : Pane F} (h : containsAgentPane t = false) {q : List Bool}
    {p : LeafPane} (hsub : t.subtree q = some (leaf p)) (hactive : p.lastActive = true)
    (honly : ∀ q' p', t.subtree q' = some (leaf p') → p'.lastActive = true → q' = q)
    (currentId nextId : ℕ) :
    ∃ args k, (sketch t currentId nextId).subtree q = some (leaf (args, k)) ∧
      (buildStartupActions true t currentId nextId).focusedPaneId = some k := by
  induction t generalizing q currentId nextId with
  | leaf p' =>
    cases q with
    | nil =>
      cases hsub
      exact ⟨_, currentId, rfl, if_pos hactive⟩
    | cons side q => cases hsub
  | split d first second ih ih' =>
    obtain ⟨hfirst, hsecond⟩ := Bool.or_eq_false_iff.mp h
    rw [buildStartupActions_split hfirst hsecond]
    simp only [panesCreated_eq hfirst]
    cases q with
    | nil => cases hsub
    | cons side q =>
      cases side with
      | false =>
        obtain ⟨args, k, hsketch, hid⟩ := ih hfirst hsub
          (fun q' p' hsub' hactive' => List.cons.inj (honly (false :: q') p' hsub' hactive') |>.2)
          currentId (nextId + 1)
        exact ⟨args, k, hsketch, by rw [hid, Option.some_or]⟩
      | true =>
        obtain ⟨args, k, hsketch, hid⟩ := ih' hsecond hsub
          (fun q' p' hsub' hactive' => List.cons.inj (honly (true :: q') p' hsub' hactive') |>.2)
          nextId (nextId + first.splits + 1)
        have hnone : (buildStartupActions true first currentId (nextId + 1)).focusedPaneId =
            none := by
          refine focusedPaneId_eq_none hfirst (fun p' hp' => ?_) _ _
          obtain ⟨q', hsub'⟩ := mem_leaves_iff.mp hp'
          by_contra hactive'
          have heq := honly (false :: q') p' hsub' (Bool.not_eq_false _ ▸ hactive')
          exact Bool.false_ne_true (List.cons.inj heq).1
        exact ⟨args, k, hsketch, by rw [hnone, hid, Option.none_or]⟩

end Focused

/-! ### The agent pane -/

def ShowsAgent : Pane F → Prop
  | leaf p => ∃ content, p.content = some content ∧ content.isAgent = true
  | SplitTree.split _ _ _ => False

/-- At most one pane is an agent pane, and then it is a child of the root. -/
def AgentAtRoot : Pane F → Prop
  | leaf p => p.isAgentPane = false
  | SplitTree.split _ first second =>
    containsAgentPane first = false ∧ containsAgentPane second = false ∨
      ShowsAgent first ∧ containsAgentPane second = false ∨
      containsAgentPane first = false ∧ ShowsAgent second

def savedLayout (t : Pane F) : SplitTree (SplitState × F) (Option NewContentArgs) :=
  t.map (fun p => (p.splitState, p.desiredSplitPosition)) LeafPane.getTerminalArgsForPane

theorem isAgentPane_of_agentLeaf {agentPane : LeafPane}
    (h : agentLeaf t = some agentPane) : agentPane.isAgentPane = true := by
  cases t with
  | split p first second => cases h
  | leaf p =>
    rw [agentLeaf] at h
    split_ifs at h with hagent
    cases h
    exact hagent

theorem exists_of_showsAgent (h : ShowsAgent t) :
    ∃ agentPane, t = leaf agentPane ∧ agentLeaf t = some agentPane ∧
      agentPane.getTerminalArgsForPane.any (·.type.isPaneType) = true := by
  cases t with
  | split p first second => cases h
  | leaf p =>
    obtain ⟨content, hcontent, hagent⟩ := h
    have hpane : p.isAgentPane = true := (p.agent content hcontent).trans hagent
    refine ⟨p, rfl, if_pos hpane, ?_⟩
    cases content with
    | terminal settings sessionId => cases hagent
    | other name settings => cases hagent
    | agent settings sessionId =>
      rw [LeafPane.getTerminalArgsForPane, hcontent, hpane]
      cases p.hidden <;> rfl

theorem map_fst_sketch (t : Pane F) (currentId nextId : ℕ) :
    (sketch t currentId nextId).map id Prod.fst = savedLayout t := by
  induction t generalizing currentId nextId with
  | leaf p => rfl
  | split p first second ih ih' =>
    exact congrArg₂ (SplitTree.split (p.splitState, p.desiredSplitPosition)) (ih _ _) (ih' _ _)

theorem map_rootPane_toTab (T : Sketch F) (q : List Bool) (n : ℕ) :
    (T.toTab q n).rootPane.map (fun p => (p.splitState, p.desiredSplitPosition))
        (fun p => (p.getTerminalArgsForPane, p.id)) =
      T.map id fun a => (a.1, some a.2) := by
  rw [Sketch.toTab, map_setActive (fun _ _ => rfl) (fun _ _ => rfl), Sketch.toPane, map_map]
  congr 1
  funext a
  obtain ⟨args, id⟩ := a
  cases args with
  | none => rfl
  | some args =>
    obtain ⟨type, settings⟩ := args
    cases type <;> rfl

/-! ### Replaying the actions of a tree -/

section Replay

variable [AddCommGroup F] [One F]

theorem replay_ordinary {t : Pane F} (h : containsAgentPane t = false) (wider : Bool) :
    (buildStartupActions true t 0 1).args.foldlM (Tab.exec wider)
        (Tab.new (LeafPane.ofArgs
          (buildStartupActions true t 0 1).firstPane.getTerminalArgsForPane)) =
      some (Sketch.toTab (sketch t 0 1) t.lastPath (1 + t.splits)) := by
  have hfirst : Sketch.Ordinary (leaf
      ((buildStartupActions true t 0 1).firstPane.getTerminalArgsForPane, 0) : Sketch F) :=
    fun a ha => by
      rw [List.mem_singleton.mp ha]
      exact isPaneType_getTerminalArgs (isAgentPane_firstPane h true 0 1)
  have hmade := exec_buildStartupActions h wider 0 1 _ [] hfirst rfl
  rw [set_nil, List.nil_append] at hmade
  exact hmade

theorem exec_buildAgentSplitPane {T : Sketch F} {q : List Bool} (hT : T.Ordinary)
    (p : ParentPane F) {agentPane : LeafPane}
    (hagent : agentPane.getTerminalArgsForPane.any (·.type.isPaneType) = true)
    (wider leadingEdge : Bool) (n : ℕ) :
    (T.toTab q n).exec wider (buildAgentSplitPane p agentPane leadingEdge) = some (Sketch.toTab
      (SplitTree.split (p.splitState, p.desiredSplitPosition)
        (child leadingEdge T (leaf (agentPane.getTerminalArgsForPane, n)))
        (child leadingEdge (leaf (agentPane.getTerminalArgsForPane, n)) T))
      (leadingEdge :: q) (n + 1)) := by
  rw [buildAgentSplitPane, Sketch.exec_attachPane hT hagent]
  cases leadingEdge with
  | true => cases hstate : p.splitState <;> simp [isLeading, convertSplitState, child]
  | false => cases hstate : p.splitState <;> simp [isLeading, convertSplitState, child]

end Replay

end Pane

open Pane

variable [AddCommGroup F] [One F]

theorem exists_replay_of_sketch {t : Pane F} {wider : Bool} {state : BuildStartupState F}
    {T : Sketch F} {q : List Bool} {n : ℕ}
    (hexec : state.args.foldlM (Tab.exec wider)
      (Tab.new (LeafPane.ofArgs state.firstPane.getTerminalArgsForPane)) = some (T.toTab q n))
    (hlayout : T.map id Prod.fst = savedLayout t)
    (hcount : state.panesCreated = state.args.countP StartupAction.isSplitPane)
    (hfocused : ∀ q p, t.subtree q = some (leaf p) → p.lastActive = true → p.isAgentPane = false →
      (∀ q' p', t.subtree q' = some (leaf p') → p'.lastActive = true → q' = q) →
      ∃ args k, T.subtree q = some (leaf (args, k)) ∧ state.focusedPaneId = some k) :
    ∃ tab : Tab F,
      state.args.foldlM (Tab.exec wider)
          (Tab.new (LeafPane.ofArgs state.firstPane.getTerminalArgsForPane)) = some tab ∧
      savedLayout tab.rootPane = savedLayout t ∧
      state.panesCreated = state.args.countP StartupAction.isSplitPane ∧
      ∀ q p, t.subtree q = some (leaf p) → p.lastActive = true → p.isAgentPane = false →
        (∀ q' p', t.subtree q' = some (leaf p') → p'.lastActive = true → q' = q) →
        ∃ p' k, tab.rootPane.subtree q = some (leaf p') ∧ p'.id = some k ∧
          state.focusedPaneId = some k := by
  have hmap := map_rootPane_toTab T q n
  refine ⟨T.toTab q n, hexec, ?_, hcount, fun q' p hsub hactive hagent honly => ?_⟩
  · rw [← hlayout, savedLayout]
    have hfst := congrArg (SplitTree.map id Prod.fst) hmap
    rw [map_map, map_map] at hfst
    exact hfst
  · obtain ⟨args, k, hsketch, hid⟩ := hfocused q' p hsub hactive hagent honly
    have hat := congrArg (·.subtree q') hmap
    simp only [subtree_map, hsketch, Option.map_some] at hat
    obtain ⟨u, hu, heq⟩ := Option.map_eq_some_iff.mp hat
    cases u with
    | split d first second => cases heq
    | leaf p' => exact ⟨p', k, hu, (Prod.mk.inj (leaf.inj heq)).2, hid⟩

theorem replay_agentPane {p : ParentPane F} {sibling : Pane F} {agentPane : LeafPane}
    (hsibling : containsAgentPane sibling = false) (hpane : agentPane.isAgentPane = true)
    (hagent : agentPane.getTerminalArgsForPane.any (·.type.isPaneType) = true)
    (leadingEdge : Bool) {t : Pane F}
    (ht : t = SplitTree.split p (child leadingEdge sibling (leaf agentPane))
      (child leadingEdge (leaf agentPane) sibling))
    (hbuild : buildStartupActions true t 0 1 =
      addAgentPane true p agentPane leadingEdge (buildStartupActions true sibling 0 1))
    (wider : Bool) :
    ∃ tab : Tab F,
      (buildStartupActions true t 0 1).args.foldlM (Tab.exec wider) (Tab.new (LeafPane.ofArgs
          (buildStartupActions true t 0 1).firstPane.getTerminalArgsForPane)) = some tab ∧
      savedLayout tab.rootPane = savedLayout t ∧
      (buildStartupActions true t 0 1).panesCreated =
        (buildStartupActions true t 0 1).args.countP StartupAction.isSplitPane ∧
      ∀ q p, t.subtree q = some (leaf p) → p.lastActive = true → p.isAgentPane = false →
        (∀ q' p', t.subtree q' = some (leaf p') → p'.lastActive = true → q' = q) →
        ∃ p' k, tab.rootPane.subtree q = some (leaf p') ∧ p'.id = some k ∧
          (buildStartupActions true t 0 1).focusedPaneId = some k := by
  have hreplay := replay_ordinary hsibling wider
  have hattach := exec_buildAgentSplitPane (q := sibling.lastPath) (ordinary_sketch hsibling 0 1) p
    hagent wider leadingEdge (1 + sibling.splits)
  rw [hbuild, addAgentPane, if_pos rfl]
  refine exists_replay_of_sketch (q := leadingEdge :: sibling.lastPath)
    (n := 1 + sibling.splits + 1) (T := SplitTree.split (p.splitState, p.desiredSplitPosition)
      (child leadingEdge (sketch sibling 0 1)
        (leaf (agentPane.getTerminalArgsForPane, 1 + sibling.splits)))
      (child leadingEdge (leaf (agentPane.getTerminalArgsForPane, 1 + sibling.splits))
        (sketch sibling 0 1))) ?_ ?_ ?_ fun q p' hsub hactive hordinary honly => ?_
  · rw [List.foldlM_append, hreplay, Option.bind_eq_bind, Option.bind_some, List.foldlM_cons,
      hattach]
    rfl
  · have hlayout := map_fst_sketch sibling 0 1
    cases leadingEdge with
    | false =>
      rw [ht]
      exact congrArg (SplitTree.split _ · _) hlayout
    | true =>
      rw [ht]
      exact congrArg (SplitTree.split _ _) hlayout
  · simp only [panesCreated_eq hsibling, List.countP_append, countP_args hsibling]
    rfl
  · subst ht
    cases q with
    | nil => cases hsub
    | cons side q =>
      -- the focused pane is not on the side of the agent pane
      have hside : side = leadingEdge := by
        by_contra hne
        have hleaf : (leaf agentPane : Pane F).subtree q = some (leaf p') := by
          cases side <;> cases leadingEdge <;> first | exact absurd rfl hne | exact hsub
        cases q with
        | nil =>
          cases hleaf
          cases hordinary.symm.trans hpane
        | cons side' q => cases hleaf
      subst hside
      have hsub' : sibling.subtree q = some (leaf p') := by
        cases side <;> exact hsub
      obtain ⟨args, k, hsketch, hid⟩ := focusedPaneId_eq hsibling hsub' hactive
        (fun q' p'' hsub'' hactive'' => by
          have heq := honly (side :: q') p'' (by cases side <;> exact hsub'') hactive''
          exact (List.cons.inj heq).2) 0 1
      exact ⟨args, k, by cases side <;> exact hsketch, hid⟩

/-- The actions of a saved layout, replayed on a tab with the first pane, make a tree of the same
shape with the same splits, positions and contents. As many panes are created as there are splits,
and the focused pane is named by the number of panes made before it. -/
theorem startup_actions_replay {t : Pane F} (ht : AgentAtRoot t) (wider : Bool) :
    let state := buildStartupActions true t 0 1
    ∃ tab : Tab F,
      state.args.foldlM (Tab.exec wider)
          (Tab.new (LeafPane.ofArgs state.firstPane.getTerminalArgsForPane)) = some tab ∧
      savedLayout tab.rootPane = savedLayout t ∧
      state.panesCreated = state.args.countP StartupAction.isSplitPane ∧
      ∀ q p, t.subtree q = some (leaf p) → p.lastActive = true → p.isAgentPane = false →
        (∀ q' p', t.subtree q' = some (leaf p') → p'.lastActive = true → q' = q) →
        ∃ p' k, tab.rootPane.subtree q = some (leaf p') ∧ p'.id = some k ∧
          state.focusedPaneId = some k := by
  intro state
  have hordinary : containsAgentPane t = false → _ := fun h =>
    exists_replay_of_sketch (t := t) (replay_ordinary h wider) (map_fst_sketch t 0 1)
      ((panesCreated_eq h true 0 1).trans (countP_args h true 0 1).symm)
      (fun q p hsub hactive _ honly => focusedPaneId_eq h hsub hactive honly 0 1)
  cases t with
  | leaf p => exact hordinary ht
  | split p first second =>
    rcases ht with ⟨hfirst, hsecond⟩ | ⟨hagent, hsecond⟩ | ⟨hfirst, hagent⟩
    · exact hordinary (Bool.or_eq_false_iff.mpr ⟨hfirst, hsecond⟩)
    · obtain ⟨agentPane, rfl, hleaf, hargs⟩ := exists_of_showsAgent hagent
      have hbuild : buildStartupActions true (SplitTree.split p (leaf agentPane) second) 0 1 =
          addAgentPane true p agentPane true (buildStartupActions true second 0 1) := by
        cases second <;> simp only [buildStartupActions, hleaf, agentLeaf_eq_none hsecond]
      exact replay_agentPane hsecond (isAgentPane_of_agentLeaf hleaf) hargs true rfl hbuild wider
    · obtain ⟨agentPane, rfl, hleaf, hargs⟩ := exists_of_showsAgent hagent
      have hbuild : buildStartupActions true (SplitTree.split p first (leaf agentPane)) 0 1 =
          addAgentPane true p agentPane false (buildStartupActions true first 0 1) := by
        cases first <;> simp only [buildStartupActions, hleaf, agentLeaf_eq_none hfirst]
      exact replay_agentPane hfirst (isAgentPane_of_agentLeaf hleaf) hargs false rfl hbuild wider

/-- An agent pane on the left of a shell, and of a shell above two shells side by side, the last of
which has the focus. -/
theorem startup_actions_replay_three :
    let shell : String → Bool → Pane ℚ := fun settings lastActive => leaf
      { LeafPane.ofContent (some (.terminal settings none)) with lastActive }
    let agentPane : Pane ℚ := leaf (LeafPane.ofContent (some (.agent "agent" none)))
    let row : Pane ℚ := SplitTree.split { splitState := .vertical, desiredSplitPosition := 1 / 4 }
      (shell "two" false) (shell "three" true)
    let t : Pane ℚ := SplitTree.split { splitState := .vertical, desiredSplitPosition := 3 / 10 }
      agentPane
      (SplitTree.split { splitState := .horizontal, desiredSplitPosition := 1 / 2 }
        (shell "one" false) row)
    ∃ tab : Tab ℚ, (buildStartupActions true t 0 1).args.foldlM (Tab.exec true)
        (Tab.new (LeafPane.ofContent (some (.terminal "one" none)))) = some tab ∧
      savedLayout tab.rootPane = savedLayout t ∧
      (buildStartupActions true t 0 1).focusedPaneId = some 2 := by
  intro shell agentPane row t
  have ht : AgentAtRoot t := .inr (.inl ⟨⟨_, rfl, rfl⟩, rfl⟩)
  obtain ⟨tab, hexec, hlayout, -, -⟩ := startup_actions_replay ht true
  exact ⟨tab, hexec, hlayout, rfl⟩

end IntelligentTerminal.Panes
