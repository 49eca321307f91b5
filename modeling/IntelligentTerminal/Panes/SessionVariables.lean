import Mathlib
import IntelligentTerminal.Data.Run
import IntelligentTerminal.Panes.Pane

/-!
# The variables of a session

A session is named by the id of its terminal, but its variables are kept by the pane object that
shows the terminal. A split makes a new object for the leaf that is split, and a close makes the
parent object the leaf that is left. Neither takes the variables along. So a session has its
variables as long as no leaf with variables is split, and no leaf takes the place of a parent whose
own variables are others.

Source: `src/cascadia/TerminalApp/Pane.cpp`, lines 1645-1791, 2607-2694 and 2882-2900, and
`src/cascadia/TerminalApp/TerminalPage.Protocol.cpp`, lines 677-752.
-/

namespace IntelligentTerminal.Panes

open SplitTree

/-! ### What a leaf shows -/

/-- The session that a leaf is found by. -/
def LeafPane.session (p : LeafPane) : Option SessionId :=
  (p.content.bind PaneContent.sessionId).filter (· ≠ 0)

/-- The variables of a pane object. -/
def PaneBase.variables (p : PaneBase) (name : String) : Option String :=
  Pane.getSessionVariable p name

section Views

variable {F : Type*} {β : Type*} (g : (String → Option String) → β)

/-- The session of a leaf, with what `g` tells of its variables. -/
def LeafPane.view (p : LeafPane) : Option (SessionId × β) :=
  p.session.map fun sessionId => (sessionId, g p.variables)

/-- The sessions that a tree shows. -/
def Pane.views (t : Pane F) : Multiset (SessionId × β) := t.leaves.filterMap (LeafPane.view g)

end Views

theorem LeafPane.session_eq_some {p : LeafPane} {sessionId : SessionId} :
    p.session = some sessionId ↔ p.hasSession sessionId = true ∧ sessionId ≠ 0 := by
  cases hcontent : p.content with
  | none => simp [session, hasSession, hcontent]
  | some content =>
    simp only [session, hasSession, hcontent, Option.bind_some, Option.any_some,
      Option.filter_eq_some_iff, decide_eq_true_eq]

namespace Pane

variable {F : Type*} {t : Pane F} {sessionId : SessionId} {path : List Bool}

theorem subtree_findPaneBySessionId (h : findPaneBySessionId t sessionId = some path) :
    ∃ p, t.subtree path = some (leaf p) ∧ p.session = some sessionId := by
  rw [findPaneBySessionId] at h
  split_ifs at h with hzero
  have hfound := List.find?_some h
  split at hfound
  · next p hp => exact ⟨p, hp, LeafPane.session_eq_some.mpr ⟨hfound, hzero⟩⟩
  · cases hfound

theorem isSome_findPaneBySessionId {p : LeafPane} (hp : p ∈ t.leaves)
    (hsession : p.session = some sessionId) : (findPaneBySessionId t sessionId).isSome := by
  obtain ⟨hhas, hzero⟩ := LeafPane.session_eq_some.mp hsession
  obtain ⟨path, hpath⟩ := mem_leaves_iff.mp hp
  rw [findPaneBySessionId, if_neg hzero, List.find?_isSome]
  exact ⟨path, mem_leafPaths_iff.mpr ⟨p, hpath⟩, by rw [hpath]; exact hhas⟩

theorem exists_of_getProtocolSessionVariable {name : String} {value : Option String}
    (h : getProtocolSessionVariable t sessionId name = some value) :
    ∃ p ∈ t.leaves, p.session = some sessionId ∧ p.variables name = value := by
  obtain ⟨found, hfound, rfl⟩ := Option.map_eq_some_iff.mp h
  obtain ⟨path, hpath, hsub⟩ := Option.bind_eq_some_iff.mp hfound
  obtain ⟨p, hp, hsession⟩ := subtree_findPaneBySessionId hpath
  cases hp.symm.trans hsub
  exact ⟨p, mem_leaves_iff.mpr ⟨path, hp⟩, hsession, rfl⟩

/-! ### The sessions that a changed tree shows -/

variable {β : Type*} {g : (String → Option String) → β} {p : ParentPane F}
  {first second s s' : Pane F} {q : List Bool}

@[simp] theorem views_split :
    views g (SplitTree.split p first second) = views g first + views g second := by
  simp only [views, leaves, List.filterMap_append, Multiset.coe_add]

theorem views_child (side : Bool) :
    views g (child side first second) + views g (child (!side) first second) =
      views g first + views g second := by
  cases side
  · rfl
  · exact add_comm _ _

theorem views_leaf_of_none {p : LeafPane} (h : p.session = none) :
    views g (leaf p : Pane F) = 0 := by
  simp [views, leaves, LeafPane.view, h]

theorem views_leaf {p : LeafPane} (h : p.session = some sessionId) :
    views g (leaf p : Pane F) = {(sessionId, g p.variables)} := by
  simp [views, leaves, LeafPane.view, h]

theorem views_leaf_congr {p p' : LeafPane} (h : p.session = p'.session)
    (hvariables : p.session ≠ none → g p.variables = g p'.variables) :
    views g (leaf p : Pane F) = views g (leaf p' : Pane F) := by
  cases hsession : p.session with
  | none => rw [views_leaf_of_none hsession, views_leaf_of_none (h ▸ hsession)]
  | some sessionId =>
    have hview : p.view g = p'.view g := by
      rw [LeafPane.view, LeafPane.view, ← h, hsession, hvariables (by simp [hsession])]
    simp only [views, leaves, List.filterMap_cons, hview]

theorem views_set (h : t.subtree path = some s) :
    ∃ rest, views g t = views g s + rest ∧
      ∀ u : Pane F, views g (t.set path u) = views g u + rest := by
  obtain ⟨pre, post, hset⟩ := leaves_set h
  have hviews : ∀ u : Pane F, views g (t.set path u) = views g u +
      ↑(pre.filterMap (LeafPane.view g) ++ post.filterMap (LeafPane.view g)) := fun u => by
    rw [views, hset, List.filterMap_append, List.filterMap_append, ← Multiset.coe_add,
      ← Multiset.coe_add, ← Multiset.coe_add, views]
    abel
  exact ⟨_, by rw [← hviews, set_subtree h], hviews⟩

theorem views_set_le (h : t.subtree path = some s) (s' : Pane F) {a b : Multiset (SessionId × β)}
    (hs : views g s' + a ≤ views g s + b) : views g (t.set path s') + a ≤ views g t + b := by
  obtain ⟨rest, ht, hset⟩ := views_set (g := g) h
  rw [hset, ht, add_right_comm, add_right_comm (views g s)]
  exact add_le_add_left hs rest

theorem views_swap (hpath : t.subtree path = some s) (hq : t.subtree q = some s')
    (hnot : ¬path <+: q) (hnot' : ¬q <+: path) :
    views g ((t.set path s').set q s) = views g t :=
  Multiset.coe_eq_coe.mpr ((leaves_swap_perm hpath hq hnot hnot').filterMap _)

theorem views_map (f : ParentPane F → ParentPane F) (f' : LeafPane → LeafPane)
    (hsession : ∀ p, (f' p).session = p.session)
    (hvariables : ∀ p, (f' p).variables = p.variables) :
    views g (t.map f f') = views g t := by
  have hview : LeafPane.view g ∘ f' = LeafPane.view g := funext fun p => by
    simp only [Function.comp_apply, LeafPane.view, hsession, hvariables]
  rw [views, views, leaves_map, List.filterMap_map, hview]

theorem views_modifyBase (f : PaneBase → PaneBase) (hf : ∀ b, (f b).variables = b.variables) :
    views g (modifyBase f t) = views g t := by
  cases t with
  | leaf p => exact views_leaf_congr rfl fun _ => congrArg g (hf _)
  | split p first second => rfl

theorem views_set_modifyBase (h : t.subtree path = some s) (f : PaneBase → PaneBase)
    (hf : ∀ b, (f b).variables = b.variables) :
    views g (t.set path (modifyBase f s)) = views g t := by
  obtain ⟨rest, ht, hset⟩ := views_set (g := g) h
  rw [hset, ht, views_modifyBase f hf]

theorem views_setActive : views g (setActive t path) = views g t := by
  have hclear : views g (clearActive t) = views g t :=
    views_map _ _ (fun _ => rfl) fun _ => rfl
  rw [setActive, ← hclear]
  cases hsub : (clearActive t).subtree path with
  | none => rfl
  | some s =>
    exact views_set_modifyBase hsub _ fun _ => rfl

theorem views_setHidden (hidden : Bool) : views g (setHidden hidden t path) = views g t := by
  rw [setHidden]
  cases hsub : t.subtree path with
  | none => rfl
  | some s =>
    exact views_set_modifyBase hsub _ fun _ => rfl

theorem views_swapPanes (first second : List Bool) :
    views g (swapPanes t first second).1 = views g t := by
  rw [swapPanes]
  split
  · next s s' hs hs' =>
    by_cases hprefix : first <+: second ∨ second <+: first
    · rw [if_pos hprefix]
    · rw [if_neg hprefix]
      rw [not_or] at hprefix
      split_ifs
      · rfl
      · exact views_swap hs hs' hprefix.1 hprefix.2
  · rfl

theorem views_closeContent_le : views g (closeContent t) ≤ views g t := by
  cases t with
  | leaf p =>
    have hnone : p.withoutContent.session = none := rfl
    rw [closeContent, views_leaf_of_none hnone]
    exact Multiset.zero_le _
  | split p first second => exact le_refl _

theorem views_repositionAgentPane [One F] [Sub F] (wider : Bool) (direction : SplitDirection) :
    views g (repositionAgentPane wider direction t).1 = views g t := by
  cases t with
  | leaf p => rfl
  | split p first second =>
    simp only [repositionAgentPane]
    split_ifs
    · rfl
    · rfl
    · simp only [views_split, add_comm]
    · rfl

/-! ### Panes that are made again -/

/-- A pane that is split off is a leaf with no session, one whose variables are as if there were
none, or a parent. -/
def KeepsSplit (g : (String → Option String) → β) : Pane F → Prop
  | leaf p => p.session = none ∨ g p.variables = g fun _ => none
  | SplitTree.split _ _ _ => True

/-- The pane that a parent becomes is a leaf with no session, one whose variables are as those of
the parent, an agent pane that is closed as well, or a parent. -/
def KeepsSibling (g : (String → Option String) → β) (parent : ParentPane F) : Pane F → Prop
  | leaf p => p.isAgentPane = true ∨ p.session = none ∨ g p.variables = g parent.variables
  | SplitTree.split _ _ _ => True

/-- A leaf that is not closed, or an agent pane, or a parent. -/
def IsOpen : Pane F → Prop
  | leaf p => p.isAgentPane = true ∨ p.content ≠ none
  | SplitTree.split _ _ _ => True

theorem views_splitOff (h : KeepsSplit g s) : views g (splitOff s) = views g s := by
  cases s with
  | leaf p =>
    rw [splitOff]
    refine (views_leaf_congr (p := p) ?_ fun hsession => ?_).symm
    · rfl
    · exact h.resolve_left hsession
  | split p first second => rfl

theorem views_splitPane [One F] [Sub F] (wider : Bool) (direction : SplitDirection) (splitSize : F)
    (newPane s : Pane F) :
    views g (splitPane wider direction splitSize newPane s) =
      views g (splitOff s) + views g newPane := by
  rw [splitPane]
  split_ifs
  · rw [views_split, add_comm]
  · rw [views_split]

theorem views_closeChild_le_child (closeFirst : Bool)
    (hopen : IsOpen (child closeFirst first second))
    (h : KeepsSibling g p (child closeFirst first second)) :
    views g (closeChild closeFirst (SplitTree.split p first second)).1 ≤
      views g (child closeFirst first second) := by
  rw [closeChild]
  cases hsibling : child closeFirst first second with
  | leaf sibling =>
    rw [hsibling] at h hopen
    cases hagent : sibling.isAgentPane with
    | true =>
      simp only [hagent, if_true]
      rw [views_leaf_of_none rfl]
      exact Multiset.zero_le _
    | false =>
      have hagent' : ¬sibling.isAgentPane = true := by simp [hagent]
      cases hcontent : sibling.content with
      | none => exact absurd hcontent (hopen.resolve_left hagent')
      | some content =>
        simp only [hagent, Bool.false_eq_true, if_false, hcontent]
        refine le_of_eq (views_leaf_congr (by simp [LeafPane.session, LeafPane.ofContent, hcontent])
          fun hsession => ?_)
        have hsession' : sibling.session ≠ none := by
          simpa [LeafPane.session, LeafPane.ofContent, hcontent] using hsession
        exact ((h.resolve_left hagent').resolve_left hsession').symm
  | split sibling first' second' => exact le_of_eq rfl

theorem views_closeChild_le (closeFirst : Bool)
    (h : KeepsSibling g p (child closeFirst first second)) :
    views g (closeChild closeFirst (SplitTree.split p first second)).1 ≤
      views g first + views g second := by
  by_cases hopen : IsOpen (child closeFirst first second)
  · refine (views_closeChild_le_child closeFirst hopen h).trans ?_
    rw [← views_child closeFirst]
    exact Multiset.le_add_right _ _
  · rw [closeChild]
    cases hsibling : child closeFirst first second with
    | leaf sibling =>
      rw [hsibling, IsOpen, not_or, not_not] at hopen
      have hnone : views g (leaf sibling.withoutContent : Pane F) = 0 := views_leaf_of_none rfl
      simp only [Bool.not_eq_true] at hopen
      simp only [hopen.1, Bool.false_eq_true, if_false, hopen.2]
      split_ifs
      · rw [views_split, hnone]
        exact add_le_add_right (Multiset.zero_le _) _
      · rw [views_split, hnone]
        exact add_le_add_left (Multiset.zero_le _) _
    | split sibling first' second' =>
      rw [hsibling] at hopen
      exact absurd trivial hopen

theorem exists_of_not_keepsSplit (h : ¬KeepsSplit id s) :
    ∃ sessionId f, (sessionId, f) ∈ views id s ∧
      (sessionId, fun _ => none) ∈ views id (splitOff s) ∧ (fun _ => none) ≠ f := by
  cases s with
  | leaf p =>
    rw [KeepsSplit, not_or] at h
    obtain ⟨sessionId, hsession⟩ := Option.ne_none_iff_exists'.mp h.1
    refine ⟨sessionId, p.variables, ?_, ?_, fun heq => h.2 heq.symm⟩
    · rw [views_leaf hsession]
      exact Multiset.mem_singleton_self _
    · rw [splitOff]
      refine (views_leaf ?_).symm ▸ Multiset.mem_singleton_self _
      exact hsession
  | split p first second => exact absurd trivial h

theorem exists_of_not_keepsSibling {closeFirst : Bool}
    (h : ¬KeepsSibling id p (child closeFirst first second)) :
    ∃ sessionId f f', (sessionId, f) ∈ views id (SplitTree.split p first second) ∧
      (sessionId, f') ∈ views id (closeChild closeFirst (SplitTree.split p first second)).1 ∧
      f' ≠ f := by
  have hsub : ∀ x ∈ views id (child closeFirst first second),
      x ∈ views id (SplitTree.split p first second) := fun x hx => by
    rw [views_split, ← views_child closeFirst]
    exact Multiset.mem_add.mpr (.inl hx)
  rw [closeChild]
  cases hsibling : child closeFirst first second with
  | leaf sibling =>
    rw [hsibling] at h hsub
    rw [KeepsSibling, not_or, not_or, Bool.not_eq_true] at h
    obtain ⟨hagent, hsession, hne⟩ := h
    obtain ⟨sessionId, hsession⟩ := Option.ne_none_iff_exists'.mp hsession
    refine ⟨sessionId, sibling.variables, p.variables, hsub _ ?_, ?_, fun heq => hne heq.symm⟩
    · rw [views_leaf hsession]
      exact Multiset.mem_singleton_self _
    · cases hcontent : sibling.content with
      | none => simp [LeafPane.session, hcontent] at hsession
      | some content =>
        simp only [hagent, Bool.false_eq_true, if_false, hcontent]
        refine (views_leaf ?_).symm ▸ Multiset.mem_singleton_self _
        simpa [LeafPane.session, LeafPane.ofContent, hcontent] using hsession
  | split sibling first' second' =>
    rw [hsibling] at h
    exact absurd trivial h

end Pane

/-! ### Runs of a tab -/

/-- A tab, the panes that are in no tab, and the value last set for each variable of a session. -/
structure TabRun (F : Type*) where
  root : Pane F
  detached : List (Pane F)
  stored : SessionId → String → Option String

/-- A change of the tree of panes. -/
inductive PaneMove (F : Type*)
  /-- `Pane::Split` of the focused pane, with the pane of this number. -/
  | split (wider : Bool) (direction : SplitDirection) (splitSize : F) (i : ℕ)
  /-- `Pane::AttachPane` of the pane of this number to the pane at a path. -/
  | attach (path : List Bool) (wider : Bool) (direction : SplitDirection) (splitSize : F) (i : ℕ)
  /-- `Pane::DetachPane`. -/
  | detach (path : List Bool)
  /-- `Pane::Close`, before the parent handles `Closed`. -/
  | closeContent (path : List Bool)
  /-- The parent at a path handles `Closed` of a child. -/
  | closeChild (path : List Bool) (closeFirst : Bool)
  | swap (first second : List Bool)
  | reposition (wider : Bool) (direction : SplitDirection)
  | setHidden (hidden : Bool) (path : List Bool)
  | setActive (path : List Bool)

/-- A step of a run. -/
inductive PaneOp (F : Type*)
  /-- A pane is made for a new terminal. -/
  | create (content : PaneContent) (contentId : Option ℕ)
  | setVariable (sessionId : SessionId) (name value : String)
  | move (move : PaneMove F)

namespace TabRun

variable {F : Type*}

/-- The pane object at a path changes. -/
def setAt (run : TabRun F) (path : List Bool) (f : Pane F → Pane F) : TabRun F :=
  match run.root.subtree path with
  | none => run
  | some pane => { run with root := run.root.set path (f pane) }

/-- `TerminalPage::SetProtocolSessionVariable`. An empty value removes the variable. -/
def setVariable (run : TabRun F) (sessionId : SessionId) (name value : String) : TabRun F :=
  match Pane.setProtocolSessionVariable run.root sessionId name value with
  | (_, false) => run
  | (root, true) => { run with
      root
      stored := Function.update run.stored sessionId
        (Function.update (run.stored sessionId) name (if value = "" then none else some value)) }

/-- A change of the tree of panes. -/
def stepMove [One F] [Sub F] (run : TabRun F) : PaneMove F → TabRun F
  | .split wider direction splitSize i =>
    match run.detached[i]? with
    | none => run
    | some newPane =>
      match Pane.split wider direction splitSize newPane run.root with
      | none => run
      | some (root, _) => { run with root, detached := run.detached.eraseIdx i }
  | .attach path wider direction splitSize i =>
    match run.detached[i]?, run.root.subtree path with
    | some newPane, some pane => { run with
        root := run.root.set path (Pane.attachPane wider newPane direction splitSize pane)
        detached := run.detached.eraseIdx i }
    | _, _ => run
  | .detach path =>
    match Pane.detachPane run.root path with
    | none => run
    | some (root, pane, _) => { run with root, detached := run.detached ++ [pane] }
  | .closeContent path => run.setAt path Pane.closeContent
  | .closeChild path closeFirst => run.setAt path fun pane => (Pane.closeChild closeFirst pane).1
  | .swap first second => { run with root := (Pane.swapPanes run.root first second).1 }
  | .reposition wider direction =>
    { run with root := (Pane.repositionAgentPane wider direction run.root).1 }
  | .setHidden hidden path => { run with root := Pane.setHidden hidden run.root path }
  | .setActive path => { run with root := Pane.setActive run.root path }

def step [One F] [Sub F] (run : TabRun F) : PaneOp F → TabRun F
  | .create content contentId =>
    { run with detached :=
        run.detached ++ [leaf { LeafPane.ofContent (some content) with contentId }] }
  | .setVariable sessionId name value => run.setVariable sessionId name value
  | .move move => run.stepMove move

/-- The sessions that the panes show. -/
def shows {β : Type*} (g : (String → Option String) → β) (run : TabRun F) :
    Multiset (SessionId × β) :=
  Pane.views g run.root + (run.detached.map (Pane.views g)).sum

/-- The ids of the sessions that the panes show. -/
def sessions (run : TabRun F) : Multiset SessionId := (run.shows fun _ => ()).map Prod.fst

/-- The session is a new one. -/
def Fresh (run : TabRun F) (sessionId : SessionId) : Prop :=
  sessionId ∉ run.sessions ∧ run.stored sessionId = fun _ => none

/-- What a step needs: a new terminal has a new session, and a pane is not detached while its
sibling is being closed. -/
def Enabled (run : TabRun F) : PaneOp F → Prop
  | .create content contentId => ∀ sessionId,
      LeafPane.session { LeafPane.ofContent (some content) with contentId } = some sessionId →
        run.Fresh sessionId
  | .move (.detach path) => ∀ q side p first second, path = q ++ [side] →
      run.root.subtree q = some (SplitTree.split p first second) →
      Pane.IsOpen (child (!side) first second)
  | _ => True

/-- A step makes no session's leaf again with other variables, as far as `g` tells them apart: a
leaf that is split has none, and a leaf that takes the place of its parent has those of the
parent. -/
def Keeps [One F] [Sub F] {β : Type*} (g : (String → Option String) → β) (run : TabRun F) :
    PaneOp F → Prop
  | .move (.split wider direction splitSize i) => ∀ newPane root q side pane,
      run.detached[i]? = some newPane →
      Pane.split wider direction splitSize newPane run.root = some (root, q ++ [side]) →
      run.root.subtree q = some pane → Pane.KeepsSplit g pane
  | .move (.attach path _ _ _ i) => ∀ newPane pane, run.detached[i]? = some newPane →
      run.root.subtree path = some pane → Pane.KeepsSplit g pane
  | .move (.detach path) => ∀ q side p first second, path = q ++ [side] →
      run.root.subtree q = some (SplitTree.split p first second) →
      Pane.KeepsSibling g p (child (!side) first second)
  | .move (.closeChild path closeFirst) => ∀ p first second,
      run.root.subtree path = some (SplitTree.split p first second) →
      Pane.KeepsSibling g p (child closeFirst first second)
  | _ => True

/-- What is read of a session is the value last set. -/
def Reads (run : TabRun F) : Prop :=
  ∀ sessionId name value,
    Pane.getProtocolSessionVariable run.root sessionId name = some value →
    value = run.stored sessionId name

/-- The sessions that are shown are distinct, and have the variables last set. -/
structure Owns (run : TabRun F) : Prop where
  nodup : run.sessions.Nodup
  eq_stored : ∀ x ∈ run.shows id, x.2 = run.stored x.1

variable {β : Type*} {g : (String → Option String) → β} {run : TabRun F}

theorem map_fst_views (t : Pane F) :
    (Pane.views g t).map Prod.fst = (Pane.views (fun _ => ()) t).map Prod.fst := by
  simp only [Pane.views, Multiset.map_coe, List.map_filterMap, LeafPane.view, Option.map_map]
  rfl

theorem map_fst_sum_views (l : List (Pane F)) :
    (l.map (Pane.views g)).sum.map Prod.fst =
      (l.map fun t => (Pane.views (fun _ => ()) t).map Prod.fst).sum := by
  rw [← Multiset.coe_mapAddMonoidHom, map_list_sum, List.map_map]
  exact congrArg List.sum (List.map_congr_left fun t _ => map_fst_views t)

theorem map_fst_shows (g : (String → Option String) → β) (run : TabRun F) :
    (run.shows g).map Prod.fst = run.sessions := by
  rw [sessions, shows, shows, Multiset.map_add, Multiset.map_add, map_fst_sum_views,
    map_fst_sum_views, map_fst_views]

/-! ### One step -/

theorem sum_views_eraseIdx {l : List (Pane F)} {i : ℕ} {newPane : Pane F}
    (h : l[i]? = some newPane) :
    (l.map (Pane.views g)).sum =
      Pane.views g newPane + ((l.eraseIdx i).map (Pane.views g)).sum := by
  obtain ⟨hi, rfl⟩ := List.getElem?_eq_some_iff.mp h
  have hperm := (List.getElem_cons_eraseIdx_perm hi).symm
  rw [(hperm.map (Pane.views g)).sum_eq, List.map_cons, List.sum_cons]

theorem shows_setAt_le {path : List Bool} {f : Pane F → Pane F}
    (h : ∀ pane, run.root.subtree path = some pane → Pane.views g (f pane) ≤ Pane.views g pane) :
    (run.setAt path f).shows g ≤ run.shows g := by
  rw [setAt]
  cases hsub : run.root.subtree path with
  | none => exact le_refl _
  | some pane =>
    have hle := Pane.views_set_le (g := g) hsub (f pane) (a := 0) (b := 0)
      (by rw [add_zero, add_zero]; exact h pane hsub)
    rw [add_zero, add_zero] at hle
    exact add_le_add_left hle _

theorem shows_insert [One F] [Sub F] {path : List Bool} {pane newPane : Pane F} {i : ℕ}
    (wider : Bool) (direction : SplitDirection) (splitSize : F)
    (hsub : run.root.subtree path = some pane) (hi : run.detached[i]? = some newPane)
    (hkeeps : Pane.KeepsSplit g pane) :
    shows g { run with
        root := run.root.set path (Pane.splitPane wider direction splitSize newPane pane)
        detached := run.detached.eraseIdx i } = run.shows g := by
  obtain ⟨rest, hroot, hset⟩ := Pane.views_set (g := g) hsub
  rw [shows, shows, hset, hroot, sum_views_eraseIdx hi, Pane.views_splitPane,
    Pane.views_splitOff hkeeps]
  abel

theorem shows_stepMove_le [One F] [Sub F] {move : PaneMove F} (henabled : run.Enabled (.move move))
    (hkeeps : run.Keeps g (.move move)) : (run.stepMove move).shows g ≤ run.shows g := by
  cases move with
  | split wider direction splitSize i =>
    rw [stepMove]
    cases hi : run.detached[i]? with
    | none => exact le_refl _
    | some newPane =>
      simp only
      cases hsplit : Pane.split wider direction splitSize newPane run.root with
      | none => exact le_refl _
      | some split =>
        obtain ⟨root, path⟩ := split
        obtain ⟨q, pane, hsub, -, rfl, rfl⟩ := Pane.split_eq_some hsplit
        exact le_of_eq (shows_insert wider direction splitSize hsub hi
          (hkeeps _ _ _ _ _ hi hsplit hsub))
  | attach path wider direction splitSize i =>
    rw [stepMove]
    cases hi : run.detached[i]? with
    | none => exact le_refl _
    | some newPane =>
      cases hsub : run.root.subtree path with
      | none => exact le_refl _
      | some pane =>
        exact le_of_eq (shows_insert wider direction _ hsub hi (hkeeps _ _ hi hsub))
  | detach path =>
    rw [stepMove]
    cases hdetach : Pane.detachPane run.root path with
    | none => exact le_refl _
    | some detached =>
      obtain ⟨q, side, p, first, second, rfl, hsub⟩ := Pane.exists_of_detachPane hdetach
      cases (Pane.detachPane_eq hsub side).symm.trans hdetach
      have hle := Pane.views_closeChild_le_child (!side) (henabled _ _ _ _ _ rfl hsub)
        (hkeeps _ _ _ _ _ rfl hsub)
      have hboth : Pane.views g (child side first second) +
          Pane.views g (child (!side) first second) = Pane.views g first + Pane.views g second :=
        Pane.views_child side
      have hset := Pane.views_set_le (g := g) hsub
        (Pane.closeChild (!side) (SplitTree.split p first second)).1
        (a := Pane.views g (child side first second)) (b := 0) (by
          rw [add_zero, Pane.views_split, ← hboth,
            add_comm (Pane.views g (child side first second))]
          exact add_le_add_left hle _)
      rw [add_zero] at hset
      simp only [shows, List.map_append, List.map_singleton, List.sum_append, List.sum_singleton]
      rw [add_comm _ (Pane.views g (child side first second)), ← add_assoc]
      exact add_le_add_left hset _
  | closeContent path => exact shows_setAt_le fun _ _ => Pane.views_closeContent_le
  | closeChild path closeFirst =>
    refine shows_setAt_le fun pane hsub => ?_
    cases pane with
    | leaf p => exact le_refl _
    | split p first second =>
      rw [Pane.views_split]
      exact Pane.views_closeChild_le closeFirst (hkeeps _ _ _ hsub)
  | swap first second => exact add_le_add_left (le_of_eq (Pane.views_swapPanes _ _)) _
  | reposition wider direction =>
    exact add_le_add_left (le_of_eq (Pane.views_repositionAgentPane _ _)) _
  | setHidden hidden path => exact add_le_add_left (le_of_eq (Pane.views_setHidden _)) _
  | setActive path => exact add_le_add_left (le_of_eq Pane.views_setActive) _

theorem stored_stepMove [One F] [Sub F] (run : TabRun F) (move : PaneMove F) :
    (run.stepMove move).stored = run.stored := by
  have hset : ∀ path f, (run.setAt path f).stored = run.stored := fun path f => by
    rw [setAt]
    split <;> rfl
  cases move with
  | split wider direction splitSize i =>
    rw [stepMove]
    split
    · rfl
    · split <;> rfl
  | attach path wider direction splitSize i =>
    rw [stepMove]
    split <;> rfl
  | detach path =>
    rw [stepMove]
    split <;> rfl
  | closeContent path => exact hset _ _
  | closeChild path closeFirst => exact hset _ _
  | swap first second => rfl
  | reposition wider direction => rfl
  | setHidden hidden path => rfl
  | setActive path => rfl

theorem keeps_const [One F] [Sub F] (b : β) (run : TabRun F) (op : PaneOp F) :
    run.Keeps (fun _ => b) op := by
  have hsplit : ∀ pane : Pane F, Pane.KeepsSplit (fun _ => b) pane := fun pane => by
    cases pane with
    | leaf p => exact .inr rfl
    | split p first second => trivial
  have hsibling : ∀ (p : ParentPane F) (pane : Pane F),
      Pane.KeepsSibling (fun _ => b) p pane := fun p pane => by
    cases pane with
    | leaf p => exact .inr (.inr rfl)
    | split p first second => trivial
  cases op with
  | create content contentId => trivial
  | setVariable sessionId name value => trivial
  | move move =>
    cases move with
    | split => exact fun _ _ _ _ pane _ _ _ => hsplit pane
    | attach => exact fun _ pane _ _ => hsplit pane
    | detach => exact fun _ _ p _ _ _ _ => hsibling p _
    | closeChild => exact fun p _ _ _ => hsibling p _
    | _ => trivial

theorem nodup_sessions_stepMove [One F] [Sub F] {move : PaneMove F} (h : run.sessions.Nodup)
    (henabled : run.Enabled (.move move)) : (run.stepMove move).sessions.Nodup :=
  Multiset.nodup_of_le
    (Multiset.map_le_map (shows_stepMove_le henabled (keeps_const () run _))) h

theorem setVariable_cases (run : TabRun F) (sessionId : SessionId) (name value : String) :
    run.setVariable sessionId name value = run ∨
      ∃ (f : String → Option String) (rest : Multiset (SessionId × (String → Option String))),
        run.shows id = (sessionId, f) ::ₘ rest ∧
          (run.setVariable sessionId name value).shows id = (sessionId,
            Function.update f name (if value = "" then none else some value)) ::ₘ rest ∧
          (run.setVariable sessionId name value).stored = Function.update run.stored sessionId
            (Function.update (run.stored sessionId) name
              (if value = "" then none else some value)) := by
  cases hfind : Pane.findPaneBySessionId run.root sessionId with
  | none =>
    rw [setVariable, Pane.setProtocolSessionVariable, hfind]
    exact .inl rfl
  | some path =>
    obtain ⟨p, hsub, hsession⟩ := Pane.subtree_findPaneBySessionId hfind
    obtain ⟨rest, hroot, hset⟩ := Pane.views_set (g := id) hsub
    obtain ⟨p', hp', hsession', hvariables⟩ : ∃ p' : LeafPane,
        Pane.setProtocolSessionVariable run.root sessionId name value =
          (run.root.set path (leaf p'), true) ∧ p'.session = some sessionId ∧
        p'.variables =
          Function.update p.variables name (if value = "" then none else some value) := by
      refine ⟨{ p with toPaneBase := if value = "" then Pane.removeSessionVariable p.toPaneBase name
        else Pane.setSessionVariable p.toPaneBase name value }, ?_, hsession, ?_⟩
      · rw [Pane.setProtocolSessionVariable, hfind]
        simp only [hsub]
        rfl
      · funext name'
        rw [Function.update_apply]
        by_cases hvalue : value = ""
        · simp only [if_pos hvalue]
          exact Table.lookup_erase_eq _ _ _
        · simp only [if_neg hvalue]
          exact Table.lookup_insert_eq _ _ _ _
    rw [setVariable, hp']
    refine .inr ⟨p.variables, rest + (run.detached.map (Pane.views id)).sum, ?_, ?_, rfl⟩
    · rw [shows, hroot, Pane.views_leaf hsession, add_assoc, Multiset.singleton_add]
      rfl
    · rw [shows, hset, Pane.views_leaf hsession', hvariables, add_assoc, Multiset.singleton_add]
      rfl

theorem Owns.step [One F] [Sub F] {op : PaneOp F} (h : run.Owns) (henabled : run.Enabled op)
    (hkeeps : run.Keeps id op) : (run.step op).Owns := by
  cases op with
  | create content contentId =>
    have hshows : (run.step (.create content contentId)).shows id = run.shows id +
        Pane.views id (leaf { LeafPane.ofContent (some content) with contentId } : Pane F) := by
      rw [TabRun.step, shows, shows, List.map_append, List.sum_append, List.map_singleton,
        List.sum_singleton, add_assoc]
    cases hsession : LeafPane.session { LeafPane.ofContent (some content) with contentId } with
    | none =>
      rw [Pane.views_leaf_of_none hsession, add_zero] at hshows
      exact ⟨by rw [← map_fst_shows id, hshows, map_fst_shows]; exact h.nodup,
        fun x hx => h.eq_stored x (hshows ▸ hx)⟩
    | some sessionId =>
      obtain ⟨hnew, hnone⟩ := henabled sessionId hsession
      rw [Pane.views_leaf hsession, add_comm, Multiset.singleton_add] at hshows
      refine ⟨?_, fun x hx => ?_⟩
      · rw [← map_fst_shows id, hshows, Multiset.map_cons, map_fst_shows]
        exact Multiset.nodup_cons.mpr ⟨hnew, h.nodup⟩
      · rcases Multiset.mem_cons.mp (hshows ▸ hx) with rfl | hx
        · exact hnone.symm
        · exact h.eq_stored x hx
  | setVariable sessionId name value =>
    change (run.setVariable sessionId name value).Owns
    rcases run.setVariable_cases sessionId name value with heq | ⟨f, rest, hbefore, hafter, hstored⟩
    · rw [heq]
      exact h
    · have hnodup := h.nodup
      rw [← map_fst_shows id, hbefore, Multiset.map_cons] at hnodup
      refine ⟨by rwa [← map_fst_shows id, hafter, Multiset.map_cons], fun x hx => ?_⟩
      rw [hafter, Multiset.mem_cons] at hx
      rw [hstored]
      rcases hx with rfl | hx
      · have hf : f = run.stored sessionId :=
          h.eq_stored (sessionId, f) (hbefore ▸ Multiset.mem_cons_self _ _)
        rw [Function.update_self, hf]
      · have hne : x.1 ≠ sessionId := by
          have hmem := Multiset.mem_map_of_mem Prod.fst hx
          rintro heq
          exact (Multiset.nodup_cons.mp hnodup).1 (heq ▸ hmem)
        rw [Function.update_of_ne hne]
        exact h.eq_stored x (hbefore ▸ Multiset.mem_cons_of_mem hx)
  | move move =>
    refine ⟨nodup_sessions_stepMove h.nodup henabled, fun x hx => ?_⟩
    rw [TabRun.step, stored_stepMove]
    exact h.eq_stored x (Multiset.mem_of_le (shows_stepMove_le henabled hkeeps) hx)

/-! ### Where a session loses its variables -/

theorem Owns.reads (h : run.Owns) : run.Reads := by
  intro sessionId name value hget
  obtain ⟨p, hp, hsession, rfl⟩ := Pane.exists_of_getProtocolSessionVariable hget
  have hmem : (sessionId, p.variables) ∈ run.shows id := by
    refine Multiset.mem_add.mpr (.inl (Multiset.mem_coe.mpr (List.mem_filterMap.mpr ⟨p, hp, ?_⟩)))
    rw [LeafPane.view, hsession]
    rfl
  exact congrFun (h.eq_stored _ hmem) name

theorem not_reads (hnodup : run.sessions.Nodup) {sessionId : SessionId}
    {f : String → Option String} (hmem : (sessionId, f) ∈ Pane.views id run.root)
    (hne : f ≠ run.stored sessionId) : ¬run.Reads := by
  intro hreads
  obtain ⟨p, hp, hview⟩ := List.mem_filterMap.mp (Multiset.mem_coe.mp hmem)
  obtain ⟨sessionId, hsession, heq⟩ := Option.map_eq_some_iff.mp hview
  cases heq
  obtain ⟨path, hpath⟩ := Option.isSome_iff_exists.mp (Pane.isSome_findPaneBySessionId hp hsession)
  obtain ⟨p', hsub, hsession'⟩ := Pane.subtree_findPaneBySessionId hpath
  -- the leaf that is found is the one that shows the session
  have hmem' : (sessionId, p'.variables) ∈ Pane.views id run.root := by
    refine Multiset.mem_coe.mpr (List.mem_filterMap.mpr ⟨p', mem_leaves_iff.mpr ⟨path, hsub⟩, ?_⟩)
    rw [LeafPane.view, hsession']
    rfl
  have hsame : (sessionId, p'.variables) = (sessionId, p.variables) := by
    rw [← map_fst_shows id] at hnodup
    exact Multiset.inj_on_of_nodup_map hnodup _ (Multiset.mem_add.mpr (.inl hmem')) _
      (Multiset.mem_add.mpr (.inl hmem)) rfl
  refine hne (funext fun name => ?_)
  have hvariables : p.variables name = p'.variables name := by
    rw [(Prod.mk.injEq _ _ _ _).mp hsame |>.2]
  refine hvariables.trans (hreads sessionId name _ ?_)
  rw [Pane.getProtocolSessionVariable, hpath, Option.bind_some, hsub]
  rfl

theorem Owns.not_reads_set (h : run.Owns) {run' : TabRun F} (hnodup : run'.sessions.Nodup)
    (hstored : run'.stored = run.stored) {q : List Bool} {pane pane' : Pane F}
    (hsub : run.root.subtree q = some pane) (hroot : run'.root = run.root.set q pane')
    {sessionId : SessionId} {f f' : String → Option String}
    (hf : (sessionId, f) ∈ Pane.views id pane) (hf' : (sessionId, f') ∈ Pane.views id pane')
    (hne : f' ≠ f) : ¬run'.Reads := by
  obtain ⟨rest, hbefore, hafter⟩ := Pane.views_set (g := id) hsub
  have hmem' : (sessionId, f') ∈ Pane.views id run'.root := by
    rw [hroot, hafter]
    exact Multiset.mem_add.mpr (.inl hf')
  have hmem : (sessionId, f) ∈ run.shows id := by
    rw [shows, hbefore]
    exact Multiset.mem_add.mpr (.inl (Multiset.mem_add.mpr (.inl hf)))
  refine not_reads hnodup hmem' ?_
  rw [hstored, ← h.eq_stored _ hmem]
  exact hne

theorem mem_views_splitPane [One F] [Sub F] (wider : Bool) (direction : SplitDirection)
    (splitSize : F) (newPane : Pane F) {pane : Pane F} {x : SessionId × β}
    (h : x ∈ Pane.views g (Pane.splitOff pane)) :
    x ∈ Pane.views g (Pane.splitPane wider direction splitSize newPane pane) := by
  rw [Pane.views_splitPane]
  exact Multiset.mem_add.mpr (.inl h)

theorem Owns.not_reads_step [One F] [Sub F] {op : PaneOp F} (h : run.Owns)
    (henabled : run.Enabled op) (hkeeps : ¬run.Keeps id op) : ¬(run.step op).Reads := by
  cases op with
  | create content contentId => exact absurd trivial hkeeps
  | setVariable sessionId name value => exact absurd trivial hkeeps
  | move move =>
    have hnodup := nodup_sessions_stepMove h.nodup henabled
    have hstored := stored_stepMove run move
    cases move with
    | split wider direction splitSize i =>
      simp only [Keeps, not_forall] at hkeeps
      obtain ⟨newPane, root, q, side, pane, hi, hsplit, hsub, hnot⟩ := hkeeps
      obtain ⟨q', pane', hsub', -, hpath, rfl⟩ := Pane.split_eq_some hsplit
      obtain ⟨rfl, -⟩ := List.append_inj' hpath rfl
      cases hsub'.symm.trans hsub
      obtain ⟨sessionId, f, hf, hf', hne⟩ := Pane.exists_of_not_keepsSplit hnot
      refine h.not_reads_set hnodup hstored hsub ?_ hf
        (mem_views_splitPane wider direction splitSize newPane hf') hne
      simp only [TabRun.step, stepMove, hi, hsplit]
    | attach path wider direction splitSize i =>
      simp only [Keeps, not_forall] at hkeeps
      obtain ⟨newPane, pane, hi, hsub, hnot⟩ := hkeeps
      obtain ⟨sessionId, f, hf, hf', hne⟩ := Pane.exists_of_not_keepsSplit hnot
      refine h.not_reads_set hnodup hstored hsub ?_ hf
        (mem_views_splitPane wider direction
          (if Pane.isLeading direction then 1 - splitSize else splitSize) newPane hf') hne
      simp only [TabRun.step, stepMove, hi, hsub]
      rfl
    | detach path =>
      simp only [Keeps, not_forall] at hkeeps
      obtain ⟨q, side, p, first, second, rfl, hsub, hnot⟩ := hkeeps
      obtain ⟨sessionId, f, f', hf, hf', hne⟩ := Pane.exists_of_not_keepsSibling hnot
      refine h.not_reads_set hnodup hstored hsub ?_ hf hf' hne
      simp only [TabRun.step, stepMove, Pane.detachPane_eq hsub side]
    | closeChild path closeFirst =>
      simp only [Keeps, not_forall] at hkeeps
      obtain ⟨p, first, second, hsub, hnot⟩ := hkeeps
      obtain ⟨sessionId, f, f', hf, hf', hne⟩ := Pane.exists_of_not_keepsSibling hnot
      refine h.not_reads_set hnodup hstored hsub ?_ hf hf' hne
      simp only [TabRun.step, stepMove, setAt, hsub]
    | closeContent path => exact absurd trivial hkeeps
    | swap first second => exact absurd trivial hkeeps
    | reposition wider direction => exact absurd trivial hkeeps
    | setHidden hidden path => exact absurd trivial hkeeps
    | setActive path => exact absurd trivial hkeeps

end TabRun

/-- In a run of a tab, every variable that is read is the one last set exactly if every step keeps
the variables. -/
theorem session_variables_iff {F : Type*} [One F] [Sub F] {run : TabRun F} {ops : List (PaneOp F)}
    (hstart : run.Owns) (henabled : Along TabRun.step TabRun.Enabled run ops) :
    (∀ pre, pre <+: ops → (pre.foldl TabRun.step run).Reads) ↔
      Along TabRun.step (TabRun.Keeps id) run ops :=
  forall_isPrefix_iff_along_of_enabled (fun _ => TabRun.Owns.reads) ops henabled
    (fun _ _ _ h henabled hkeeps => h.step henabled hkeeps)
    (fun _ _ _ h henabled hkeeps => h.not_reads_step henabled hkeeps) hstart

/-- A shell that is split, and whose variable is set before it changes places with the other one. -/
theorem session_variables_late :
    let shell : SessionId → Pane ℚ := fun id => leaf (LeafPane.ofContent (some (.terminal "" id)))
    let run : TabRun ℚ := ⟨Pane.setActive (shell 1) [], [], fun _ _ => none⟩
    let ops : List (PaneOp ℚ) := [.create (.terminal "" (some 2)) none,
      .move (.split true .right (1 / 2) 0), .setVariable 1 "cwd" "/tmp",
      .move (.swap [false] [true])]
    ∀ pre, pre <+: ops → (pre.foldl TabRun.step run).Reads := by
  intro shell run ops
  have hshows : run.shows id = {(1, fun _ => none)} :=
    Multiset.add_zero _
  refine (session_variables_iff ⟨?_, ?_⟩ ?_).mpr ?_
  · rw [← TabRun.map_fst_shows id, hshows]
    exact Multiset.nodup_singleton _
  · intro x hx
    rw [hshows, Multiset.mem_singleton] at hx
    rw [hx]
  · refine ⟨fun sessionId hsession => ⟨?_, rfl⟩, trivial, trivial, trivial, trivial⟩
    rw [← TabRun.map_fst_shows id, hshows]
    cases hsession
    decide
  · refine ⟨trivial, fun newPane root q side pane hi hsplit hsub => ?_, trivial, trivial, trivial⟩
    cases q with
    | nil =>
      cases hsub
      exact .inr rfl
    | cons side' q => cases hsub

/-- A shell whose variable is set and that is split afterwards. -/
theorem session_variables_lost :
    let shell : SessionId → Pane ℚ := fun id => leaf (LeafPane.ofContent (some (.terminal "" id)))
    let run : TabRun ℚ := ⟨Pane.setActive (shell 1) [], [], fun _ _ => none⟩
    let ops : List (PaneOp ℚ) := [.setVariable 1 "cwd" "/tmp", .create (.terminal "" (some 2)) none,
      .move (.split true .right (1 / 2) 0)]
    let last := ops.foldl TabRun.step run
    last.stored 1 "cwd" = some "/tmp" ∧
      Pane.getProtocolSessionVariable last.root 1 "cwd" = some none := by
  intro shell run ops last
  decide +kernel

end IntelligentTerminal.Panes
