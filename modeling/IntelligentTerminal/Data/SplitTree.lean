import Mathlib.Data.List.Basic
import Mathlib.Data.List.Nodup
import Mathlib.Data.List.Perm.Basic

/-!
# Trees of splits

A tree whose inner nodes have two children. A place in it is a path of turns, `false` for the first
child and `true` for the second one.
-/

namespace IntelligentTerminal

/-- A tree of splits. -/
inductive SplitTree (D A : Type*)
  | leaf (a : A)
  | split (d : D) (first second : SplitTree D A)
deriving DecidableEq

namespace SplitTree

variable {D D' A A' : Type*}

/-- The child on a side. -/
def child (side : Bool) (first second : SplitTree D A) : SplitTree D A :=
  if side then second else first

/-- The subtree at a path. -/
def subtree : SplitTree D A → List Bool → Option (SplitTree D A)
  | t, [] => some t
  | leaf _, _ :: _ => none
  | split _ first second, side :: path => (child side first second).subtree path

/-- The subtree at a path is replaced. -/
def set : SplitTree D A → List Bool → SplitTree D A → SplitTree D A
  | _, [], s => s
  | leaf a, _ :: _, _ => leaf a
  | split d first second, false :: path, s => split d (first.set path s) second
  | split d first second, true :: path, s => split d first (second.set path s)

/-- Changes what the nodes carry. -/
def map (f : D → D') (g : A → A') : SplitTree D A → SplitTree D' A'
  | leaf a => leaf (g a)
  | split d first second => split (f d) (first.map f g) (second.map f g)

/-- What the leaves carry, in order. -/
def leaves : SplitTree D A → List A
  | leaf a => [a]
  | split _ first second => first.leaves ++ second.leaves

/-- The paths of the leaves, in order. -/
def leafPaths : SplitTree D A → List (List Bool)
  | leaf _ => [[]]
  | split _ first second =>
    first.leafPaths.map (false :: ·) ++ second.leafPaths.map (true :: ·)

/-- The subtree at a path goes, and its sibling takes the place of the parent. -/
def remove : SplitTree D A → List Bool → SplitTree D A
  | t, [] => t
  | leaf a, _ :: _ => leaf a
  | split _ first second, [side] => child (!side) first second
  | split d first second, false :: side :: path => split d (first.remove (side :: path)) second
  | split d first second, true :: side :: path => split d first (second.remove (side :: path))

/-- The nodes, a parent before its children: their paths, and whether they are leaves. -/
def nodes : SplitTree D A → List (List Bool × Bool)
  | leaf _ => [([], true)]
  | split _ first second =>
    ([], false) :: ((first.nodes.map fun (path, isLeaf) => (false :: path, isLeaf)) ++
      second.nodes.map fun (path, isLeaf) => (true :: path, isLeaf))

/-- The number of inner nodes. -/
def splits : SplitTree D A → ℕ
  | leaf _ => 0
  | split _ first second => first.splits + second.splits + 1

/-- Whether the tree is a leaf. -/
def isLeaf : SplitTree D A → Bool
  | leaf _ => true
  | split _ _ _ => false

/-! ### Subtrees -/

variable {t s s' : SplitTree D A} {path q : List Bool} {e : List Bool × Bool}

theorem subtree_append (t : SplitTree D A) (path q : List Bool) :
    t.subtree (path ++ q) = (t.subtree path).bind (·.subtree q) := by
  induction path generalizing t with
  | nil => cases t <;> rfl
  | cons side path ih =>
    cases t with
    | leaf a => rfl
    | split d first second => exact ih _

theorem subtree_nil (t : SplitTree D A) : t.subtree [] = some t := by
  cases t <;> rfl

theorem set_nil (t s : SplitTree D A) : t.set [] s = s := by
  cases t <;> rfl

theorem subtree_set (h : t.subtree path = some s) (s' : SplitTree D A) :
    (t.set path s').subtree path = some s' := by
  induction path generalizing t with
  | nil => rw [set_nil, subtree_nil]
  | cons side path ih =>
    cases t with
    | leaf a => cases h
    | split d first second => cases side <;> exact ih h

theorem set_set (t : SplitTree D A) (path : List Bool) (s s' : SplitTree D A) :
    (t.set path s).set path s' = t.set path s' := by
  induction path generalizing t with
  | nil => rw [set_nil, set_nil]
  | cons side path ih =>
    cases t with
    | leaf a => rfl
    | split d first second => cases side <;> simp only [set, ih]

theorem set_subtree (h : t.subtree path = some s) : t.set path s = t := by
  induction path generalizing t with
  | nil =>
    rw [subtree_nil, Option.some.injEq] at h
    rw [set_nil, h]
  | cons side path ih =>
    cases t with
    | leaf a => rfl
    | split d first second =>
      cases side with
      | false => exact congrArg (split d · second) (ih h)
      | true => exact congrArg (split d first) (ih h)

theorem set_append (h : t.subtree path = some s) (q : List Bool) (s' : SplitTree D A) :
    t.set (path ++ q) s' = t.set path (s.set q s') := by
  induction path generalizing t with
  | nil =>
    rw [subtree_nil, Option.some.injEq] at h
    rw [List.nil_append, set_nil, h]
  | cons side path ih =>
    cases t with
    | leaf a => cases h
    | split d first second =>
      cases side with
      | false => exact congrArg (split d · second) (ih h)
      | true => exact congrArg (split d first) (ih h)

theorem set_inj (h : t.subtree path = some s) {u u' : SplitTree D A} :
    t.set path u = t.set path u' ↔ u = u' := by
  refine ⟨fun heq => ?_, fun heq => by rw [heq]⟩
  have hat := congrArg (·.subtree path) heq
  simpa only [subtree_set h, Option.some.injEq] using hat

theorem remove_eq_set {d : D} {first second : SplitTree D A}
    (h : t.subtree path = some (split d first second)) (side : Bool) :
    t.remove (path ++ [side]) = t.set path (child (!side) first second) := by
  induction path generalizing t with
  | nil =>
    rw [subtree_nil, Option.some.injEq] at h
    rw [h, set_nil]
    rfl
  | cons side' path ih =>
    cases t with
    | leaf a => cases h
    | split d first second =>
      obtain ⟨side'', q, hq⟩ : ∃ side'' q, path ++ [side] = side'' :: q := by
        cases path with
        | nil => exact ⟨side, [], rfl⟩
        | cons side'' q => exact ⟨side'', q ++ [side], rfl⟩
      cases side' with
      | false =>
        have hrest := ih (t := first) h
        rw [hq] at hrest
        rw [List.cons_append, hq, remove, hrest, set]
      | true =>
        have hrest := ih (t := second) h
        rw [hq] at hrest
        rw [List.cons_append, hq, remove, hrest, set]

theorem subtree_set_of_not_isPrefix (t s : SplitTree D A) (hpath : ¬path <+: q) (hq : ¬q <+: path) :
    (t.set path s).subtree q = t.subtree q := by
  induction path generalizing t q with
  | nil => exact absurd (List.nil_prefix) hpath
  | cons side path ih =>
    cases q with
    | nil => exact absurd (List.nil_prefix) hq
    | cons side' q =>
      cases t with
      | leaf a => rfl
      | split d first second =>
        by_cases hside : side = side'
        · subst hside
          have hrest : ∀ t : SplitTree D A, (t.set path s).subtree q = t.subtree q := fun t =>
            ih t (fun h => hpath (List.cons_prefix_cons.mpr ⟨rfl, h⟩))
              fun h => hq (List.cons_prefix_cons.mpr ⟨rfl, h⟩)
          cases side <;> exact hrest _
        · cases side <;> cases side' <;> first | exact absurd rfl hside | rfl

/-! ### Changing what nodes carry -/

theorem subtree_map (f : D → D') (g : A → A') (t : SplitTree D A) (path : List Bool) :
    (t.map f g).subtree path = (t.subtree path).map (map f g) := by
  induction path generalizing t with
  | nil => rw [subtree_nil, subtree_nil, Option.map_some]
  | cons side path ih =>
    cases t with
    | leaf a => rfl
    | split d first second => cases side <;> exact ih _

theorem map_set (f : D → D') (g : A → A') (t : SplitTree D A) (path : List Bool)
    (s : SplitTree D A) : (t.set path s).map f g = (t.map f g).set path (s.map f g) := by
  induction path generalizing t with
  | nil => rw [set_nil, set_nil]
  | cons side path ih =>
    cases t with
    | leaf a => rfl
    | split d first second => cases side <;> simp only [set, map, ih]

theorem leafPaths_map (f : D → D') (g : A → A') (t : SplitTree D A) :
    (t.map f g).leafPaths = t.leafPaths := by
  induction t with
  | leaf a => rfl
  | split d first second ih ih' => simp only [map, leafPaths, ih, ih']

theorem map_map {D'' A'' : Type*} (f : D → D') (g : A → A') (f' : D' → D'') (g' : A' → A'')
    (t : SplitTree D A) : (t.map f g).map f' g' = t.map (f' ∘ f) (g' ∘ g) := by
  induction t with
  | leaf a => rfl
  | split d first second ih ih' => simp only [map, ih, ih', Function.comp_apply]

theorem leaves_map (f : D → D') (g : A → A') (t : SplitTree D A) :
    (t.map f g).leaves = t.leaves.map g := by
  induction t with
  | leaf a => rfl
  | split d first second ih ih' => simp only [map, leaves, ih, ih', List.map_append]

/-! ### Leaves in order -/

theorem leaves_set (h : t.subtree path = some s) :
    ∃ pre post, ∀ u : SplitTree D A, (t.set path u).leaves = pre ++ u.leaves ++ post := by
  induction path generalizing t with
  | nil => exact ⟨[], [], fun u => by rw [set_nil, List.nil_append, List.append_nil]⟩
  | cons side path ih =>
    cases t with
    | leaf a => cases h
    | split d first second =>
      obtain ⟨pre, post, hset⟩ := ih h
      cases side with
      | false =>
        exact ⟨pre, post ++ second.leaves, fun u => by
          simp only [set, leaves, child] at hset ⊢
          rw [show (first.set path u).leaves = _ from hset u, List.append_assoc]⟩
      | true =>
        exact ⟨first.leaves ++ pre, post, fun u => by
          simp only [set, leaves, child] at hset ⊢
          rw [show (second.set path u).leaves = _ from hset u]
          simp only [List.append_assoc]⟩

theorem leafPaths_set (h : t.subtree path = some s) :
    ∃ pre post, ∀ u : SplitTree D A,
      (t.set path u).leafPaths = pre ++ u.leafPaths.map (path ++ ·) ++ post := by
  induction path generalizing t with
  | nil => exact ⟨[], [], fun u => by simp [set_nil]⟩
  | cons side path ih =>
    cases t with
    | leaf a => cases h
    | split d first second =>
      obtain ⟨pre, post, hset⟩ := ih h
      cases side with
      | false =>
        exact ⟨pre.map (false :: ·), post.map (false :: ·) ++ second.leafPaths.map (true :: ·),
          fun u => by
            simp only [set, leafPaths, child] at hset ⊢
            rw [show (first.set path u).leafPaths = _ from hset u]
            simp⟩
      | true =>
        exact ⟨first.leafPaths.map (false :: ·) ++ pre.map (true :: ·), post.map (true :: ·),
          fun u => by
            simp only [set, leafPaths, child] at hset ⊢
            rw [show (second.set path u).leafPaths = _ from hset u]
            simp⟩

theorem leaves_swap_perm (hpath : t.subtree path = some s) (hq : t.subtree q = some s')
    (hnot : ¬path <+: q) (hnot' : ¬q <+: path) :
    ((t.set path s').set q s).leaves.Perm t.leaves := by
  obtain ⟨pre, post, hset⟩ := leaves_set hpath
  have hq' : (t.set path s').subtree q = some s' :=
    (subtree_set_of_not_isPrefix t s' hnot hnot').trans hq
  obtain ⟨pre', post', hset'⟩ := leaves_set hq'
  have ht : t.leaves = pre ++ s.leaves ++ post := by
    rw [← hset s, set_subtree hpath]
  have hmid : pre' ++ s'.leaves ++ post' = pre ++ s'.leaves ++ post := by
    rw [← hset', set_subtree hq', hset]
  -- both sides are a subtree in the middle of the same rest
  have hcenter : ∀ pre post u : List A, (pre ++ u ++ post).Perm (u ++ (pre ++ post)) :=
    fun pre post u => by
      rw [List.append_assoc]
      exact (List.perm_append_comm_assoc pre u post)
  have hrest : (pre' ++ post').Perm (pre ++ post) := by
    refine (List.perm_append_left_iff s'.leaves).mp ?_
    exact ((hcenter pre' post' _).symm.trans (hmid ▸ List.Perm.refl _)).trans (hcenter pre post _)
  rw [hset', ht]
  exact ((hcenter pre' post' _).trans (hrest.append_left _)).trans (hcenter pre post _).symm

theorem mem_leafPaths_iff : path ∈ t.leafPaths ↔ ∃ a, t.subtree path = some (leaf a) := by
  induction t generalizing path with
  | leaf a =>
    cases path with
    | nil => simp [leafPaths, subtree]
    | cons side path => simp [leafPaths, subtree]
  | split d first second ih ih' =>
    cases path with
    | nil => simp [leafPaths, subtree]
    | cons side path => cases side <;> simp [leafPaths, subtree, child, ih, ih']

theorem mem_leaves_iff {a : A} : a ∈ t.leaves ↔ ∃ path, t.subtree path = some (leaf a) := by
  constructor
  · intro h
    induction t with
    | leaf b => exact ⟨[], by rw [List.mem_singleton.mp h]; rfl⟩
    | split d first second ih ih' =>
      rcases List.mem_append.mp h with h | h
      · obtain ⟨path, hpath⟩ := ih h
        exact ⟨false :: path, hpath⟩
      · obtain ⟨path, hpath⟩ := ih' h
        exact ⟨true :: path, hpath⟩
  · rintro ⟨path, hpath⟩
    obtain ⟨pre, post, hset⟩ := leaves_set hpath
    rw [← set_subtree hpath, hset]
    simp [leaves]

/-! ### Nodes in order -/

theorem filterMap_nodes (t : SplitTree D A) :
    t.nodes.filterMap (fun e => if e.2 then some e.1 else none) = t.leafPaths := by
  have hchild : ∀ (side : Bool) (l : List (List Bool × Bool)),
      (l.map fun (path, isLeaf) => (side :: path, isLeaf)).filterMap
          (fun e => if e.2 then some e.1 else none) =
        (l.filterMap fun e => if e.2 then some e.1 else none).map (side :: ·) := by
    intro side l
    rw [List.filterMap_map, List.map_filterMap]
    congr 1
    funext e
    cases h : e.2 <;> simp [h]
  induction t with
  | leaf a => rfl
  | split d first second ih ih' =>
    rw [nodes, List.filterMap_cons_none rfl, List.filterMap_append, hchild, hchild, ih, ih',
      leafPaths]

theorem nodup_nodes (t : SplitTree D A) : (t.nodes.map Prod.fst).Nodup := by
  have hchild : ∀ (side : Bool) (l : List (List Bool × Bool)),
      (l.map fun (path, isLeaf) => (side :: path, isLeaf)).map Prod.fst =
        (l.map Prod.fst).map (side :: ·) := by
    intro side l
    rw [List.map_map, List.map_map]
    rfl
  induction t with
  | leaf a => exact List.nodup_singleton _
  | split d first second ih ih' =>
    rw [nodes, List.map_cons, List.map_append, hchild, hchild, List.nodup_cons, List.nodup_append]
    refine ⟨by simp, ih.map List.cons_injective, ih'.map List.cons_injective, ?_⟩
    rintro a ha b hb rfl
    obtain ⟨p, -, rfl⟩ := List.mem_map.mp ha
    obtain ⟨q, -, heq⟩ := List.mem_map.mp hb
    cases heq

theorem exists_subtree_of_mem_nodes (h : e ∈ t.nodes) :
    ∃ s, t.subtree e.1 = some s := by
  induction t generalizing e with
  | leaf a => exact ⟨leaf a, by rw [List.mem_singleton.mp h]; rfl⟩
  | split d first second ih ih' =>
    rcases List.mem_cons.mp h with rfl | h
    · exact ⟨split d first second, rfl⟩
    · rcases List.mem_append.mp h with h | h
      · obtain ⟨e', he', rfl⟩ := List.mem_map.mp h
        exact ih he'
      · obtain ⟨e', he', rfl⟩ := List.mem_map.mp h
        exact ih' he'

theorem eq_of_isPrefix_of_mem_nodes {a : A} (h : t.subtree path = some (leaf a)) (he : e ∈ t.nodes)
    (hpath : path <+: e.1) : e.1 = path := by
  obtain ⟨q, hq⟩ := hpath
  obtain ⟨s, hs⟩ := exists_subtree_of_mem_nodes he
  rw [← hq, subtree_append, h, Option.bind_some] at hs
  cases q with
  | nil => rw [← hq, List.append_nil]
  | cons side q => cases hs

theorem isLeaf_eq_false {path' : List Bool} {pre post : List (List Bool)}
    (h : t.leafPaths = pre ++ path :: path' :: post) : t.isLeaf = false := by
  cases t with
  | leaf a =>
    have hlength := congrArg List.length h
    simp only [leafPaths, List.length_append, List.length_cons, List.length_nil] at hlength
    omega
  | split d first second => rfl

/-- The path of the last leaf. -/
def lastPath : SplitTree D A → List Bool
  | leaf _ => []
  | split _ _ second => true :: second.lastPath

theorem leafPaths_eq_concat (t : SplitTree D A) : ∃ l, t.leafPaths = l ++ [t.lastPath] := by
  induction t with
  | leaf a => exact ⟨[], rfl⟩
  | split d first second _ ih =>
    obtain ⟨l, hl⟩ := ih
    refine ⟨first.leafPaths.map (false :: ·) ++ l.map (true :: ·), ?_⟩
    rw [leafPaths, hl, lastPath]
    simp

end SplitTree

end IntelligentTerminal
