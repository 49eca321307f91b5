import Mathlib

/-!
# The list of tabs

`TabListViewModel` answers, from the tabs and what is filtered, which tab a binding switches to,
which tab is next when the tabs on display are cycled through, which place a tab can be moved to,
and which binding is shown as the hint of a tab.

An identity is a pointer that is compared only, and `0` is the null pointer. A text is a list of
UTF-16 code units. `CompareStringOrdinal`, which `compare_ordinal_insensitive` calls, is a parameter
that says whether two texts compare equal.

Source: `src/cascadia/TerminalApp/TabListViewModel.h`; `src/inc/til/string.h`, lines 609-621.
-/

namespace IntelligentTerminal.Tabs

/-- A `void*`. -/
abbrev Identity := ℕ

/-- A `std::wstring`. -/
abbrev WString := List ℕ

structure ChildFields where
  title : WString
  metadataText : WString
  metadataVisible : Bool := false

structure OwnerEntry where
  identity : Identity
  canonicalIndex : ℕ
  isPinned : Bool
  isAgent : Bool
  title : WString
  headerMetadataText : WString := []
  headerMetadataVisible : Bool := false
  childrenVisible : Bool := false
  children : List ChildFields := []

structure Criteria where
  verticalLayout : Bool := false
  railVisible : Bool := false
  railCollapsed : Bool := false
  agentsOnlySelected : Bool := false
  searchActive : Bool := false
  query : WString := []

structure DerivedPolicy where
  searchEffective : Bool
  navigationAgentScopeEffective : Bool
  displayAgentScopeEffective : Bool
  positionOperationsBlocked : Bool

structure OwnerState where
  agentScopeMatched : Bool
  searchMatched : Bool
  displayed : Bool
  navigationOrdinal : Option ℕ
  canMovePrevious : Bool
  canMoveNext : Bool

structure Target where
  identity : Identity
  canonicalIndex : ℕ
deriving DecidableEq

structure SwitchResult where
  target : Target
  isLastFallback : Bool
deriving DecidableEq

structure BindingCandidate where
  text : WString
  switchIndex : ℕ
  useFilterNavigation : Bool

inductive MoveDirection
  | previous
  | next
deriving DecidableEq

/-- `std::numeric_limits<uint32_t>::max()`. -/
def uint32Max : ℕ := 2 ^ 32 - 1

/-- The target that names an owner. -/
def OwnerEntry.target (owner : OwnerEntry) : Target := ⟨owner.identity, owner.canonicalIndex⟩

/-- `class TabListViewModel`, with the comparison that ignores case. -/
structure TabListViewModel where
  equalIgnoringCase : WString → WString → Bool
  owners : List OwnerEntry
  criteria : Criteria

namespace TabListViewModel

variable (m : TabListViewModel)

def policy : DerivedPolicy :=
  let c := m.criteria
  let search := c.verticalLayout && c.railVisible && !c.railCollapsed &&
    (c.searchActive || !c.query.isEmpty)
  let navigationScope := c.verticalLayout && c.agentsOnlySelected
  let displayScope := navigationScope && c.query.isEmpty
  ⟨search, navigationScope, displayScope, displayScope || search⟩

/-- `matches` in `_MatchesSearch`. -/
def matchesQuery (value : WString) : Bool :=
  let query := m.criteria.query
  if value.length < query.length then false
  else
    (List.range (value.length - query.length + 1)).any fun offset =>
      m.equalIgnoringCase ((value.drop offset).take query.length) query

def matchesSearch (owner : OwnerEntry) : Bool :=
  if !m.policy.searchEffective || m.criteria.query.isEmpty then true
  else
    m.matchesQuery owner.title ||
      (owner.headerMetadataVisible && m.matchesQuery owner.headerMetadataText) ||
      (owner.childrenVisible && owner.children.any fun child =>
        m.matchesQuery child.title ||
          (child.metadataVisible && m.matchesQuery child.metadataText))

def isDisplayed (owner : OwnerEntry) (searchMatched : Bool) : Bool :=
  (!m.policy.displayAgentScopeEffective || owner.isAgent) && searchMatched

/-- `!agentScope || owner.isAgent`, where the scope applies if it is used. -/
def navigable (useFilterNavigation : Bool) (owner : OwnerEntry) : Bool :=
  !(useFilterNavigation && m.policy.navigationAgentScopeEffective) || owner.isAgent

/-! ### Moving -/

/-- The loops of `MoveTarget`, over the neighbours in the order in which they are visited. -/
def neighborLoop (isPinned : Bool) : List OwnerEntry → Option Target
  | [] => none
  | neighbor :: rest =>
    if neighbor.isPinned ≠ isPinned then none
    else if m.navigable true neighbor then some neighbor.target
    else neighborLoop isPinned rest

def moveTarget (identity : Identity) (direction : MoveDirection) : Option Target :=
  if m.policy.searchEffective || identity == 0 then none
  else
    match m.owners.findIdx? fun owner => owner.identity = identity with
    | none => none
    | some i =>
      match m.owners[i]? with
      | none => none
      | some owner =>
        if !m.navigable true owner then none
        else
          m.neighborLoop owner.isPinned <|
            match direction with
            | .previous => (m.owners.take i).reverse
            | .next => m.owners.drop (i + 1)

/-! ### States and bindings -/

/-- The loop of `StateFor`, with `ordinal` owners counted. -/
def stateLoop (identity : Identity) : ℕ → List OwnerEntry → Option OwnerState
  | _, [] => none
  | ordinal, owner :: rest =>
    if owner.identity = identity then
      let searchMatched := m.matchesSearch owner
      some
        { agentScopeMatched := owner.isAgent
          searchMatched
          displayed := m.isDisplayed owner searchMatched
          navigationOrdinal := if m.navigable true owner then some ordinal else none
          canMovePrevious := (m.moveTarget identity .previous).isSome
          canMoveNext := (m.moveTarget identity .next).isSome }
    else
      stateLoop identity (if m.navigable true owner then (ordinal + 1) % 2 ^ 32 else ordinal) rest

def stateFor (identity : Identity) : Option OwnerState :=
  if identity = 0 then
    some
      { agentScopeMatched := false
        searchMatched := !m.policy.searchEffective
        displayed := !m.policy.searchEffective && !m.policy.displayAgentScopeEffective
        navigationOrdinal := none
        canMovePrevious := false
        canMoveNext := false }
  else m.stateLoop identity 0 m.owners

/-- The loop of `SwitchTarget`. -/
def switchLoop (useFilterNavigation : Bool) :
    ℕ → Option Target → List OwnerEntry → Option SwitchResult
  | _, last, [] => last.map fun target => ⟨target, true⟩
  | index, last, owner :: rest =>
    if m.navigable useFilterNavigation owner then
      if index = 0 then some ⟨owner.target, false⟩
      else
        switchLoop useFilterNavigation (if index ≠ uint32Max then index - 1 else index)
          (some owner.target) rest
    else switchLoop useFilterNavigation index last rest

def switchTarget (index : ℕ) (useFilterNavigation : Bool) : Option SwitchResult :=
  m.switchLoop useFilterNavigation index none m.owners

/-! ### Cycling -/

/-- One step around a list of `size` elements. -/
def cycleStep (forward : Bool) (size index : ℕ) : ℕ :=
  if forward then (if index + 1 = size then 0 else index + 1)
  else (if index = 0 then size - 1 else index - 1)

/-- The second loop of `CycleDisplayedTarget`, with at most `n` owners to visit. -/
def cycleLoop (forward : Bool) : ℕ → ℕ → Option Target
  | 0, _ => none
  | n + 1, index =>
    let index := cycleStep forward m.owners.length index
    match m.owners[index]? with
    | none => none
    | some owner =>
      if m.isDisplayed owner (m.matchesSearch owner) then some owner.target
      else cycleLoop forward n index

def cycleDisplayedTarget (identity : Identity) (forward : Bool) : Option Target :=
  if m.owners.isEmpty then none
  else
    let index := (m.owners.findIdx? fun owner => owner.identity = identity).getD
      (if forward then m.owners.length - 1 else 0)
    m.cycleLoop forward m.owners.length index

/-! ### Hints -/

/-- `rank` in `ChooseHint`. -/
def hintRank (canonicalText : WString) (state : OwnerState) (candidate : BindingCandidate)
    (result : SwitchResult) : ℕ :=
  if result.isLastFallback then 3
  else if candidate.text = canonicalText then 0
  else if candidate.useFilterNavigation && state.navigationOrdinal == some candidate.switchIndex
    then 1
  else 2

/-- The loop of `ChooseHint`: the chosen candidate with its index, and the best rank. -/
def hintLoop (identity : Identity) (canonicalText : WString) (state : OwnerState) :
    ℕ → Option (ℕ × BindingCandidate) → ℕ → List BindingCandidate → Option (ℕ × BindingCandidate)
  | _, chosen, _, [] => chosen
  | i, chosen, bestRank, candidate :: rest =>
    match m.switchTarget candidate.switchIndex candidate.useFilterNavigation with
    | none => hintLoop identity canonicalText state (i + 1) chosen bestRank rest
    | some result =>
      if result.target.identity ≠ identity then
        hintLoop identity canonicalText state (i + 1) chosen bestRank rest
      else
        let rank := hintRank canonicalText state candidate result
        if rank < bestRank ||
            (rank == bestRank && chosen.any fun best => candidate.text < best.2.text) then
          hintLoop identity canonicalText state (i + 1) (some (i, candidate)) rank rest
        else hintLoop identity canonicalText state (i + 1) chosen bestRank rest

/-- `ChooseHint`: the index of a candidate. -/
def chooseHint (identity : Identity) (canonicalText : WString)
    (candidates : List BindingCandidate) : Option ℕ :=
  match m.stateFor identity with
  | none => none
  | some state =>
    if identity = 0 then none
    else (m.hintLoop identity canonicalText state 0 none 4 candidates).map (·.1)

end TabListViewModel

end IntelligentTerminal.Tabs
