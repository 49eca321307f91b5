import Mathlib
import IntelligentTerminal.Data.Table

/-!
# Providers of rich tab fields, their requests and their snapshots

A provider is a program that is asked for the fields of a session and answers with a snapshot. Its
manifest declares the fields and the events at which it is asked. One provider comes with the
product: git status, which the broker treats specially.

Source: `src/src/cascadia/RichTabProvider/ProviderContracts.h`, `ProviderRegistry.h`,
`BuiltInProviderCatalog.cpp` and lines 22-30, 83-98 and 1414-1482 of `ProviderBroker.cpp`. Both
`std::string` with UTF-8 and `std::wstring` are `String`, so `_ToWide` is the identity; lengths of
wide strings are in units of UTF-16. A path is the list of its elements, which is what the
comparison of paths looks at.
-/

namespace IntelligentTerminal.RichTab

abbrev Path := List String

/-- When a provider is asked (`ActivationEvent`). -/
inductive ActivationEvent
  | paneConnected
  | workingDirectoryChanged
  | commandFinished
  | tabActivated
  | manualRefresh
  deriving DecidableEq, Repr

/-- A value that a provider returned. Of a floating-point number only what `std::to_wstring` prints
of it is kept. -/
inductive FieldValue
  | string (value : String)
  | boolean (value : Bool)
  | integer (value : ℤ)
  | number (text : String)
  deriving DecidableEq, Repr

structure FieldDeclaration where
  id : String
  displayName : String
  defaultVisible : Bool := true
  deriving DecidableEq, Repr

structure Manifest where
  id : String
  activationEvents : List ActivationEvent
  fields : List FieldDeclaration
  deriving DecidableEq, Repr

def Manifest.handles (manifest : Manifest) (event : ActivationEvent) : Bool :=
  manifest.activationEvents.contains event

inductive RegistrationKind
  | managed
  | development
  deriving DecidableEq, Repr

inductive RegistrationOrigin
  | unknown
  | builtInCatalog
  deriving DecidableEq, Repr

structure Registration where
  manifest : Manifest
  kind : RegistrationKind := .managed
  origin : RegistrationOrigin := .unknown
  root : Path := []
  enabled : Bool := false
  integrityValid : Bool := false
  deriving DecidableEq, Repr

def gitStatusId : String := "com.microsoft.intelligent-terminal.git-status"

def isBuiltInGitStatus (packageRoot : Path) (provider : Registration) : Bool :=
  provider.manifest.id = gitStatusId && provider.origin = .builtInCatalog &&
    provider.kind = .managed && provider.enabled && provider.integrityValid &&
    provider.root = packageRoot ++ ["RichTabProviders", "GitStatus"]

/-- Registrations that a reload finds: no two have one identifier. -/
structure Catalog where
  registrations : List Registration
  nodup : (registrations.map (·.manifest.id)).Nodup

namespace Catalog

variable {catalog : Catalog} {p p' : Registration}

/-- The order in which `ReloadProviders` keeps the registrations. -/
def sorted (catalog : Catalog) : Catalog where
  registrations := catalog.registrations.mergeSort fun p p' => p.manifest.id ≤ p'.manifest.id
  nodup := ((List.mergeSort_perm _ _).map _).nodup_iff.mpr catalog.nodup

end Catalog

namespace BuiltInProviderCatalog

/-- `builtInProviders`: where each provider of the product is, and its identifier. -/
def builtInProviders : List (Path × String) :=
  [(["RichTabProviders", "GitStatus"], gitStatusId)]

/-- `BuiltInProviderCatalog::Load`, given the manifest that can be read and parsed in each
directory. Where the package root is not absolute or the catalog is missing, none can. -/
def loadRegistrations (packageRoot : Path) (readManifest : Path → Option Manifest) :
    List Registration :=
  builtInProviders.filterMap fun (relativeRoot, expectedId) =>
    match readManifest (packageRoot ++ relativeRoot) with
    | none => none
    | some manifest =>
      if manifest.id ≠ expectedId then none
      else some { manifest, kind := .managed, origin := .builtInCatalog
                  root := packageRoot ++ relativeRoot, enabled := true, integrityValid := true }

/-- What the product loads is a catalog. -/
def load (packageRoot : Path) (readManifest : Path → Option Manifest) : Catalog where
  registrations := loadRegistrations packageRoot readManifest
  nodup := by
    have hlen : (loadRegistrations packageRoot readManifest).length ≤ 1 :=
      List.length_filterMap_le _ _
    match h : loadRegistrations packageRoot readManifest, hlen with
    | [], _ => exact List.nodup_nil
    | [_], _ => exact List.nodup_singleton _

end BuiltInProviderCatalog

/-! ### Requests and snapshots -/

structure Request where
  requestId : String
  hostRequestId : ℕ
  diagnosticSessionToken : ℕ
  providerId : String
  processEpoch : ℕ
  sessionId : String
  reason : ActivationEvent
  workingDirectory : Path
  workingDirectoryAuthoritative : Bool
  contextRevision : ℕ
  shellType : Option String
  firstPartyFields : Table String String
  visibleFields : List String

structure Snapshot where
  requestId : String := ""
  fields : Table String FieldValue := ∅
  tooltip : Option String := none
  accessibilityText : Option String := none
  agentStatus : String := ""

/-- The fields that say something about the directory of a session. -/
def directoryFields : List String := ["workingDirectory", "repository", "branch", "changes"]

namespace Snapshot

def clearGitStatusCwdDependentFields (snapshot : Snapshot) : Snapshot :=
  { snapshot with
    fields := directoryFields.foldl (fun fields field => fields.erase field) snapshot.fields
    tooltip := none }

/-- The snapshot has a value for a field of the directory. -/
def HoldsDirectory (snapshot : Snapshot) : Prop :=
  ∃ field ∈ directoryFields, (snapshot.fields.lookup field).isSome

theorem not_holdsDirectory_clear (snapshot : Snapshot) :
    ¬ snapshot.clearGitStatusCwdDependentFields.HoldsDirectory := by
  rintro ⟨field, hfield, h⟩
  simp only [clearGitStatusCwdDependentFields, directoryFields, List.foldl_cons, List.foldl_nil,
    Table.lookup_erase_eq] at h
  simp only [directoryFields, List.mem_cons, List.not_mem_nil, or_false] at hfield
  rcases hfield with rfl | rfl | rfl | rfl <;> simp at h

end Snapshot

/-! ### The presentation -/

abbrev VisibleFieldMap := Table String (Finset String)

abbrev FieldDisplayNameMap := Table String (Table String String)

structure TextRange where
  start : ℕ
  length : ℕ
  deriving DecidableEq, Repr

structure Presentation where
  text : String := ""
  tooltip : String := ""
  accessibilityText : String := ""
  agentStatusRanges : List TextRange := []
  agentStatus : String := ""
  deriving DecidableEq, Repr

def wideLength (s : String) : ℕ :=
  (s.toList.map fun c => if c.toNat < 0x10000 then 1 else 2).sum

def FieldValue.valueText : FieldValue → String
  | string value => value
  | boolean value => if value then "true" else "false"
  | integer value => toString value
  | number text => text

def appendText (target value separator : String) : String :=
  if value = "" then target
  else if target = "" then value
  else target ++ separator ++ value

/-- A field is shown where the selection of its provider has it, or by default where there is no
selection. -/
def FieldDeclaration.isVisible (field : FieldDeclaration) (selected : Option (Finset String)) :
    Bool :=
  match selected with
  | some fields => field.id ∈ fields
  | none => field.defaultVisible

/-- What `ComposePresentation` adds to the text for one declared field. -/
def Presentation.addField (snapshot : Snapshot) (names : Option (Table String String))
    (result : Presentation) (field : FieldDeclaration) : Presentation :=
  match snapshot.fields.lookup field.id with
  | none => result
  | some value =>
    let valueText := value.valueText
    let text := appendText result.text valueText "\n"
    let displayName := ((names.bind (·.lookup field.id)).getD field.displayName)
    let isStatus := field.id = "agentStatus" ∧ valueText ≠ ""
    { result with
      text
      agentStatusRanges :=
        if isStatus then result.agentStatusRanges ++
          [⟨wideLength text - wideLength valueText, wideLength valueText⟩]
        else result.agentStatusRanges
      agentStatus := if isStatus then snapshot.agentStatus else result.agentStatus
      accessibilityText :=
        appendText result.accessibilityText (displayName ++ ": " ++ valueText) ", " }

/-- What `ComposePresentation` adds to the text for one provider. -/
def Presentation.addProvider (snapshots : Table String Snapshot) (visibleFields : VisibleFieldMap)
    (fieldDisplayNames : FieldDisplayNameMap) (result : Presentation) (provider : Registration) :
    Presentation :=
  match snapshots.lookup provider.manifest.id with
  | none => result
  | some snapshot =>
    let visible := provider.manifest.fields.filter
      (·.isVisible (visibleFields.lookup provider.manifest.id))
    let result := visible.foldl
      (addField snapshot (fieldDisplayNames.lookup provider.manifest.id)) result
    match snapshot.tooltip with
    | none => result
    | some tooltip => { result with tooltip := appendText result.tooltip tooltip "\n" }

/-- `ProviderBroker::ComposePresentation` -/
def composePresentation (providers : List Registration) (snapshots : Table String Snapshot)
    (visibleFields : VisibleFieldMap) (fieldDisplayNames : FieldDisplayNameMap) :
    Option Presentation :=
  let result := providers.foldl
    (Presentation.addProvider snapshots visibleFields fieldDisplayNames) {}
  if result.text = "" then none
  else some
    { result with
      tooltip := if result.tooltip = "" then result.text else result.tooltip
      accessibilityText :=
        if result.accessibilityText = "" then result.text else result.accessibilityText }

end IntelligentTerminal.RichTab
