import Mathlib

/-!
# Session events

What the helper's and the master's registry of agent sessions have in common: the text functions
they use, the canonical form of a pane id, the enumerations of a session row, and the events.

What is used of other crates is a parameter. `uuid::Uuid::parse_str` reads back what
`hyphenated` writes and refuses the empty text; nothing else is assumed of it.

Source: `tools/wta/src/agent_sessions.rs`, lines 28-143 and 233-503;
`tools/wta/src/session_history.rs`, lines 99-113; `tools/wta/src/agent_registry.rs`, line 403.
-/

namespace IntelligentTerminal.Sessions

/-! ### Text -/

/-- `str::to_ascii_lowercase`. -/
def toAsciiLowercase (s : String) : String := String.ofList (s.toList.map Char.toLower)

/-- The characters with the Unicode property `White_Space`. -/
def isWhitespace (c : Char) : Bool :=
  (0x9 ≤ c.toNat && c.toNat ≤ 0xd) || c.toNat = 0x20 || c.toNat = 0x85 || c.toNat = 0xa0 ||
    c.toNat = 0x1680 || (0x2000 ≤ c.toNat && c.toNat ≤ 0x200a) || c.toNat = 0x2028 ||
    c.toNat = 0x2029 || c.toNat = 0x202f || c.toNat = 0x205f || c.toNat = 0x3000

/-- `str::trim`. -/
def trim (s : String) : String :=
  String.ofList ((s.toList.dropWhile isWhitespace).reverse.dropWhile isWhitespace).reverse

/-- `str::starts_with`. -/
def startsWith (s pat : String) : Bool := pat.toList.isPrefixOf s.toList

/-- `str::strip_prefix`. -/
def stripPrefix (s pat : String) : Option String :=
  if startsWith s pat then some (String.ofList (s.toList.drop pat.toList.length)) else none

/-- `str::eq_ignore_ascii_case`. -/
def eqIgnoreAsciiCase (s t : String) : Bool := toAsciiLowercase s = toAsciiLowercase t

/-- `u64::saturating_add`. -/
def saturatingAdd (a b : ℕ) : ℕ := min (a + b) (2 ^ 64 - 1)

/-- A component of a path. -/
inductive Component
  | drive (name : String)
  | rootDir
  | curDir
  | parentDir
  | normal (name : String)
deriving DecidableEq

/-- `PathBuf`. Two paths are equal if their components are. -/
abbrev PathBuf := List Component

/-- `Path::file_name`. -/
def fileName (path : PathBuf) : Option String :=
  match path.getLast? with
  | some (.normal name) => some name
  | _ => none

/-- `SystemTime`, in nanoseconds since the Unix epoch. -/
abbrev SystemTime := ℤ

def systemTimeMs (time : SystemTime) : ℕ :=
  if time < 0 then 0
  else if time.toNat / 1000000 < 2 ^ 64 then time.toNat / 1000000
  else 0

theorem toLower_toLower (c : Char) : c.toLower.toLower = c.toLower := by
  have hself : ∀ d : Char, ¬(d.val ≥ 'A'.val ∧ d.val ≤ 'Z'.val) → d.toLower = d := by
    intro d hd
    rw [Char.toLower, dif_neg hd]
  by_cases h : c.val ≥ 'A'.val ∧ c.val ≤ 'Z'.val
  · refine hself _ ?_
    have hval : c.toLower.val = c.val + ('a'.val - 'A'.val) := by
      rw [Char.toLower, dif_pos h]
    obtain ⟨h₁, h₂⟩ := h
    rw [hval]
    simp only [ge_iff_le, UInt32.le_iff_toNat_le, UInt32.toNat_add] at h₁ h₂ ⊢
    simp only [Char.reduceVal, UInt32.reduceToNat, UInt32.reduceSub] at h₁ h₂ ⊢
    omega
  · rw [hself c h, hself c h]

theorem toAsciiLowercase_idem (s : String) :
    toAsciiLowercase (toAsciiLowercase s) = toAsciiLowercase s := by
  simp only [toAsciiLowercase, String.toList_ofList, List.map_map]
  congr 2
  funext c
  exact toLower_toLower c

theorem toAsciiLowercase_eq_empty {s : String} : toAsciiLowercase s = "" ↔ s = "" := by
  rw [toAsciiLowercase, ← String.toList_eq_nil_iff, String.toList_ofList, List.map_eq_nil_iff,
    String.toList_eq_nil_iff]

/-! ### Other crates -/

/-- The 128 bits of a UUID. -/
abbrev Uuid := ℕ

/-- What is used of the crates `uuid` and `time`. -/
structure Crates where
  /-- `Uuid::parse_str`. -/
  parseStr : String → Option Uuid
  /-- `Uuid::to_string`, which is `hyphenated().to_string()`. -/
  hyphenated : Uuid → String
  /-- `OffsetDateTime::parse` of an RFC 3339 text: its Unix timestamp. -/
  parseRfc3339 : String → Option ℤ
  parseStr_hyphenated : ∀ s guid, parseStr s = some guid → parseStr (hyphenated guid) = some guid
  parseStr_empty : parseStr "" = none

namespace Crates

variable (crates : Crates)

def parseIsoToSystemTime (s : String) : Option ℤ :=
  let s := trim s
  ((crates.parseRfc3339 s).or (crates.parseRfc3339 (s ++ "Z"))).filter (0 ≤ ·)

/-- The crates for texts that spell one UUID, or none, and no timestamps: with or without hyphens,
in braces, or as an URN whose scheme is in lower case. -/
def ofUuid : Crates where
  parseStr s :=
    let t := toAsciiLowercase s
    if t = "67e5504410b1426f9247bb680e5fe0c8" ∨ t = "67e55044-10b1-426f-9247-bb680e5fe0c8" ∨
        t = "\x7b67e55044-10b1-426f-9247-bb680e5fe0c8\x7d" ∨
        (startsWith s "urn:uuid:" ∧ t = "urn:uuid:67e55044-10b1-426f-9247-bb680e5fe0c8") then
      some 0x67e5504410b1426f9247bb680e5fe0c8
    else none
  hyphenated _ := "67e55044-10b1-426f-9247-bb680e5fe0c8"
  parseRfc3339 _ := none
  parseStr_hyphenated := by
    intro s guid h
    simp only at h
    split_ifs at h
    obtain rfl := Option.some.inj h
    decide
  parseStr_empty := by decide

/-- `pane_key`: the canonical form of a pane id. -/
def paneKey (paneSessionId : String) : String :=
  match crates.parseStr paneSessionId with
  | some guid => crates.hyphenated guid
  | none => toAsciiLowercase paneSessionId

variable {crates} {p : String} {guid : Uuid}

theorem paneKey_of_some (h : crates.parseStr p = some guid) :
    crates.paneKey p = crates.hyphenated guid := by
  rw [paneKey, h]

theorem paneKey_of_none (h : crates.parseStr p = none) :
    crates.paneKey p = toAsciiLowercase p := by
  rw [paneKey, h]

theorem paneKey_hyphenated (h : crates.parseStr p = some guid) :
    crates.paneKey (crates.hyphenated guid) = crates.hyphenated guid :=
  paneKey_of_some (crates.parseStr_hyphenated p guid h)

theorem hyphenated_ne_empty (h : crates.parseStr p = some guid) :
    crates.hyphenated guid ≠ "" := by
  intro he
  have hparse := crates.parseStr_hyphenated p guid h
  rw [he, crates.parseStr_empty] at hparse
  exact absurd hparse (by simp)

theorem paneKey_eq_empty : crates.paneKey p = "" ↔ p = "" := by
  cases h : crates.parseStr p with
  | none => rw [paneKey_of_none h, toAsciiLowercase_eq_empty]
  | some guid =>
    rw [paneKey_of_some h]
    refine iff_of_false (hyphenated_ne_empty h) ?_
    rintro rfl
    rw [crates.parseStr_empty] at h
    exact absurd h (by simp)

theorem paneKey_stable (p : String) :
    crates.paneKey (crates.paneKey (crates.paneKey p)) = crates.paneKey (crates.paneKey p) := by
  cases h : crates.parseStr p with
  | some guid => rw [paneKey_of_some h, paneKey_hyphenated h, paneKey_hyphenated h]
  | none =>
    rw [paneKey_of_none h]
    cases h' : crates.parseStr (toAsciiLowercase p) with
    | some guid => rw [paneKey_of_some h', paneKey_hyphenated h']
    | none => rw [paneKey_of_none h', toAsciiLowercase_idem, paneKey_of_none h',
        toAsciiLowercase_idem]

end Crates

/-! ### Sessions -/

inductive CliSource
  | claude
  | codex
  | copilot
  | gemini
  | openCode
  | antigravity
  | unknown (id : String)
deriving DecidableEq

def CliSource.canonicalProviderId (cli : CliSource) : Option String :=
  let id :=
    match cli with
    | .claude => "claude"
    | .codex => "codex"
    | .copilot => "copilot"
    | .gemini => "gemini"
    | .openCode => "opencode"
    | .antigravity => "antigravity"
    | .unknown id => trim id
  if id = "" then none else some (toAsciiLowercase id)

/-- The agents of `KNOWN_AGENTS`. -/
def isKnownId (id : String) : Bool :=
  ["copilot", "claude", "codex", "gemini", "opencode", "antigravity"].contains id

/-- `title_is_placeholder`: OpenCode's title of a session that was not used yet. -/
def titleIsPlaceholder (crates : Crates) (cli : CliSource) (title : String) : Bool :=
  match stripPrefix title "New session - " with
  | none => false
  | some timestamp =>
    let chars := timestamp.toList
    cli = .openCode && chars.length = 24 &&
      (chars.zipIdx.all fun (c, index) =>
        if index = 4 ∨ index = 7 then c = '-'
        else if index = 10 then c = 'T'
        else if index = 13 ∨ index = 16 then c = ':'
        else if index = 19 then c = '.'
        else if index = 23 then c = 'Z'
        else c.isDigit) &&
      (crates.parseIsoToSystemTime timestamp).isSome

inductive AgentStatus
  | idle
  | working
  | attention
  | error
  | ended
  | historical
  | inUse
deriving DecidableEq

instance : LawfulBEq (Option AgentStatus) := inferInstance

inductive LivenessState
  | live
  | ended
  | historical
  | inUse
deriving DecidableEq

inductive SessionOrigin
  | unknown
  | agentPane
deriving DecidableEq

inductive SessionLocation
  | host
  | wsl (distro : String)
  | unknown
deriving DecidableEq

def SessionLocation.isActionable : SessionLocation → Bool
  | .host => true
  | .wsl distro => trim distro ≠ ""
  | .unknown => false

def userInputToolNames : List String :=
  ["ask_user", "askuser", "ask-user", "ask_question", "askquestion", "askuserquestion",
    "ask_user_question", "ask_for_clarification", "request_input", "request_user_input",
    "user_input", "prompt_user", "clarification_request", "question"]

def isUserInputTool (name : String) : Bool := userInputToolNames.contains (toAsciiLowercase name)

def copilotAttentionCooldownMs : ℕ := 10000

/-! ### Events -/

/-- `type AgentKey`. -/
abbrev AgentKey := String

inductive SessionEvent
  | sessionStarted (key : AgentKey) (cliSource : CliSource) (paneSessionId : String) (cwd : PathBuf)
      (title : String)
  | sessionRenamed (key : AgentKey) (paneSessionId title : String)
  | workingDirectoryChanged (key : AgentKey) (paneSessionId : String) (cwd : PathBuf)
  | toolStarting (key : AgentKey) (toolName : String)
  | toolCompleted (key : AgentKey)
  | toolReturned (key : AgentKey) (timestampMs : Option ℕ)
  | notification (key : AgentKey) (message : String) (timestampMs : Option ℕ)
  | sessionStopped (key : AgentKey) (reason : String)
  | sessionUnbound (key : AgentKey) (paneSessionId : String)
  | sessionStoppedIfOwner (key : AgentKey) (paneSessionId : Option String) (reason : String)
  | connectionFailed (paneSessionId reason : String)
  | paneClosed (paneSessionId : String)
  | resumeDispatched (key : AgentKey)
  | resumeFailed (key : AgentKey) (reason : String)
  | resumePaneAssigned (key : AgentKey) (paneSessionId : String)

/-- What both reducers make of an event first: pane ids in canonical form, and no placeholder for
a title. -/
def SessionEvent.canonical (crates : Crates) : SessionEvent → SessionEvent
  | .sessionStarted key cliSource pane cwd title =>
    .sessionStarted key cliSource (crates.paneKey pane) cwd
      (if titleIsPlaceholder crates cliSource title then "" else title)
  | .workingDirectoryChanged key pane cwd => .workingDirectoryChanged key (crates.paneKey pane) cwd
  | .sessionRenamed key pane title => .sessionRenamed key (crates.paneKey pane) title
  | .sessionUnbound key pane => .sessionUnbound key (crates.paneKey pane)
  | .sessionStoppedIfOwner key pane reason =>
    .sessionStoppedIfOwner key (pane.map crates.paneKey) reason
  | .connectionFailed pane reason => .connectionFailed (crates.paneKey pane) reason
  | .paneClosed pane => .paneClosed (crates.paneKey pane)
  | .resumePaneAssigned key pane => .resumePaneAssigned key (crates.paneKey pane)
  | other => other

end IntelligentTerminal.Sessions
