import IntelligentTerminal.Data.Search
import IntelligentTerminal.Sessions.Event

/-!
# The request in a prompt

`build_prompt_text` puts the request of the user behind the prompt body, under a heading. When a
session is replayed, `replay_user_request` takes what is behind the last such heading. That is the
request unless the request has the heading in it.

What the templates and the context providers return is a parameter: the templates are read from
files, and a section is a text.

Source: `tools/wta/src/protocol/acp/prompt_builder.rs`, lines 160-211;
`tools/wta/src/protocol/acp/prompt.rs`, lines 39-59; `tools/wta/src/app/tab_state.rs`, lines 247-253.
-/

namespace IntelligentTerminal.Prompts

open Data Sessions

/-- `str::trim_start`. -/
def trimStart (s : List Char) : List Char := s.dropWhile isWhitespace

/-- `str::trim_end`. -/
def trimEnd (s : List Char) : List Char := (s.reverse.dropWhile isWhitespace).reverse

/-- `str::trim`. -/
def trim (s : List Char) : List Char := trimEnd (trimStart s)

def runtimeContextMarker : List Char := "<!-- WTA_RUNTIME_CONTEXT -->".toList

/-- `runtime_block` and `runtime_context`. -/
def runtimeBlock (runtimeSections : List (List Char)) : List Char :=
  "\n\n".toList.intercalate ((runtimeSections.map trim).filter (· ≠ []))

def mergeRuntimeSections (template : List Char) (runtimeSections : List (List Char)) : List Char :=
  let block := runtimeBlock runtimeSections
  if block = [] then trimEnd (replaceAll runtimeContextMarker [] template)
  else
    match splitOnce runtimeContextMarker template with
    | some (before, after) => before ++ block ++ after
    | none => trimEnd template ++ "\n\n".toList ++ block

inductive AutofixTextKind
  | userRequest
  | failureSummary
deriving DecidableEq

/-- What `build_prompt_text` assembles a prompt from. The template for autofix is loaded for a turn
of autofix only. -/
structure Sources where
  plannerTemplate : List Char
  autofixTemplate : List Char
  runtimeSections : List (List Char)

def promptBody (sources : Sources) (autofixTextKind : Option AutofixTextKind)
    (includeBasePrompt : Bool) : List Char :=
  if autofixTextKind.isSome then
    let autofixOverlay := mergeRuntimeSections sources.autofixTemplate sources.runtimeSections
    if includeBasePrompt then
      trimEnd (replaceAll runtimeContextMarker [] sources.plannerTemplate) ++ "\n\n".toList ++
        autofixOverlay
    else autofixOverlay
  else if includeBasePrompt then
    mergeRuntimeSections sources.plannerTemplate sources.runtimeSections
  else runtimeBlock sources.runtimeSections

def AutofixTextKind.heading : AutofixTextKind → List Char
  | .userRequest => "User Request".toList
  | .failureSummary => "Failure Summary".toList

/-- The assembly in `build_prompt_text`: the prompt for a body. -/
def assemble (promptBody userText : List Char) : Option AutofixTextKind → List Char
  | some autofixTextKind =>
    if trim userText = [] then promptBody
    else promptBody ++ "\n\n## ".toList ++ autofixTextKind.heading ++ ['\n'] ++ userText
  | none =>
    if promptBody = [] then "## User Request\n".toList ++ userText
    else promptBody ++ "\n\n## User Request\n".toList ++ userText

def buildPromptText (sources : Sources) (userText : List Char)
    (autofixTextKind : Option AutofixTextKind) (includeBasePrompt : Bool) : List Char :=
  assemble (promptBody sources autofixTextKind includeBasePrompt) userText autofixTextKind

def delimiter : List Char := "## User Request\n".toList

def replayUserRequest (text : List Char) : List Char :=
  (((rsplitOnce delimiter text).map fun (_, request) => trim request).filter (· ≠ [])).getD
    (trim text)

/-! ### Whitespace -/

/-- The number of characters that are no whitespace. -/
def ink (s : List Char) : ℕ := s.countP (!isWhitespace ·)

theorem ink_append (s t : List Char) : ink (s ++ t) = ink s + ink t := List.countP_append

theorem ink_dropWhile (s : List Char) : ink (s.dropWhile isWhitespace) = ink s := by
  induction s with
  | nil => rfl
  | cons c s ih =>
    rw [List.dropWhile_cons]
    split_ifs with hc
    · rw [ih, ink, ink, List.countP_cons_of_neg (by simpa using hc)]
    · rfl

theorem ink_reverse (s : List Char) : ink s.reverse = ink s := s.countP_reverse

theorem ink_trim (s : List Char) : ink (trim s) = ink s := by
  rw [trim, trimEnd, ink_reverse, ink_dropWhile, ink_reverse, trimStart, ink_dropWhile]

theorem ink_delimiter : ink delimiter = 13 := by decide

/-! ### The request that is found -/

theorem borderless_delimiter : Borderless delimiter := by decide

variable {userText : List Char}

theorem exists_assemble_eq (body : List Char)
    {kind : Option AutofixTextKind} (hkind : kind ≠ some .failureSummary)
    (hblank : trim userText ≠ []) :
    ∃ front, assemble body userText kind = front ++ delimiter ++ userText := by
  cases kind with
  | none =>
    have hheading : "\n\n## User Request\n".toList = "\n\n".toList ++ delimiter := by decide
    rw [assemble]
    split_ifs
    · exact ⟨[], rfl⟩
    · exact ⟨body ++ "\n\n".toList, by rw [hheading, ← List.append_assoc body]⟩
  | some kind =>
    cases kind with
    | failureSummary => exact absurd rfl hkind
    | userRequest =>
      have hheading : "\n\n## ".toList ++ AutofixTextKind.userRequest.heading ++ ['\n'] =
          "\n\n".toList ++ delimiter := by decide
      refine ⟨body ++ "\n\n".toList, ?_⟩
      rw [assemble, if_neg hblank, List.append_assoc body, List.append_assoc body, hheading,
        ← List.append_assoc body]

theorem replayUserRequest_append (front : List Char)
    (hblank : trim userText ≠ []) (h : ¬ delimiter <:+: userText) :
    replayUserRequest (front ++ delimiter ++ userText) = trim userText := by
  have hne : delimiter ≠ [] := by decide
  rw [replayUserRequest, rsplitOnce_append front borderless_delimiter hne h, Option.map_some,
    Option.filter_some_pos (by simpa using hblank), Option.getD_some]

theorem replayUserRequest_append_ne (front : List Char)
    (h : delimiter <:+: userText) :
    replayUserRequest (front ++ delimiter ++ userText) ≠ trim userText := by
  obtain ⟨a, b, hsplit, rfl⟩ := exists_rsplitOnce_append (front ++ delimiter) h
  intro heq
  rw [replayUserRequest, hsplit, Option.map_some] at heq
  replace heq := congrArg ink heq
  by_cases hrequest : trim b = []
  · rw [Option.filter_some_neg (by simpa using hrequest), Option.getD_none, ink_trim, ink_trim,
      ink_append, ink_append, ink_delimiter] at heq
    omega
  · rw [Option.filter_some_pos (by simpa using hrequest), Option.getD_some, ink_trim, ink_trim,
      ink_append, ink_append, ink_delimiter] at heq
    omega

/-- The request is found again if and only if it does not have the heading in it. -/
theorem replayUserRequest_eq_iff (sources : Sources) (userText : List Char)
    (autofixTextKind : Option AutofixTextKind) (includeBasePrompt : Bool)
    (hkind : autofixTextKind ≠ some .failureSummary) (hblank : trim userText ≠ []) :
    replayUserRequest (buildPromptText sources userText autofixTextKind includeBasePrompt) =
      trim userText ↔ ¬ delimiter <:+: userText := by
  obtain ⟨front, hprompt⟩ :=
    exists_assemble_eq (promptBody sources autofixTextKind includeBasePrompt) hkind hblank
  rw [buildPromptText, hprompt]
  refine ⟨fun heq h => ?_, replayUserRequest_append front hblank⟩
  exact replayUserRequest_append_ne front h heq

/-- A prompt without a template. -/
def noSources : Sources := ⟨[], [], []⟩

theorem replayUserRequest_list_files :
    replayUserRequest (buildPromptText noSources "list files".toList none false) =
      trim "list files".toList ↔ ¬ delimiter <:+: "list files".toList :=
  replayUserRequest_eq_iff noSources _ none false (by decide) (by decide)

/-- A request that has the heading in it is cut. -/
theorem not_replayUserRequest_heading :
    replayUserRequest (buildPromptText noSources "Explain\n## User Request\nto me".toList none false) ≠
      trim "Explain\n## User Request\nto me".toList := by
  decide

end IntelligentTerminal.Prompts
