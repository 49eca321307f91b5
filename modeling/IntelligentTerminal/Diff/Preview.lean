import IntelligentTerminal.Diff.DiffOps

/-!
# The preview is a reading of both texts

The entries of a preview are read in order, with one position in each text. A line of context stands
at both positions, a removed line at the old one and an added line at the new one, and each entry
moves the positions behind the lines that it reports. Only an omission lets them move past lines that
are not reported.

Source: `tools/wta/src/ui/line_diff.rs`, lines 21-201 and 252-381.
-/

namespace IntelligentTerminal.Diff

/-- The entries read two lists of lines to their ends. If `Full` holds, what is omitted is the same in
both lists. -/
inductive Aligned (Full : Prop) : List DiffLine → List Line → List Line → Prop
  | nil : Aligned Full [] [] []
  | context (text : Line) {lines : List DiffLine} {old new : List Line}
      (h : Aligned Full lines old new) :
      Aligned Full (⟨.context, text⟩ :: lines) (text :: old) (text :: new)
  | removed (text : Line) {lines : List DiffLine} {old new : List Line}
      (h : Aligned Full lines old new) :
      Aligned Full (⟨.removed, text⟩ :: lines) (text :: old) new
  | added (text : Line) {lines : List DiffLine} {old new : List Line}
      (h : Aligned Full lines old new) :
      Aligned Full (⟨.added, text⟩ :: lines) old (text :: new)
  | omitted (text : Line) {skippedOld skippedNew : List Line} (hskip : Full → skippedOld = skippedNew)
      {lines : List DiffLine} {old new : List Line} (h : Aligned Full lines old new) :
      Aligned Full (⟨.omitted, text⟩ :: lines) (skippedOld ++ old) (skippedNew ++ new)

/-- How an entry moves the positions in the two texts. -/
def Moves (Full : Prop) (oldLines newLines : List Line) (line : DiffLine) (at₁ at₂ : ℕ × ℕ) : Prop :=
  match line.kind with
  | .context =>
    oldLines[at₁.1]? = some line.text ∧ newLines[at₁.2]? = some line.text ∧
      at₂ = (at₁.1 + 1, at₁.2 + 1)
  | .removed => oldLines[at₁.1]? = some line.text ∧ at₂ = (at₁.1 + 1, at₁.2)
  | .added => newLines[at₁.2]? = some line.text ∧ at₂ = (at₁.1, at₁.2 + 1)
  | .omitted =>
    at₁.1 ≤ at₂.1 ∧ at₁.2 ≤ at₂.2 ∧
      (Full → (oldLines.take at₂.1).drop at₁.1 = (newLines.take at₂.2).drop at₁.2)

/-- The positions in the two texts in front of each entry, from their beginnings to their ends. -/
structure Follows (Full : Prop) (lines : List DiffLine) (oldLines newLines : List Line)
    (cursor : ℕ → ℕ × ℕ) : Prop where
  start : cursor 0 = (0, 0)
  finish : cursor lines.length = (oldLines.length, newLines.length)
  moves : ∀ k (hk : k < lines.length),
    Moves Full oldLines newLines lines[k] (cursor k) (cursor (k + 1))

/-- The core is compared line by line: it is not too large. -/
def WithinLimits (oldCore newCore : List Line) : Prop :=
  oldCore.length ≤ maxDiffCoreLines ∧ newCore.length ≤ maxDiffCoreLines ∨
    sharesLine oldCore newCore ∧
      min oldCore.length newCore.length ≤ maxDiffCoreLines ∧
      max oldCore.length newCore.length ≤ maxAsymmetricCoreLines

namespace Aligned

variable {Full Full' : Prop} {lines lines' : List DiffLine} {old new old' new' : List Line}

theorem mono (h : Aligned Full lines old new) (hfull : Full' → Full) :
    Aligned Full' lines old new := by
  induction h with
  | nil => exact .nil
  | context text _ ih => exact .context text ih
  | removed text _ ih => exact .removed text ih
  | added text _ ih => exact .added text ih
  | omitted text hskip _ ih => exact .omitted text (hskip ∘ hfull) ih

theorem congr (h : Aligned Full lines old new) (hold : old = old') (hnew : new = new') :
    Aligned Full lines old' new' := hold ▸ hnew ▸ h

theorem append (h : Aligned Full lines old new) (h' : Aligned Full lines' old' new') :
    Aligned Full (lines ++ lines') (old ++ old') (new ++ new') := by
  induction h with
  | nil => exact h'
  | context text _ ih => exact .context text ih
  | removed text _ ih => exact .removed text ih
  | added text _ ih => exact .added text ih
  | omitted text hskip _ ih =>
    rw [List.append_assoc, List.append_assoc]
    exact .omitted text hskip ih

theorem exists_cons {line : DiffLine} (h : Aligned Full (line :: lines) old new) :
    ∃ old₁ old₂ new₁ new₂, old = old₁ ++ old₂ ∧ new = new₁ ++ new₂ ∧
      Aligned Full [line] old₁ new₁ ∧ Aligned Full lines old₂ new₂ := by
  cases h with
  | context text h => exact ⟨[text], _, [text], _, rfl, rfl, .context text .nil, h⟩
  | removed text h => exact ⟨[text], _, [], _, rfl, rfl, .removed text .nil, h⟩
  | added text h => exact ⟨[], _, [text], _, rfl, rfl, .added text .nil, h⟩
  | @omitted text skippedOld skippedNew hskip _ old new h =>
    have hline := Aligned.omitted text hskip .nil
    rw [List.append_nil, List.append_nil] at hline
    exact ⟨_, _, _, _, rfl, rfl, hline, h⟩

theorem eq_nil_of_nil (h : Aligned Full [] old new) : old = [] ∧ new = [] := by
  cases h
  exact ⟨rfl, rfl⟩

theorem pushOmitted (h : Aligned Full lines old new) (hskip : Full → old' = new') :
    Aligned Full (pushOmitted lines) (old ++ old') (new ++ new') := by
  have happend : Aligned Full (lines ++ [⟨.omitted, []⟩]) (old ++ old') (new ++ new') := by
    have hline := Aligned.omitted [] hskip .nil
    rw [List.append_nil, List.append_nil] at hline
    exact h.append hline
  rw [Diff.pushOmitted]
  split_ifs with hlast
  · clear happend
    induction h with
    | nil => simp at hlast
    | @context text lines old new h ih =>
      cases lines with
      | nil => simp at hlast
      | cons line lines => exact .context text (ih (by simpa using hlast))
    | @removed text lines old new h ih =>
      cases lines with
      | nil => simp at hlast
      | cons line lines => exact .removed text (ih (by simpa using hlast))
    | @added text lines old new h ih =>
      cases lines with
      | nil => simp at hlast
      | cons line lines => exact .added text (ih (by simpa using hlast))
    | @omitted text skippedOld skippedNew hskip' lines old new h ih =>
      cases lines with
      | nil =>
        -- The omission that is there already passes over these lines too.
        cases h
        have hboth : Full → skippedOld ++ old' = skippedNew ++ new' := fun hfull => by
          rw [hskip hfull, hskip' hfull]
        have hline := Aligned.omitted text hboth .nil
        simpa using hline
      | cons line lines =>
        rw [List.append_assoc, List.append_assoc]
        exact .omitted text hskip' (ih (by simpa using hlast))
  · exact happend

/-! ### Positions -/

theorem exists_cursor (h : Aligned Full lines old new) (readOld readNew : List Line) :
    ∃ cursor : ℕ → ℕ × ℕ, cursor 0 = (readOld.length, readNew.length) ∧
      cursor lines.length = ((readOld ++ old).length, (readNew ++ new).length) ∧
      ∀ k (hk : k < lines.length),
        Moves Full (readOld ++ old) (readNew ++ new) lines[k] (cursor k) (cursor (k + 1)) := by
  induction h generalizing readOld readNew with
  | nil => exact ⟨fun _ => (readOld.length, readNew.length), rfl, by simp, by simp⟩
  | @context text lines old new h ih =>
    obtain ⟨cursor, hstart, hfinish, hmoves⟩ := ih (readOld ++ [text]) (readNew ++ [text])
    simp only [List.append_assoc, List.singleton_append] at hfinish hmoves
    refine ⟨fun k => k.casesOn (readOld.length, readNew.length) cursor, rfl, hfinish, ?_⟩
    rintro (_ | k) hk
    · exact ⟨by simp, by simp, hstart.trans (by simp)⟩
    · exact hmoves k (Nat.lt_of_succ_lt_succ hk)
  | @removed text lines old new h ih =>
    obtain ⟨cursor, hstart, hfinish, hmoves⟩ := ih (readOld ++ [text]) readNew
    simp only [List.append_assoc, List.singleton_append] at hfinish hmoves
    refine ⟨fun k => k.casesOn (readOld.length, readNew.length) cursor, rfl, hfinish, ?_⟩
    rintro (_ | k) hk
    · exact ⟨by simp, hstart.trans (by simp)⟩
    · exact hmoves k (Nat.lt_of_succ_lt_succ hk)
  | @added text lines old new h ih =>
    obtain ⟨cursor, hstart, hfinish, hmoves⟩ := ih readOld (readNew ++ [text])
    simp only [List.append_assoc, List.singleton_append] at hfinish hmoves
    refine ⟨fun k => k.casesOn (readOld.length, readNew.length) cursor, rfl, hfinish, ?_⟩
    rintro (_ | k) hk
    · exact ⟨by simp, hstart.trans (by simp)⟩
    · exact hmoves k (Nat.lt_of_succ_lt_succ hk)
  | @omitted text skippedOld skippedNew hskip lines old new h ih =>
    obtain ⟨cursor, hstart, hfinish, hmoves⟩ :=
      ih (readOld ++ skippedOld) (readNew ++ skippedNew)
    simp only [List.append_assoc] at hfinish hmoves
    refine ⟨fun k => k.casesOn (readOld.length, readNew.length) cursor, rfl, hfinish, ?_⟩
    rintro (_ | k) hk
    · change readOld.length ≤ (cursor 0).1 ∧ readNew.length ≤ (cursor 0).2 ∧
        (Full → ((readOld ++ (skippedOld ++ old)).take (cursor 0).1).drop readOld.length =
          ((readNew ++ (skippedNew ++ new)).take (cursor 0).2).drop readNew.length)
      rw [hstart, ← List.append_assoc, ← List.append_assoc]
      refine ⟨by simp, by simp, fun hfull => ?_⟩
      rw [List.take_left, List.take_left, List.drop_left, List.drop_left, hskip hfull]
    · exact hmoves k (Nat.lt_of_succ_lt_succ hk)

theorem exists_follows (h : Aligned Full lines old new) :
    ∃ cursor, Follows Full lines old new cursor := by
  obtain ⟨cursor, hstart, hfinish, hmoves⟩ := h.exists_cursor [] []
  exact ⟨cursor, hstart, hfinish, hmoves⟩

end Aligned

/-! ### Lines of one kind -/

variable {Full : Prop}

theorem aligned_context : ∀ lines : List Line, Aligned Full (entries .context lines) lines lines
  | [] => .nil
  | line :: lines => .context line (aligned_context lines)

theorem aligned_removed : ∀ lines : List Line, Aligned Full (entries .removed lines) lines []
  | [] => .nil
  | line :: lines => .removed line (aligned_removed lines)

theorem aligned_added : ∀ lines : List Line, Aligned Full (entries .added lines) [] lines
  | [] => .nil
  | line :: lines => .added line (aligned_added lines)

/-! ### The core -/

section Core

variable {output lines : List DiffLine} {old new oldCore newCore : List Line}

theorem entries_map_text (h : ∀ line ∈ lines, line.kind = .context) :
    entries .context (lines.map (·.text)) = lines := by
  rw [entries, List.map_map]
  refine (List.map_congr_left fun line hline => ?_).trans (List.map_id lines)
  simp only [Function.comp_apply, ← h line hline, id]

theorem take_append_middle_append_drop {α : Type*} {start suffix : ℕ} {list : List α}
    (h : start + suffix ≤ list.length) :
    list.take start ++ (list.take (list.length - suffix)).drop start ++
      list.drop (list.length - suffix) = list := by
  have hdrop := List.take_append_drop start (list.take (list.length - suffix))
  rw [List.take_take, min_eq_left (by omega)] at hdrop
  rw [hdrop, List.take_append_drop]

theorem Aligned.appendRun (hout : Aligned Full output old new)
    (hlines : ∀ line ∈ lines, line.kind = .context) :
    Aligned Full
      (if lines.length ≤ contextLines * 2 then output ++ lines
        else Diff.pushOmitted (output ++ lines.take contextLines) ++
          lines.drop (lines.length - contextLines))
      (old ++ lines.map (·.text)) (new ++ lines.map (·.text)) := by
  have hpart : ∀ part : List DiffLine, part ⊆ lines →
      Aligned Full part (part.map (·.text)) (part.map (·.text)) := fun part hpart => by
    have htexts : Aligned Full _ _ _ := aligned_context (part.map (·.text))
    rwa [entries_map_text fun line hline => hlines line (hpart hline)] at htexts
  split_ifs with hlength
  · exact hout.append (hpart lines (List.Subset.refl _))
  · have hsplit : contextLines + contextLines ≤ lines.length := by omega
    have htexts := congrArg (List.map (·.text)) (take_append_middle_append_drop hsplit)
    rw [List.map_append, List.map_append] at htexts
    have hhead := hpart _ (List.take_subset contextLines lines)
    have htail := hpart _ (List.drop_subset (lines.length - contextLines) lines)
    rw [← htexts]
    simp only [← List.append_assoc]
    exact ((hout.append hhead).pushOmitted fun _ => rfl).append htail

theorem Aligned.appendCollapsedOps (hout : Aligned Full output old new)
    (hlines : ∀ line ∈ lines, line.kind ≠ .omitted) :
    Aligned Full (appendCollapsedOps output lines) (old ++ oldTexts lines)
      (new ++ newTexts lines) := by
  induction output, lines using appendCollapsedOps.induct generalizing old new with
  | case1 output =>
    rw [Diff.appendCollapsedOps]
    simpa [textsOf] using hout
  | case2 output op rest hkind ih =>
    obtain ⟨hop, hrest⟩ := List.forall_mem_cons.mp hlines
    rw [Diff.appendCollapsedOps, if_pos hkind]
    obtain ⟨kind, text⟩ := op
    cases kind with
    | context => exact absurd rfl hkind
    | omitted => exact absurd rfl hop
    | removed =>
      have := ih (hout.append (.removed text .nil)) hrest
      rwa [List.append_assoc, List.append_assoc] at this
    | added =>
      have := ih (hout.append (.added text .nil)) hrest
      rwa [List.append_assoc, List.append_assoc] at this
  | case3 output op rest hkind run =>
    rename_i output' ih
    rw [Diff.appendCollapsedOps, if_neg hkind]
    have hop := not_not.mp hkind
    let isContext : DiffLine → Bool := fun line => line.kind = .context
    have hrun : ∀ line ∈ run, line.kind = .context := List.forall_mem_cons.mpr
      ⟨hop, fun line hline => of_decide_eq_true (List.mem_takeWhile_imp (p := isContext) hline)⟩
    have hrest : rest.takeWhile isContext ++ rest.dropWhile isContext = rest :=
      List.takeWhile_append_dropWhile
    have htexts : ∀ inText : DiffLineKind → Bool, inText .context = true →
        textsOf inText (op :: rest) = run.map (·.text) ++
          textsOf inText (rest.dropWhile isContext) := fun inText hin => by
      conv_lhs => rw [← hrest, ← List.cons_append, textsOf, List.filter_append, List.map_append]
      congr 2
      exact List.filter_eq_self.mpr fun line hline => by rw [hrun line hline, hin]
    rw [oldTexts, newTexts, htexts _ rfl, htexts _ rfl, ← List.append_assoc, ← List.append_assoc]
    exact ih (hout.appendRun hrun) fun line hline =>
      hlines line (List.mem_cons_of_mem _ ((List.dropWhile_suffix _).subset hline))

theorem Aligned.appendDiff (hout : Aligned Full output old new) (hlimit : oldCore.length ≤ 4096) :
    Aligned Full (Diff.appendCollapsedOps output (diffOps oldCore newCore)) (old ++ oldCore)
      (new ++ newCore) := by
  have h : Reports oldCore newCore 0 0 (diffOps oldCore newCore) := reports_diffOps hlimit
  have := hout.appendCollapsedOps h.omitted
  rwa [h.old, h.new] at this

theorem Aligned.pushOmitted_if (hout : Aligned Full output old new) (c : Prop) [Decidable c]
    (skippedOld skippedNew : List Line) (hskip : c → Full → skippedOld = skippedNew)
    (hnone : ¬c → skippedOld = [] ∧ skippedNew = []) :
    Aligned Full (if c then Diff.pushOmitted output else output) (old ++ skippedOld)
      (new ++ skippedNew) := by
  split_ifs with hc
  · exact hout.pushOmitted (hskip hc)
  · obtain ⟨rfl, rfl⟩ := hnone hc
    rwa [List.append_nil, List.append_nil]

theorem Aligned.appendLargeDisjointCore (hout : Aligned Full output old new) (hfull : ¬Full) :
    Aligned Full (appendLargeDisjointCore output oldCore newCore) (old ++ oldCore)
      (new ++ newCore) := by
  have hremoved := (hout.append (aligned_removed (oldCore.take maxDiffCoreLines))).pushOmitted_if
    (maxDiffCoreLines < oldCore.length) (oldCore.drop maxDiffCoreLines) []
    (fun _ h => absurd h hfull) fun h => ⟨List.drop_eq_nil_of_le (not_lt.mp h), rfl⟩
  have hadded := (hremoved.append (aligned_added (newCore.take maxDiffCoreLines))).pushOmitted_if
    (maxDiffCoreLines < newCore.length) [] (newCore.drop maxDiffCoreLines)
    (fun _ h => absurd h hfull) fun h => ⟨rfl, List.drop_eq_nil_of_le (not_lt.mp h)⟩
  simp only [List.append_nil, List.append_assoc _ (List.take _ _) (List.drop _ _),
    List.take_append_drop] at hadded
  exact hadded

theorem Aligned.appendEdge (hout : Aligned Full output old new) (hfull : ¬Full) (anchored : Bool)
    (oldEdge newEdge : List Line) (hlimit : oldEdge.length ≤ 4096) :
    Aligned Full
      (if anchored then Diff.appendCollapsedOps output (diffOps oldEdge newEdge)
        else Diff.pushOmitted output) (old ++ oldEdge) (new ++ newEdge) := by
  split_ifs
  · exact hout.appendDiff hlimit
  · exact hout.pushOmitted fun h => absurd h hfull

theorem Aligned.appendLargeSharedCore (hout : Aligned Full output old new) (hfull : ¬Full)
    (hold : maxDiffCoreLines < oldCore.length) (hnew : maxDiffCoreLines < newCore.length) :
    Aligned Full (appendLargeSharedCore output oldCore newCore) (old ++ oldCore)
      (new ++ newCore) := by
  unfold Diff.appendLargeSharedCore
  -- The two edges of a large core do not overlap.
  have hedges : ∀ core : List Line, maxDiffCoreLines < core.length →
      maxDiffCoreLines / 2 + maxDiffCoreLines / 2 ≤ core.length := fun core hcore => by omega
  have hlimit : maxDiffCoreLines / 2 ≤ 4096 := by decide
  have holdSplit := take_append_middle_append_drop (hedges oldCore hold)
  have hnewSplit := take_append_middle_append_drop (hedges newCore hnew)
  generalize maxDiffCoreLines / 2 = edgeLines at *
  have hhead := hout.appendEdge hfull
    (suffixAnchorMatches (oldCore.take edgeLines) (newCore.take edgeLines))
    (oldCore.take edgeLines) (newCore.take edgeLines) ((List.length_take_le _ _).trans hlimit)
  have hmiddle : Aligned Full _
      (old ++ oldCore.take edgeLines ++ (oldCore.take (oldCore.length - edgeLines)).drop edgeLines)
      (new ++ newCore.take edgeLines ++
        (newCore.take (newCore.length - edgeLines)).drop edgeLines) :=
    hhead.pushOmitted fun h => absurd h hfull
  have htail := hmiddle.appendEdge hfull
    (prefixAnchorMatches (oldCore.drop (oldCore.length - edgeLines))
      (newCore.drop (newCore.length - edgeLines)))
    (oldCore.drop (oldCore.length - edgeLines)) (newCore.drop (newCore.length - edgeLines))
    (by rw [List.length_drop]; omega)
  rw [List.append_assoc old, List.append_assoc old, List.append_assoc new, List.append_assoc new,
    holdSplit, hnewSplit] at htail
  exact htail

theorem Aligned.appendCore (hout : Aligned Full output old new)
    (hfull : Full → WithinLimits oldCore newCore) :
    Aligned Full (appendCore output oldCore newCore) (old ++ oldCore) (new ++ newCore) := by
  rw [Diff.appendCore]
  split_ifs with hlarge hshares hboth hasymmetric
  · refine hout.appendLargeSharedCore (fun h => ?_) hboth.1 hboth.2
    rcases hfull h with h | h <;> omega
  · unfold maxAsymmetricCoreLines at hasymmetric
    exact hout.appendDiff (by omega)
  · refine hout.pushOmitted fun h => ?_
    rcases hfull h with h | h <;> omega
  · refine hout.appendLargeDisjointCore fun h => ?_
    rcases hfull h with h | h
    · omega
    · exact hshares h.1
  · unfold maxDiffCoreLines at hlarge
    exact hout.appendDiff (by omega)

end Core

/-! ### What the texts have in common -/

theorem commonPrefix_le : ∀ oldLines newLines : List Line,
    commonPrefix oldLines newLines ≤ oldLines.length ∧
      commonPrefix oldLines newLines ≤ newLines.length
  | [], _ => by simp [commonPrefix]
  | _ :: _, [] => by simp [commonPrefix]
  | oldLine :: oldLines, newLine :: newLines => by
    have := commonPrefix_le oldLines newLines
    simp only [commonPrefix, List.length_cons]
    split_ifs <;> omega

theorem take_commonPrefix : ∀ oldLines newLines : List Line,
    oldLines.take (commonPrefix oldLines newLines) = newLines.take (commonPrefix oldLines newLines)
  | [], _ => by simp [commonPrefix]
  | _ :: _, [] => by simp [commonPrefix]
  | oldLine :: oldLines, newLine :: newLines => by
    rw [commonPrefix]
    split_ifs with h
    · rw [List.take_succ_cons, List.take_succ_cons, take_commonPrefix oldLines newLines, h]
    · rfl

section Texts

variable (oldLines newLines : List Line)

theorem prefixLength_add_suffixLength_le :
    prefixLength oldLines newLines + suffixLength oldLines newLines ≤ oldLines.length ∧
      prefixLength oldLines newLines + suffixLength oldLines newLines ≤ newLines.length := by
  have hcommon := commonPrefix_le oldLines newLines
  have hsuffix := commonPrefix_le (oldLines.drop (prefixLength oldLines newLines)).reverse
    (newLines.drop (prefixLength oldLines newLines)).reverse
  simp only [List.length_reverse, List.length_drop] at hsuffix
  unfold suffixLength
  unfold prefixLength at *
  omega

theorem drop_suffixLength :
    oldLines.drop (oldLines.length - suffixLength oldLines newLines) =
      newLines.drop (newLines.length - suffixLength oldLines newLines) := by
  have hle := prefixLength_add_suffixLength_le oldLines newLines
  have htake := take_commonPrefix (oldLines.drop (prefixLength oldLines newLines)).reverse
    (newLines.drop (prefixLength oldLines newLines)).reverse
  rw [← suffixLength, List.take_reverse, List.take_reverse, List.reverse_inj, List.drop_drop,
    List.drop_drop, List.length_drop, List.length_drop] at htake
  convert htake using 2 <;> omega

variable {oldLines newLines}

theorem aligned_changedLines
    (hfull : Full → WithinLimits (oldCore oldLines newLines) (newCore oldLines newLines)) :
    Aligned Full (changedLines oldLines newLines []) oldLines newLines := by
  have hle := prefixLength_add_suffixLength_le oldLines newLines
  have hstart : oldLines.take (prefixLength oldLines newLines) =
      newLines.take (prefixLength oldLines newLines) := take_commonPrefix oldLines newLines
  have hend := drop_suffixLength oldLines newLines
  have hold := take_append_middle_append_drop hle.1
  have hnew := take_append_middle_append_drop hle.2
  have htail : (oldLines.drop (oldLines.length - suffixLength oldLines newLines)).length =
      suffixLength oldLines newLines := by
    rw [List.length_drop]
    omega
  unfold oldCore newCore at hfull
  unfold changedLines oldCore newCore
  generalize prefixLength oldLines newLines = start at *
  generalize suffixLength oldLines newLines = suffix at *
  -- The end of the common beginning.
  have hbefore := (Aligned.nil.pushOmitted_if (contextLines < start)
    (oldLines.take (start - contextLines)) (oldLines.take (start - contextLines))
    (fun _ (_ : Full) => rfl)
    fun h => by simp [Nat.sub_eq_zero_of_le (not_lt.mp h)]).append
      (aligned_context ((oldLines.take start).drop (start - contextLines)))
  have hjoin := List.take_append_drop (start - contextLines) (oldLines.take start)
  rw [List.take_take, min_eq_left (Nat.sub_le _ _)] at hjoin
  have hcore := (hbefore.congr hjoin (hjoin.trans hstart)).appendCore hfull
  -- The beginning of the common end.
  have hafter := (hcore.append (aligned_context
      ((oldLines.take (oldLines.length - suffix + min suffix contextLines)).drop
        (oldLines.length - suffix)))).pushOmitted_if (contextLines < suffix)
    ((oldLines.drop (oldLines.length - suffix)).drop (min suffix contextLines))
    ((oldLines.drop (oldLines.length - suffix)).drop (min suffix contextLines))
    (fun _ _ => rfl) fun h => by
      rw [min_eq_left (not_lt.mp h), List.drop_eq_nil_of_le htail.le]
      exact ⟨rfl, rfl⟩
  have hjoin' : (oldLines.take (oldLines.length - suffix + min suffix contextLines)).drop
        (oldLines.length - suffix) ++
      (oldLines.drop (oldLines.length - suffix)).drop (min suffix contextLines) =
        oldLines.drop (oldLines.length - suffix) := by
    rw [List.drop_take, Nat.add_sub_cancel_left, List.take_append_drop]
  refine hafter.congr ?_ ?_
  · rw [List.append_assoc, hjoin', hold]
  · rw [List.append_assoc, hjoin', hend, hnew]

end Texts

/-! ### The budget -/

theorem Aligned.rebuildLoop {output : List DiffLine} {lines : List (DiffLine × Bool)}
    {old new restOld restNew : List Line} (omitted : Bool) (pendingOld pendingNew : List Line)
    (hout : Aligned False output old new)
    (hlines : Aligned False (lines.map (·.1)) restOld restNew)
    (hpending : omitted = false → pendingOld = [] ∧ pendingNew = []) :
    Aligned False (rebuildLoop output omitted lines) (old ++ pendingOld ++ restOld)
      (new ++ pendingNew ++ restNew) := by
  induction lines generalizing output old new pendingOld pendingNew restOld restNew omitted with
  | nil =>
    cases hlines
    rw [List.append_nil, List.append_nil]
    exact hout.pushOmitted_if (omitted = true) pendingOld pendingNew (fun _ h => h.elim)
      fun h => hpending (Bool.eq_false_of_not_eq_true h)
  | cons line lines ih =>
    obtain ⟨old₁, old₂, new₁, new₂, rfl, rfl, hline, hrest⟩ := hlines.exists_cons
    obtain ⟨line, selected⟩ := line
    rw [← List.append_assoc, ← List.append_assoc]
    cases selected with
    | true =>
      have hpushed := hout.pushOmitted_if (omitted = true) pendingOld pendingNew
        (fun _ h => h.elim) fun h => hpending (Bool.eq_false_of_not_eq_true h)
      have := ih false [] [] (hpushed.append hline) hrest fun _ => ⟨rfl, rfl⟩
      rwa [List.append_nil, List.append_nil] at this
    | false =>
      have := ih true (pendingOld ++ old₁) (pendingNew ++ new₁) hout hrest
        fun h => absurd h Bool.noConfusion
      rwa [← List.append_assoc, ← List.append_assoc] at this

theorem length_selectEdges (indices : List ℕ) (budget : ℕ) (selected : List Bool) :
    (selectEdges indices budget selected).length = selected.length := by
  have hfold : ∀ (indices : List ℕ) (selected : List Bool),
      (indices.foldl (fun selected index => selected.set index true) selected).length =
        selected.length := fun indices => by
    induction indices with
    | nil => exact fun _ => rfl
    | cons index indices ih => exact fun selected => (ih _).trans (List.length_set ..)
  rw [selectEdges, hfold, hfold]

theorem aligned_omitted (old new : List Line) : Aligned False [⟨.omitted, []⟩] old new := by
  simpa using Aligned.omitted [] (fun h : False => h.elim) .nil

section Balance

variable {lines : List DiffLine} {old new : List Line} {maxLines : ℕ}

theorem Aligned.rebuildSelected (h : Aligned False lines old new) {selected : List Bool}
    (hselected : selected.length = lines.length) :
    Aligned False (rebuildSelected lines selected) old new := by
  have hlines : (lines.zip selected).map (·.1) = lines := List.map_fst_zip hselected.ge
  have hrest : Aligned False ((lines.zip selected).map (·.1)) old new := by rwa [hlines]
  exact Aligned.rebuildLoop false [] [] .nil hrest fun _ => ⟨rfl, rfl⟩

theorem Aligned.balanceLoop (h : Aligned False lines old new) (hmax : 1 ≤ maxLines)
    (removedBudget addedBudget : ℕ) :
    Aligned False (balanceLoop lines maxLines removedBudget addedBudget) old new ∧
      (Diff.balanceLoop lines maxLines removedBudget addedBudget).length ≤ maxLines := by
  induction hbudget : removedBudget + addedBudget using Nat.strong_induction_on
    generalizing removedBudget addedBudget with
  | _ budget ih =>
    rw [Diff.balanceLoop]
    generalize (if indicesForKind lines .removed = [] then 0 else 1) = minimumRemoved
    generalize (if indicesForKind lines .added = [] then 0 else 1) = minimumAdded
    split_ifs with hlength hremoved hadded
    · refine ⟨h.rebuildSelected ?_, hlength⟩
      rw [length_selectEdges, length_selectEdges, List.length_replicate]
    · exact ih _ (by omega) (removedBudget - 1) addedBudget rfl
    · exact ih _ (by omega) removedBudget (addedBudget - 1) rfl
    · exact ⟨aligned_omitted old new, hmax⟩

theorem Aligned.balancePreview (h : Aligned Full lines old new)
    (hmax : 1 ≤ maxLines) :
    Aligned (Full ∧ lines.length ≤ maxLines) (balancePreview lines maxLines) old new ∧
      (Diff.balancePreview lines maxLines).length ≤ maxLines := by
  have hnone : Aligned False lines old new := h.mono False.elim
  have hloop : ∀ removedBudget addedBudget, ¬lines.length ≤ maxLines →
      Aligned (Full ∧ lines.length ≤ maxLines)
          (Diff.balanceLoop lines maxLines removedBudget addedBudget) old new ∧
        (Diff.balanceLoop lines maxLines removedBudget addedBudget).length ≤ maxLines :=
    fun removedBudget addedBudget hlength =>
      (hnone.balanceLoop hmax removedBudget addedBudget).imp_left fun h =>
        h.mono fun hfull => hlength hfull.2
  rw [Diff.balancePreview]
  dsimp only
  generalize (if indicesForKind lines .removed = [] then 0 else 1) +
    (if indicesForKind lines .added = [] then 0 else 1) = kinds
  split_ifs with hlength hzero
  · exact ⟨h.mono And.left, hlength⟩
  · omega
  · exact ⟨(aligned_omitted old new).mono fun hfull => hlength hfull.2, hmax⟩
  all_goals exact hloop _ _ hlength

end Balance

theorem commonPrefix_self : ∀ lines : List Line, commonPrefix lines lines = lines.length
  | [] => rfl
  | line :: lines => by rw [commonPrefix, if_pos rfl, commonPrefix_self lines, List.length_cons]

/-- The preview of two texts is not too long, is empty only if they have the same lines, and else is
a reading of both. In it no changed line is left out if the core is within the limits and the whole
diff fits. -/
theorem follows_preview (oldText newText : List Char) (maxLines : ℕ) (hmax : 1 ≤ maxLines) :
    let oldLines : List Line := snapshotLines oldText
    let newLines : List Line := snapshotLines newText
    let lines := preview (some oldText) newText false maxLines
    lines.length ≤ maxLines ∧ (lines = [] ↔ oldLines = newLines) ∧
      (lines ≠ [] → ∃ cursor, Follows
        (WithinLimits (oldCore oldLines newLines) (newCore oldLines newLines) ∧
          (previewLines (some oldText) newText false).length ≤ maxLines)
        lines oldLines newLines cursor) := by
  intro oldLines newLines lines
  by_cases h : prefixLength oldLines newLines = oldLines.length ∧
      prefixLength oldLines newLines = newLines.length
  · have hequal : oldLines = newLines := by
      have htake : oldLines.take (prefixLength oldLines newLines) =
          newLines.take (prefixLength oldLines newLines) := take_commonPrefix oldLines newLines
      rwa [h.1, List.take_length, ← h.1, h.2, List.take_length] at htake
    have hnil : lines = [] := by
      have : previewLines (some oldText) newText false = [] := if_pos h
      exact (congrArg (balancePreview · maxLines) this).trans (if_pos (Nat.zero_le _))
    exact ⟨by rw [hnil]; exact Nat.zero_le _, iff_of_true hnil hequal, fun hne => absurd hnil hne⟩
  · have hne : oldLines ≠ newLines := fun hequal => h <| by
      have hcommon : prefixLength oldLines newLines = oldLines.length := by
        rw [prefixLength, ← hequal, commonPrefix_self]
      exact ⟨hcommon, hcommon.trans (congrArg List.length hequal)⟩
    have hlines : Aligned (WithinLimits (oldCore oldLines newLines) (newCore oldLines newLines))
        (previewLines (some oldText) newText false) oldLines newLines := by
      have : previewLines (some oldText) newText false = changedLines oldLines newLines [] :=
        if_neg h
      rw [this]
      exact aligned_changedLines fun hfull => hfull
    obtain ⟨hread, hlength⟩ := hlines.balancePreview hmax
    refine ⟨hlength, iff_of_false (fun hnil => hne ?_) hne, fun _ => hread.exists_follows⟩
    rw [show balancePreview _ _ = [] from hnil] at hread
    exact hread.eq_nil_of_nil.1.trans hread.eq_nil_of_nil.2.symm

theorem follows_preview_of_budget :
    let oldLines := snapshotLines "a\nb".toList
    let newLines := snapshotLines "a\nc\nd".toList
    let lines := preview (some "a\nb".toList) "a\nc\nd".toList false 3
    lines.length ≤ 3 ∧ (lines = [] ↔ oldLines = newLines) ∧
      (lines ≠ [] → ∃ cursor, Follows
        (WithinLimits (oldCore oldLines newLines) (newCore oldLines newLines) ∧
          (previewLines (some "a\nb".toList) "a\nc\nd".toList false).length ≤ 3)
        lines oldLines newLines cursor) :=
  follows_preview _ _ 3 (by decide)

end IntelligentTerminal.Diff
