import IntelligentTerminal.Editor.Document
import IntelligentTerminal.Editor.QueuedRequests

/-!
# Recalling a request restores its draft

The tokens of a recalled draft are new, and may be shorter or longer than the old ones. The loop
that inserts them keeps the pieces it has passed in front of the text that is left, and the sums of
removed and inserted bytes are the distance between the old position and the new one.
-/

namespace IntelligentTerminal.Editor

open Data Document

variable {env : Env} {d d' : Document env} {app : App}
  {manualFix : Option (List Char)} {pending : List PendingImage} {item : QueuedRequest}
  {input : List Char} {w : Surroundings}

/-! ### Drafts and documents -/

/-- The tokens of a draft are apart and in order, and the range of each covers its token. -/
structure TokenInvariant (env : Env) (input : List Char) (pending : List PendingImage) : Prop where
  apart : pending.Pairwise fun p q => p.tokenRange.stop ≤ q.tokenRange.start
  covers : ∀ p ∈ pending, get input p.tokenRange = some p.token ∧
    ∃ imageId, p.token = imageToken env p.image imageId

theorem tokenInvariant_document (d : Document env) : TokenInvariant env d.text (images 0 d) :=
  ⟨images_pairwise d 0, fun _ hp => get_images hp⟩

theorem exists_document_behind (front rest : List Char)
    (hfront : ∀ p ∈ pending, len front ≤ p.tokenRange.start)
    (h : TokenInvariant env (front ++ rest) pending) :
    ∃ d : Document env, rest = d.text ∧ pending = images (len front) d := by
  induction pending generalizing front rest with
  | nil => exact ⟨ofText rest, (text_ofText rest).symm, (images_ofText _ rest).symm⟩
  | cons p pending ih =>
    obtain ⟨image, range, token⟩ := p
    obtain ⟨hget, hshape⟩ := h.covers _ List.mem_cons_self
    have hfits : Fits (front ++ rest) range := by
      by_contra hnot
      rw [get, if_neg hnot] at hget
      exact absurd hget (by simp)
    obtain ⟨a, m, b, hsplit, rfl⟩ := exists_append_of_fits hfits
    rw [hsplit, get_append] at hget
    obtain rfl : m = token := Option.some.inj hget
    have hle : len front ≤ len a := hfront _ List.mem_cons_self
    obtain ⟨c, rfl, hrest⟩ : ∃ c, a = front ++ c ∧ rest = c ++ (m ++ b) := by
      rw [List.append_assoc] at hsplit
      obtain ⟨c, ha, hrest⟩ | ⟨c, hc, hb⟩ := List.append_eq_append_iff.mp hsplit
      · exact ⟨c, ha, hrest⟩
      · have hlen : len front = len a + len c := by
          rw [hc]
          exact width_append _ _ _
        have hzero : len c = 0 := by omega
        obtain rfl := (width_eq_zero Char.utf8Size_pos).mp hzero
        exact ⟨[], by simpa using hc.symm, hb.symm⟩
    have hapart := List.pairwise_cons.mp h.apart
    obtain ⟨d, hd, hpending⟩ := ih (front ++ c ++ m) b hapart.1
      ⟨hapart.2, fun q hq => hsplit ▸ h.covers q (List.mem_cons_of_mem _ hq)⟩
    refine ⟨ofText c ++ .token ⟨image, m, hshape⟩ :: d, ?_, ?_⟩
    · rw [hrest, hd, text_append, text_ofText, text_cons]
      rfl
    · have hstart : len (front ++ c) = len front + len c := width_append _ _ _
      have hstop : len (front ++ c ++ m) = len front + len c + len m :=
        hstart ▸ width_append _ _ _
      rw [images_append, images_ofText, List.nil_append, size_ofText, images, hpending, hstart,
        hstop]

theorem TokenInvariant.exists_document
    (h : TokenInvariant env input pending) :
    ∃ d : Document env, input = d.text ∧ pending = images 0 d :=
  exists_document_behind [] input (fun _ _ => Nat.zero_le _) h

/-- Where tokens start in the text without tokens, if `removed` bytes have been removed. -/
def plainOffsets (removed : ℕ) : List PendingImage → List ℕ
  | [] => []
  | p :: pending =>
    (p.tokenRange.start - removed) ::
      plainOffsets (removed + (p.tokenRange.stop - p.tokenRange.start)) pending

/-- Two pieces that are the same character, or tokens of one image. -/
inductive Piece.Alike : Piece env → Piece env → Prop
  | char (ch : Char) : Alike (.char ch) (.char ch)
  | token {t t' : Token env} (h : t.image = t'.image) : Alike (.token t) (.token t')

/-- Two documents that differ in the texts of their tokens. -/
def Document.Alike (d d' : Document env) : Prop := List.Forall₂ Piece.Alike d d'

theorem Document.Alike.plain (h : d.Alike d') : d.plain = d'.plain := by
  induction h with
  | nil => rfl
  | cons hpiece _ ih =>
    cases hpiece with
    | char ch => exact congrArg (ch :: ·) ih
    | token _ => exact ih

theorem Document.Alike.images (h : d.Alike d') (start start' : ℕ) :
    (images start d).map (·.image) = (images start' d').map (·.image) := by
  induction h generalizing start start' with
  | nil => rfl
  | cons hpiece _ ih =>
    cases hpiece with
    | char ch => exact ih _ _
    | token himage => exact congrArg₂ List.cons himage (ih _ _)

theorem Document.Alike.plainOffsets (h : d.Alike d') (removed removed' offset : ℕ) :
    plainOffsets removed (Document.images (removed + offset) d) =
      plainOffsets removed' (Document.images (removed' + offset) d') := by
  induction h generalizing removed removed' offset with
  | nil => rfl
  | cons hpiece _ ih =>
    cases hpiece with
    | char ch =>
      rw [Document.images, Document.images, Nat.add_assoc, Nat.add_assoc]
      exact ih _ _ _
    | @token t t' _ =>
      rw [Document.images, Document.images, Editor.plainOffsets, Editor.plainOffsets]
      dsimp only
      rw [Nat.add_sub_cancel_left, Nat.add_sub_cancel_left, Nat.add_sub_cancel_left,
        Nat.add_sub_cancel_left, Nat.add_right_comm, Nat.add_right_comm removed']
      exact congrArg (offset :: ·) (ih _ _ _)

/-! ### Restoring a draft -/

open App

theorem restoreImage_foldlM (a d : Document env) (start removed inserted nextImageId : ℕ)
    (hremoved : removed ≤ start) (hcursor : start - removed + inserted = size a) :
    ∃ d' : Document env, d.Alike d' ∧ ∃ nextImageId' removed' inserted',
      (((images start d).map (·.image)).zip ((images start d).map (·.tokenRange))).foldlM
        (restoreImage env) (⟨images 0 (a ++ ofText (plain d)), nextImageId⟩,
          text (a ++ ofText (plain d)), removed, inserted) =
        some (⟨images 0 (a ++ d'), nextImageId'⟩, text (a ++ d'), removed', inserted') := by
  induction d generalizing a start removed inserted nextImageId with
  | nil => exact ⟨[], .nil, _, _, _, rfl⟩
  | cons piece d ih =>
    cases piece with
    | char ch =>
      have hsize : size (a ++ [.char ch]) = size a + ch.utf8Size := by
        rw [size_append, size_cons, size_nil]
        rfl
      obtain ⟨d', halike, hrun⟩ := ih (a ++ [.char ch]) (start + ch.utf8Size) removed inserted nextImageId
        (by omega) (by omega)
      refine ⟨.char ch :: d', .cons (.char ch) halike, ?_⟩
      rw [List.append_assoc, List.append_assoc] at hrun
      exact hrun
    | token t =>
      obtain ⟨t', himage, hinsert⟩ :=
        insertImage_images a (ofText (plain d)) nextImageId t.image
      have hsize : size (a ++ [.token t']) = size a + len t'.text := by
        rw [size_append, size_cons, size_nil]
        rfl
      have hinserted : len (text (a ++ [.token t'] ++ ofText (plain d))) -
          len (text (a ++ ofText (plain d))) = len t'.text := by
        rw [len_text, len_text, size_append, hsize, size_append]
        omega
      have hstep : restoreImage env (⟨images 0 (a ++ ofText (plain d)), nextImageId⟩,
          text (a ++ ofText (plain d)), removed, inserted)
          (t.image, ⟨start, start + len t.text⟩) =
          some (⟨images 0 (a ++ [.token t'] ++ ofText (plain d)), nextImageId + 1⟩,
            text (a ++ [.token t'] ++ ofText (plain d)), removed + len t.text,
            inserted + len t'.text) := by
        rw [restoreImage]
        dsimp only
        rw [if_neg (by omega), hcursor, hinsert, Nat.add_sub_cancel_left, ← hinserted]
        rfl
      obtain ⟨d', halike, hrun⟩ := ih (a ++ [.token t']) (start + len t.text) (removed + len t.text)
        (inserted + len t'.text) (nextImageId + 1) (by omega) (by omega)
      refine ⟨.token t' :: d', .cons (.token himage.symm) halike, ?_⟩
      rw [List.append_assoc a [.token t'] d'] at hrun
      rw [images, List.map_cons, List.map_cons, List.zip_cons_cons, List.foldlM_cons, plain]
      dsimp only
      rw [hstep]
      exact hrun

theorem restoreDraft_document (d : Document env) (nextImageId : ℕ)
    (htext : item.recalledText = d.text)
    (himages : item.submission.images = (images 0 d).map (·.image))
    (hranges : item.imageTokenRanges = (images 0 d).map (·.tokenRange)) :
    ∃ d' : Document env, d.Alike d' ∧ ∃ nextImageId',
      restoreDraft env ⟨[], nextImageId⟩ item = some (⟨images 0 d', nextImageId'⟩, d'.text) := by
  have hplain : item.imageTokenRanges.reverse.foldlM
      (fun input range => replaceRange input range []) item.recalledText = some d.plain := by
    rw [htext, hranges, ← List.map_reverse, List.foldlM_map]
    exact submissionText_images d nextImageId
  obtain ⟨d', halike, nextImageId', removed', inserted', hrun⟩ :=
    restoreImage_foldlM [] d 0 0 0 nextImageId le_rfl rfl
  refine ⟨d', halike, nextImageId', ?_⟩
  rw [List.nil_append, List.nil_append, images_ofText, text_ofText] at hrun
  rw [restoreDraft, hplain, himages, hranges]
  dsimp only [Option.bind_eq_bind, Option.bind_some]
  rw [hrun]
  rfl

/-- A draft has the text, the images and the offsets of another: the text without its tokens is the
same, the images are the same in the same order, and the tokens start at the same offsets of the
text without tokens. -/
structure Restores (draft draft' : TabSession) : Prop where
  plain : ∃ s, draft.attachments.submissionText draft.input = some s ∧
    draft'.attachments.submissionText draft'.input = some s
  images : draft'.attachments.images.map (·.image) = draft.attachments.images.map (·.image)
  offsets : plainOffsets 0 draft'.attachments.images = plainOffsets 0 draft.attachments.images

/-! ### Recalling a request -/

/-- The states after a run from an empty queue. -/
def Reachable (env : Env) (app : App) : Prop :=
  ∃ tabId tab messages nextPromptId actions,
    App.run env { tabId, tab, messages, nextPromptId } actions = some app

theorem Reachable.sound (h : Reachable env app) : app.Sound := by
  obtain ⟨tabId, tab, messages, nextPromptId, actions, hrun⟩ := h
  exact run_sound hrun ⟨Multiset.nodup_zero, fun _ hk => absurd hk (Multiset.notMem_zero _)⟩

theorem recalledText_inputRequest
    (htyped : manualFix.isSome → app.tab.input ≠ []) (historyText : List Char) :
    (app.inputRequest w manualFix historyText).recalledText = app.tab.input := by
  cases manualFix with
  | none =>
    rw [QueuedRequest.recalledText, inputRequest]
    by_cases hcommand : (agentCommandForInput w.sessionCommands historyText).isSome = true
    · simp [hcommand]
    · simp [hcommand]
  | some hint =>
    have hne := htyped rfl
    simp [QueuedRequest.recalledText, inputRequest, hne]

/-- The content of an accepted draft. -/
def inputContent (w : Surroundings) (app : App) (manualFix : Option (List Char))
    (historyText : List Char) : Content :=
  (withImages (app.inputRequest w manualFix historyText)
    (app.tab.attachments.images.map (·.image))).key.2

theorem enqueueInput_holds {app queued : App}
    (hsound : app.Sound) (hconnected : w.connected = true)
    (hqueued : app.enqueueInput w manualFix = some queued) :
    ∃ historyText, queued.Holds app.nextPromptId (inputContent w app manualFix historyText) := by
  obtain ⟨historyText, hid, hkeys⟩ := enqueueInput_key hconnected hqueued
  refine ⟨historyText, hid ▸ Nat.lt_succ_self _, fun k hk hkid => ?_⟩
  obtain rfl | hk := Multiset.mem_cons.mp (Multiset.mem_of_le hkeys hk)
  · rfl
  · exact absurd hkid (hsound.lt k hk).ne

theorem recallLastPendingInput_eq {before after}
    {attachments : PendingAttachments}
    (hentries : app.promptQueue.entries = before ++ item :: after)
    (hlast : app.promptQueue.lastUserRequest = some item)
    (hbefore : ∀ entry ∈ before, entry.submission.id ≠ item.submission.id)
    (hempty : app.tab.input = [] ∧ app.tab.attachments.images = [])
    (hrestore : restoreDraft env app.tab.attachments item = some (attachments, input)) :
    app.recallLastPendingInput env = some { app with
      tab := { app.tab.resetInputUndoHistory with
        attachments, input, cursorPos := len input, inputAllSelected := false }
      promptQueue :=
        { entries := before ++ after
          paused := app.promptQueue.paused && !(before ++ after).isEmpty } } := by
  have hindex : app.promptQueue.entries.findIdx?
      (fun entry => entry.submission.id = item.submission.id) = some before.length := by
    rw [hentries, List.findIdx?_append, List.findIdx?_eq_none_iff.mpr, List.findIdx?_cons]
    · simp
    · intro entry hentry
      exact decide_eq_false (hbefore entry hentry)
  have hitem : app.promptQueue.entries[before.length]? = some item := by
    rw [hentries, List.getElem?_append_right le_rfl, Nat.sub_self]
    rfl
  have herase : app.promptQueue.entries.eraseIdx before.length = before ++ after := by
    rw [hentries, List.eraseIdx_append_of_length_le le_rfl, Nat.sub_self]
    rfl
  rw [recallLastPendingInput, if_neg (by simp [hempty]), hlast]
  dsimp only
  rw [hindex]
  dsimp only
  rw [hitem]
  dsimp only
  rw [herase]
  change (restoreDraft env app.tab.attachments item).bind _ = _
  rw [hrestore]
  rfl

/-- Recalling a request undoes queuing its draft: a draft that `enqueue_input` accepts, and that is
the last request of the user in a later state, is restored in an empty prompt. Its request leaves
the queue, and every other entry stays. -/
theorem recallLastPendingInput_restores {w : Surroundings} {app queued later : App}
    {manualFix : Option (List Char)} {actions : List Action} {item : QueuedRequest}
    (hreachable : Reachable env app)
    (hdraft : TokenInvariant env app.tab.input app.tab.attachments.images)
    (haccepts : app.accepts w manualFix = true)
    (htyped : manualFix.isSome → app.tab.input ≠ [])
    (hqueued : app.enqueueInput w manualFix = some queued)
    (hlater : queued.run env actions = some later)
    (hlast : later.promptQueue.lastUserRequest = some item)
    (hid : item.submission.id = app.nextPromptId)
    (hempty : later.tab.input = [] ∧ later.tab.attachments.images = []) :
    ∃ recalled before after, later.recallLastPendingInput env = some recalled ∧
      Restores app.tab recalled.tab ∧
      TokenInvariant env recalled.tab.input recalled.tab.attachments.images ∧
      later.promptQueue.entries = before ++ item :: after ∧
      recalled.promptQueue.entries = before ++ after ∧
      (∀ entry ∈ recalled.promptQueue.entries, entry.submission.id ≠ item.submission.id) ∧
      recalled.pendingAutofixCaptures = later.pendingAutofixCaptures := by
  have hsound := hreachable.sound
  have hmem : item ∈ later.promptQueue.entries :=
    List.mem_of_mem_filter (List.mem_of_getLast? hlast)
  obtain ⟨before, after, hentries⟩ := List.append_of_mem hmem
  -- The ids stay distinct along the run.
  have hnodup := (run_sound hlater ((enqueueInput_evolves hqueued).sound hsound)).nodup_entries
  have hothers : ∀ entry ∈ before ++ after, entry.submission.id ≠ item.submission.id := by
    rw [hentries, List.map_append, List.map_cons, List.nodup_middle, List.nodup_cons,
      ← List.map_append] at hnodup
    intro entry hentry heq
    exact hnodup.1 (heq ▸ List.mem_map_of_mem hentry)
  -- The request has kept what has been made of the draft.
  obtain ⟨historyText, hholds⟩ :=
    enqueueInput_holds hsound (Bool.and_eq_true_iff.mp haccepts).1 hqueued
  have hcontent : item.key.2 = inputContent w app manualFix historyText :=
    (run_holds hlater hholds).eq _ (mem_keys hmem) hid
  obtain ⟨hkind, htext, hdisplay, hrestore, himages, hranges⟩ := Content.mk.inj hcontent
  obtain ⟨d, hinput, hpending⟩ := hdraft.exists_document
  have hrecalled : item.recalledText = d.text := by
    rw [← hinput, ← recalledText_inputRequest htyped historyText, QueuedRequest.recalledText,
      hkind, htext, hdisplay, hrestore]
    rfl
  obtain ⟨d', halike, nextImageId, hdone⟩ := restoreDraft_document d
    later.tab.attachments.nextImageId hrecalled
    (himages.trans (congrArg (List.map fun p : PendingImage => p.image) hpending))
    (hranges.trans (congrArg (List.map fun p : PendingImage => p.tokenRange) hpending))
  rw [← hempty.2] at hdone
  refine ⟨_, before, after, recallLastPendingInput_eq hentries hlast
    (fun entry hentry => hothers entry (List.mem_append_left _ hentry)) hempty hdone, ?_,
    tokenInvariant_document d', hentries, rfl, hothers, rfl⟩
  refine ⟨⟨d.plain, ?_, ?_⟩, ?_, ?_⟩
  · have h := submissionText_images d app.tab.attachments.nextImageId
    rwa [← hinput, ← hpending] at h
  · rw [halike.plain]
    exact submissionText_images d' nextImageId
  · rw [hpending]
    exact (halike.images 0 0).symm
  · rw [hpending]
    exact (halike.plainOffsets 0 0 0).symm

/-- An environment in which every label has an extension. -/
def sampleEnv : Env := ⟨fun _ => true, fun _ => true, fun _ => some 1⟩

/-- A draft with a character between two tokens. -/
def sampleDocument : Document sampleEnv :=
  [.token ⟨{ label := ['a'] }, imageToken sampleEnv { label := ['a'] } 1, 1, rfl⟩, .char 'x',
    .token ⟨{ label := ['b'] }, imageToken sampleEnv { label := ['b'] } 2, 2, rfl⟩]

/-- A prompt with this draft. -/
def sampleApp : App :=
  { tab := { input := sampleDocument.text, attachments := ⟨images 0 sampleDocument, 2⟩ } }

/-- The state after the draft is queued. -/
def sampleQueued : App := (sampleApp.enqueueInput {} none).getD {}

/-- The request that is made of the draft. -/
def sampleItem : QueuedRequest :=
  sampleQueued.promptQueue.lastUserRequest.getD ⟨⟨0, [], none, none, none, false, []⟩, [], .prompt,
    0, false, none, []⟩

theorem recallLastPendingInput_restores_sample :
    ∃ recalled before after, sampleQueued.recallLastPendingInput sampleEnv = some recalled ∧
      Restores sampleApp.tab recalled.tab ∧
      TokenInvariant sampleEnv recalled.tab.input recalled.tab.attachments.images ∧
      sampleQueued.promptQueue.entries = before ++ sampleItem :: after ∧
      recalled.promptQueue.entries = before ++ after ∧
      (∀ entry ∈ recalled.promptQueue.entries,
        entry.submission.id ≠ sampleItem.submission.id) ∧
      recalled.pendingAutofixCaptures = sampleQueued.pendingAutofixCaptures := by
  have hqueued : sampleApp.enqueueInput {} none = some sampleQueued := by
    rw [sampleQueued, ← Option.get_eq_getD (h := by decide +kernel), Option.some_get]
  have hlast : sampleQueued.promptQueue.lastUserRequest = some sampleItem := by
    rw [sampleItem, ← Option.get_eq_getD (h := by decide +kernel), Option.some_get]
  have hlater : sampleQueued.run sampleEnv [] = some sampleQueued := rfl
  exact recallLastPendingInput_restores (w := {}) ⟨[], sampleApp.tab, [], 1, [], rfl⟩
    (tokenInvariant_document sampleDocument) (by decide +kernel) (fun h => absurd h (by decide))
    hqueued hlater hlast (by decide +kernel)
    ⟨by decide +kernel, List.eq_nil_of_length_eq_zero (by decide +kernel)⟩

end IntelligentTerminal.Editor
