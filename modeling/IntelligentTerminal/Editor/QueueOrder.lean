import IntelligentTerminal.Editor.QueuedRequests

/-!
# The order of a queue

What the user asked for waits in front of what is automatic, in the order in which it was asked for.
There is one automatic request at most for each terminal, and the queue stays within its limit.

Source: `tools/wta/src/app/prompt_queue.rs`, lines 110-245.
-/

namespace IntelligentTerminal.Editor

/-- What decides where a request waits. -/
inductive Rank
  | user (queuedAt : ℕ)
  | automatic (source : Option (List Char))

/-- A request may wait in front of another. -/
def Rank.Before : Rank → Rank → Prop
  | .user queuedAt, .user queuedAt' => queuedAt ≤ queuedAt'
  | .user _, .automatic _ => True
  | .automatic _, .user _ => False
  | .automatic source, .automatic source' => source ≠ source'

def QueuedRequest.rank (q : QueuedRequest) : Rank :=
  if q.kind = .automaticFix then .automatic q.source else .user q.queuedAt

structure Ordered (entries : List QueuedRequest) : Prop where
  pairwise : (entries.map QueuedRequest.rank).Pairwise Rank.Before
  length : entries.length ≤ maxRequests

abbrev App.InOrder (app : App) : Prop := Ordered app.promptQueue.entries

theorem pairwise_insertIdx {α : Type*} {R : α → α → Prop} {p : α → Bool} {l : List α} {a : α}
    (h : l.Pairwise R) (hfront : ∀ x, p x = false → R x a) (hback : ∀ x, p x = true → R a x)
    (hnext : ∀ x y, R x y → p x = true → p y = true) :
    (l.insertIdx (l.findIdx p) a).Pairwise R := by
  induction l with
  | nil => exact List.pairwise_singleton R a
  | cons x l ih =>
    obtain ⟨hx, hl⟩ := List.pairwise_cons.mp h
    rw [List.findIdx_cons]
    cases hp : p x with
    | true =>
      refine List.pairwise_cons.mpr ⟨fun y hy => hback y ?_, h⟩
      obtain rfl | hy := List.mem_cons.mp hy
      · exact hp
      · exact hnext x y (hx y hy) hp
    | false =>
      refine List.pairwise_cons.mpr ⟨fun y hy => ?_, ih hl⟩
      have hperm := List.perm_insertIdx a l (List.findIdx_le_length (p := p))
      obtain rfl | hy := List.mem_cons.mp (hperm.mem_iff.mp hy)
      · exact hfront x hp
      · exact hx y hy

namespace Ordered

variable {env : Env} {w : Surroundings} {app app' : App} {l l' : List QueuedRequest}
  {item : QueuedRequest} {queue : PromptQueue}

theorem sublist (h : Ordered l) (hsub : l'.Sublist l) : Ordered l' :=
  ⟨h.pairwise.sublist (hsub.map _), hsub.length_le.trans h.length⟩

theorem congr (h : Ordered l) (hrank : l'.map QueuedRequest.rank = l.map QueuedRequest.rank) :
    Ordered l' := by
  refine ⟨hrank ▸ h.pairwise, ?_⟩
  rw [← List.length_map QueuedRequest.rank, hrank, List.length_map]
  exact h.length

theorem map (h : Ordered l) {f : QueuedRequest → QueuedRequest} (hf : ∀ q, (f q).rank = q.rank) :
    Ordered (l.map f) :=
  h.congr (by rw [List.map_map]; exact List.map_congr_left fun q _ => hf q)

theorem rank_mapContext {f : PaneContext → PaneContext}
    (hf : ∀ context, (f context).sourcePaneId = context.sourcePaneId) (q : QueuedRequest) :
    (q.mapContext f).rank = q.rank := by
  have hsource : (q.mapContext f).source = q.source := by
    rw [QueuedRequest.source, QueuedRequest.source, QueuedRequest.mapContext, Option.bind_map]
    exact congrArg _ (funext hf)
  rw [QueuedRequest.rank, QueuedRequest.rank, hsource]
  rfl

/-- A request of the user waits behind those that are not newer, and in front of all others. -/
theorem insertIdx (h : Ordered l) (hitem : item.kind ≠ .automaticFix)
    (hlt : l.length < maxRequests) :
    Ordered (l.insertIdx (l.findIdx fun entry =>
      entry.kind == .automaticFix || decide (item.queuedAt < entry.queuedAt)) item) := by
  have hrank : item.rank = .user item.queuedAt := if_neg hitem
  refine ⟨List.pairwise_map.mpr (pairwise_insertIdx (List.pairwise_map.mp h.pairwise)
    (fun q hq => ?_) (fun q hq => ?_) fun q q' hbefore hq => ?_),
    (List.perm_insertIdx item l List.findIdx_le_length).length_eq.trans_le hlt⟩
  · simp only [Bool.or_eq_false_iff, beq_eq_false_iff_ne, decide_eq_false_iff_not, not_lt] at hq
    rw [hrank, QueuedRequest.rank, if_neg hq.1]
    exact hq.2
  · rw [hrank, QueuedRequest.rank]
    split_ifs with hkind
    · trivial
    · simp only [Bool.or_eq_true, beq_iff_eq, decide_eq_true_eq] at hq
      exact (hq.resolve_left hkind).le
  · simp only [Bool.or_eq_true, beq_iff_eq, decide_eq_true_eq] at hq ⊢
    rw [QueuedRequest.rank, QueuedRequest.rank] at hbefore
    split_ifs at hbefore with hkind hkind' hkind'
    · exact .inl hkind'
    · exact hbefore.elim
    · exact .inl hkind'
    · exact .inr ((hq.resolve_left hkind).trans_le hbefore)

theorem length_lt_of_canFit {captures : List QueuedRequest} {bytes : ℕ}
    (hfit : queue.canFit item bytes captures = true) :
    (queue.entries.filter fun entry => !item.replacesAutomatic entry).length < maxRequests := by
  rw [PromptQueue.canFit, Bool.and_eq_true, decide_eq_true_eq, List.filter_append,
    List.length_append] at hfit
  omega

/-- A request that fits is put in its place, or in that of the one that it replaces. -/
theorem insert (h : Ordered queue.entries)
    (hlt : (queue.entries.filter fun entry => !item.replacesAutomatic entry).length <
      maxRequests) :
    Ordered (queue.insert item).entries := by
  rw [PromptQueue.insert]
  split_ifs with hitem
  · have hrank : item.rank = .automatic item.source := if_pos hitem
    cases hindex : queue.entries.findIdx? item.replacesAutomatic with
    | some index =>
      obtain ⟨hlt, hreplaces, -⟩ := List.findIdx?_eq_some_iff_getElem.mp hindex
      simp only [QueuedRequest.replacesAutomatic, Bool.and_eq_true, beq_iff_eq] at hreplaces
      have hsame : queue.entries[index].rank = item.rank := by
        rw [hrank, QueuedRequest.rank, if_pos hreplaces.1.1, hreplaces.1.2]
      refine h.congr ?_
      rw [List.map_set, ← hsame, ← List.getElem_map QueuedRequest.rank (h := by simpa using hlt),
        List.set_getElem_self]
    | none =>
      have hnone := List.findIdx?_eq_none_iff.mp hindex
      rw [List.filter_eq_self.mpr fun entry hentry => by rw [hnone entry hentry]; rfl] at hlt
      refine ⟨?_, ?_⟩
      · rw [List.map_append, List.pairwise_append]
        refine ⟨h.pairwise, List.pairwise_singleton _ _, fun rank hr rank' hr' => ?_⟩
        obtain ⟨entry, hentry, rfl⟩ := List.mem_map.mp hr
        obtain rfl := List.mem_singleton.mp hr'
        rw [hrank, QueuedRequest.rank]
        split_ifs with hkind
        · intro hsource
          have hreplaces := hnone entry hentry
          rw [QueuedRequest.replacesAutomatic, hkind, hsource, hitem] at hreplaces
          simp at hreplaces
        · trivial
      · rw [List.length_append]
        exact hlt
  · exact insertIdx (h.sublist List.filter_sublist) hitem hlt

/-! ### Steps -/

theorem of_some (happ : some app = some app') (h : app.InOrder) : app'.InOrder :=
  Option.some.inj happ ▸ h

theorem ite_notify {b : Bool} {notice : Notice} (h : app.InOrder) :
    (if b then app.notify notice else app).InOrder := by
  split_ifs <;> exact h

theorem pausePendingPrompts (h : app.InOrder) : app.pausePendingPrompts.InOrder :=
  ite_notify (h.sublist List.filter_sublist)

theorem dispatchPromptQueues (h : app.InOrder) : (app.dispatchPromptQueues w).InOrder := by
  rw [App.dispatchPromptQueues]
  by_cases hready : (app.promptQueue.paused || !app.barriersSettled w) = true
  · rw [if_pos hready]
    exact h
  · rw [if_neg hready]
    cases hentries : app.promptQueue.entries with
    | nil => exact h
    | cons item entries =>
      dsimp only
      split_ifs
      · exact h
      · exact h.sublist (hentries ▸ List.sublist_cons_self item entries)
      · refine pausePendingPrompts (h.congr ?_)
        rw [hentries]
        exact congrArg (· :: _) (rank_mapContext (by exact fun _ => rfl) item)

theorem recallLastPendingInput (h : app.InOrder)
    (hrecall : app.recallLastPendingInput env = some app') : app'.InOrder := by
  rw [App.recallLastPendingInput] at hrecall
  split_ifs at hrecall
  · exact of_some hrecall h
  · split at hrecall
    · exact of_some hrecall h
    · split at hrecall
      · exact of_some hrecall h
      · split at hrecall
        · exact of_some hrecall h
        · obtain ⟨restored, -, hrecall⟩ := Option.bind_eq_some_iff.mp hrecall
          exact of_some hrecall (h.sublist (List.eraseIdx_sublist _ _))

theorem autofixSnapshotReady (h : app.InOrder) (requestId : ℕ)
    (result : Except (List Char) AutofixSnapshot) :
    (app.autofixSnapshotReady w requestId result).InOrder := by
  rw [App.autofixSnapshotReady]
  split
  · exact h
  · split
    · exact h
    · cases result with
      | error error => exact dispatchPromptQueues (by exact h)
      | ok snapshot =>
        dsimp only
        split_ifs with hfit
        · exact ite_notify (dispatchPromptQueues (h.insert (length_lt_of_canFit hfit)))
        · exact dispatchPromptQueues (h.insert (length_lt_of_canFit hfit))
        · exact dispatchPromptQueues (by exact h)

theorem enqueueInput {manualFix : Option (List Char)} (h : app.InOrder)
    (henqueue : app.enqueueInput w manualFix = some app') : app'.InOrder := by
  rw [App.enqueueInput] at henqueue
  split_ifs at henqueue
  · exact of_some henqueue h
  · obtain ⟨historyText, -, henqueue⟩ := Option.bind_eq_some_iff.mp henqueue
    dsimp only at henqueue
    split_ifs at henqueue with hfull
    · exact of_some henqueue h
    · obtain ⟨tab, -, henqueue⟩ := Option.bind_eq_some_iff.mp henqueue
      refine of_some henqueue (ite_notify (dispatchPromptQueues ?_))
      rw [App.admitRequest]
      split_ifs
      · exact h
      · rw [Bool.not_eq_true, Bool.not_eq_false'] at hfull
        have hlt := length_lt_of_canFit hfull
        exact h.insert (by exact hlt)

theorem step {action : Action} (h : app.InOrder)
    (hstep : app.step env action = some app') : app'.InOrder := by
  cases action with
  | edit | otherPrompt => exact of_some hstep h
  | enqueueInput w manualFix => exact h.enqueueInput hstep
  | enqueueAutofix w pane summary forced =>
    refine of_some hstep ?_
    rw [App.enqueueAutofix]
    dsimp only
    split_ifs <;> exact h
  | autofixSnapshotReady w requestId result =>
    exact of_some hstep (h.autofixSnapshotReady requestId result)
  | dispatchPromptQueues w => exact of_some hstep h.dispatchPromptQueues
  | pausePendingPrompts => exact of_some hstep h.pausePendingPrompts
  | invalidatePendingPromptSession =>
    exact of_some hstep (h.pausePendingPrompts.map fun _ => by split_ifs <;> rfl)
  | cancelPendingPrompts =>
    refine of_some hstep ?_
    rw [App.cancelPendingPrompts]
    split_ifs <;> exact ⟨.nil, Nat.zero_le _⟩
  | resumePendingInputs w =>
    refine of_some hstep ?_
    rw [App.resumePendingInputs]
    split_ifs
    · exact h
    · exact dispatchPromptQueues (by exact h)
  | invalidatePendingAutofixSource pane closed =>
    have hcaptures : (app.invalidateCaptures pane).InOrder := ite_notify (by exact h)
    refine of_some hstep ?_
    rw [App.invalidatePendingAutofixSource, App.invalidateEntries]
    dsimp only
    split_ifs
    · exact pausePendingPrompts (hcaptures.map fun _ => by split_ifs <;> rfl)
    · exact hcaptures.sublist List.filter_sublist
  | rename tabId windowId => exact of_some hstep (h.map (rank_mapContext fun _ => rfl))
  | recallLastPendingInput => exact h.recallLastPendingInput hstep

end Ordered

/-- Whatever happens to a tab where nothing is pending, its requests are in their order, within the
limit, and not in the queue twice. -/
theorem queue_ordered (env : Env) {app app' : App} (hempty : app.promptQueue.entries = [])
    (hcaptures : app.pendingAutofixCaptures = []) {actions : List Action}
    (h : app.run env actions = some app') :
    app'.InOrder ∧ (app'.promptQueue.entries.map (·.submission.id)).Nodup := by
  have hsound : app.Sound := by constructor <;> simp [App.keys, hempty, hcaptures]
  refine ⟨?_, (run_sound h hsound).nodup_entries⟩
  have hordered : app.InOrder := by
    rw [App.InOrder, hempty]
    exact ⟨.nil, Nat.zero_le _⟩
  clear hempty hcaptures hsound
  induction actions generalizing app with
  | nil => exact .of_some h hordered
  | cons action actions ih =>
    obtain ⟨mid, hstep, h⟩ := Option.bind_eq_some_iff.mp h
    exact ih h (hordered.step hstep)

/-- Two failures in one terminal, the second in place of the first. -/
theorem queue_ordered_replaced : ∃ env actions app', App.run env {} actions = some app' ∧
    app'.promptQueue.entries.map (·.displayText) = [['b']] ∧
    app'.InOrder ∧ (app'.promptQueue.entries.map (·.submission.id)).Nodup := by
  have hrun : App.run ⟨fun _ => true, fun _ => true, fun _ => none⟩ {}
      [.enqueueAutofix {} ['p'] ['a'] false, .autofixSnapshotReady {} 1 (.ok ⟨['p'], 3⟩),
        .enqueueAutofix {} ['p'] ['b'] false, .autofixSnapshotReady {} 2 (.ok ⟨['p'], 3⟩)] =
      some _ := rfl
  exact ⟨_, _, _, hrun, rfl, queue_ordered _ rfl rfl hrun⟩

end IntelligentTerminal.Editor
