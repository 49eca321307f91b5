import IntelligentTerminal.Editor.PromptQueue

/-!
# The requests of a queue

No action changes what recalling reads of a request, and none makes a second request with the id of
another. A step leaves some of the requests that it finds, and adds at most one, which takes the
next id.
-/

namespace IntelligentTerminal.Editor

/-- What recalling reads of a request. -/
structure Content where
  kind : RequestKind
  text : List Char
  displayText : List Char
  restoreText : Option (List Char)
  images : List PastedImage
  imageTokenRanges : List Range

/-- The id of a request, and what recalling reads of it. -/
def QueuedRequest.key (q : QueuedRequest) : ℕ × Content :=
  (q.submission.id, ⟨q.kind, q.submission.text, q.displayText, q.restoreText, q.submission.images,
    q.imageTokenRanges⟩)

/-- The keys of some requests. -/
def keysOf (l : List QueuedRequest) : Multiset (ℕ × Content) := (l.map (·.key) : List _)

/-- The keys of all requests that wait or are being prepared. -/
def App.keys (app : App) : Multiset (ℕ × Content) :=
  keysOf app.promptQueue.entries + keysOf app.pendingAutofixCaptures

/-- A step that adds no request. -/
structure App.Shrinks (app app' : App) : Prop where
  nextPromptId : app'.nextPromptId = app.nextPromptId
  keys : app'.keys ≤ app.keys

/-- A step adds at most one request, which takes the next id. -/
inductive Evolves (app app' : App) : Prop
  | shrinks (h : app.Shrinks app')
  | adds (c : Content) (hid : app'.nextPromptId = app.nextPromptId + 1)
      (hkeys : app'.keys ≤ (app.nextPromptId, c) ::ₘ app.keys)

/-- The ids are distinct, and smaller than the next one. -/
structure App.Sound (app : App) : Prop where
  nodup : (app.keys.map Prod.fst).Nodup
  lt : ∀ k ∈ app.keys, k.1 < app.nextPromptId

/-- The id has been given, and its request has the content. -/
structure App.Holds (id : ℕ) (c : Content) (app : App) : Prop where
  lt : id < app.nextPromptId
  eq : ∀ k ∈ app.keys, k.1 = id → k.2 = c

variable {env : Env} {w : Surroundings} {app app' app'' : App} {l l' : List QueuedRequest}
  {manualFix : Option (List Char)} {actions : List Action} {q : QueuedRequest} {c : Content}

/-! ### Keys -/

@[simp] theorem keysOf_nil : keysOf [] = 0 := rfl

@[simp] theorem keysOf_cons (q : QueuedRequest) : keysOf (q :: l) = q.key ::ₘ keysOf l := rfl

theorem keysOf_append : keysOf (l ++ l') = keysOf l + keysOf l' := by
  rw [keysOf, List.map_append]
  rfl

theorem keysOf_le (h : l.Sublist l') : keysOf l ≤ keysOf l' :=
  Multiset.coe_le.mpr (h.map _).subperm

theorem keysOf_map {f : QueuedRequest → QueuedRequest} (hf : ∀ q, (f q).key = q.key) :
    keysOf (l.map f) = keysOf l := by
  rw [keysOf, List.map_map]
  exact congrArg _ (List.map_congr_left fun q _ => hf q)

theorem mem_keysOf (h : q ∈ l) : q.key ∈ keysOf l :=
  List.mem_map_of_mem h

theorem mem_keys (h : q ∈ app.promptQueue.entries) : q.key ∈ app.keys :=
  Multiset.mem_add.mpr (.inl (mem_keysOf h))

theorem key_mapContext (f : PaneContext → PaneContext) (q : QueuedRequest) :
    (q.mapContext f).key = q.key := rfl

theorem key_requireResubmission (q : QueuedRequest) : q.requireResubmission.key = q.key := rfl

theorem keysOf_insert (queue : PromptQueue) (item : QueuedRequest) :
    keysOf (queue.insert item).entries ≤ item.key ::ₘ keysOf queue.entries := by
  rw [PromptQueue.insert]
  split_ifs with hkind
  · cases hindex : queue.entries.findIdx? item.replacesAutomatic with
    | none =>
      dsimp only
      rw [keysOf_append, add_comm]
      exact le_rfl
    | some index =>
      dsimp only
      obtain ⟨hlt, -⟩ := List.findIdx?_eq_some_iff_getElem.mp hindex
      have hperm := (List.set_perm_cons_eraseIdx hlt item).map QueuedRequest.key
      rw [keysOf, Multiset.coe_eq_coe.mpr hperm]
      exact Multiset.cons_le_cons _ (keysOf_le (List.eraseIdx_sublist _ _))
  · dsimp only
    have hperm := (List.perm_insertIdx item
      (queue.entries.filter fun entry => !item.replacesAutomatic entry)
      (List.findIdx_le_length (p := fun entry =>
        entry.kind == .automaticFix || decide (item.queuedAt < entry.queuedAt)))).map
      QueuedRequest.key
    rw [keysOf, Multiset.coe_eq_coe.mpr hperm]
    exact Multiset.cons_le_cons _ (keysOf_le List.filter_sublist)

/-! ### Steps that add nothing -/

namespace App.Shrinks

theorem refl (app : App) : app.Shrinks app := ⟨rfl, le_rfl⟩

theorem trans (h : app.Shrinks app') (h' : app'.Shrinks app'') : app.Shrinks app'' :=
  ⟨h'.1.trans h.1, h'.2.trans h.2⟩

theorem of_le (hid : app'.nextPromptId = app.nextPromptId)
    (hentries : keysOf app'.promptQueue.entries ≤ keysOf app.promptQueue.entries)
    (hcaptures : keysOf app'.pendingAutofixCaptures ≤ keysOf app.pendingAutofixCaptures) :
    app.Shrinks app' :=
  ⟨hid, add_le_add hentries hcaptures⟩

end App.Shrinks

open App

theorem notify_shrinks (app : App) (notice : Notice) : app.Shrinks (app.notify notice) :=
  ⟨rfl, le_rfl⟩

theorem ite_notify_shrinks {b : Bool} {notice : Notice} (h : app.Shrinks app') :
    app.Shrinks (if b then app'.notify notice else app') := by
  split_ifs
  · exact h.trans (notify_shrinks _ _)
  · exact h

theorem pausePendingPrompts_shrinks (app : App) : app.Shrinks app.pausePendingPrompts :=
  ite_notify_shrinks (.of_le rfl (keysOf_le List.filter_sublist) (Multiset.zero_le _))

theorem invalidatePendingPromptSession_shrinks (app : App) :
    app.Shrinks app.invalidatePendingPromptSession := by
  refine (pausePendingPrompts_shrinks app).trans (.of_le rfl (le_of_eq (keysOf_map ?_)) le_rfl)
  intro q
  split_ifs
  · exact key_requireResubmission q
  · rfl

theorem cancelPendingPrompts_shrinks (app : App) : app.Shrinks app.cancelPendingPrompts := by
  rw [cancelPendingPrompts]
  have hcancelled : app.Shrinks { app with pendingAutofixCaptures := [], promptQueue := {} } :=
    .of_le rfl (Multiset.zero_le _) (Multiset.zero_le _)
  split_ifs
  · exact hcancelled.trans (notify_shrinks _ _)
  · exact hcancelled

theorem dispatchPromptQueues_shrinks (w : Surroundings) (app : App) :
    app.Shrinks (app.dispatchPromptQueues w) := by
  rw [dispatchPromptQueues]
  by_cases hready : (app.promptQueue.paused || !app.barriersSettled w) = true
  · rw [if_pos hready]
    exact .refl app
  · rw [if_neg hready]
    cases hentries : app.promptQueue.entries with
    | nil => exact .refl app
    | cons item entries =>
      dsimp only
      split_ifs
      · exact .refl app
      · refine .of_le rfl ?_ le_rfl
        rw [hentries]
        exact Multiset.le_cons_self _ _
      · refine App.Shrinks.trans ?_ (pausePendingPrompts_shrinks _)
        refine App.Shrinks.trans ?_ (notify_shrinks _ _)
        refine .of_le rfl ?_ le_rfl
        rw [hentries]
        exact le_rfl

theorem resumePendingInputs_shrinks (w : Surroundings) (app : App) :
    app.Shrinks (app.resumePendingInputs w) := by
  rw [resumePendingInputs]
  split_ifs
  · exact notify_shrinks _ _
  · refine App.Shrinks.trans ?_ (dispatchPromptQueues_shrinks w _)
    exact ⟨rfl, le_rfl⟩

theorem notifyQueuedInput_shrinks (app : App) (requestId : ℕ) :
    app.Shrinks (app.notifyQueuedInput requestId) := by
  rw [notifyQueuedInput]
  exact ite_notify_shrinks (.refl app)

theorem invalidateCaptures_shrinks (app : App) (pane : List Char) :
    app.Shrinks (app.invalidateCaptures pane) := by
  rw [invalidateCaptures, List.partition_eq_filter_filter]
  exact ite_notify_shrinks (.of_le rfl le_rfl (keysOf_le List.filter_sublist))

theorem invalidateEntries_shrinks (app : App) (pane : List Char) (closed : Bool) :
    app.Shrinks (app.invalidateEntries pane closed) := by
  rw [invalidateEntries]
  dsimp only
  split_ifs
  · refine App.Shrinks.trans ?_ (pausePendingPrompts_shrinks _)
    refine .of_le rfl (le_of_eq (keysOf_map fun q => ?_)) le_rfl
    split_ifs
    · exact key_requireResubmission q
    · rfl
  · exact .of_le rfl (keysOf_le List.filter_sublist) le_rfl

theorem rename_shrinks (app : App) (tabId : List Char) (windowId : Option (List Char)) :
    app.Shrinks (app.rename tabId windowId) :=
  .of_le rfl (le_of_eq (keysOf_map (key_mapContext _))) (le_of_eq (keysOf_map (key_mapContext _)))

theorem recallLastPendingInput_shrinks (h : app.recallLastPendingInput env = some app') :
    app.Shrinks app' := by
  rw [recallLastPendingInput] at h
  split_ifs at h
  · obtain rfl := Option.some.inj h
    exact notify_shrinks _ _
  · split at h
    · obtain rfl := Option.some.inj h
      exact .refl _
    · split at h
      · obtain rfl := Option.some.inj h
        exact .refl _
      · split at h
        · obtain rfl := Option.some.inj h
          exact .refl _
        · obtain ⟨restored, -, h⟩ := Option.bind_eq_some_iff.mp h
          obtain rfl := Option.some.inj h
          exact .of_le rfl (keysOf_le (List.eraseIdx_sublist _ _)) le_rfl

theorem autofixSnapshotReady_shrinks (w : Surroundings) (app : App) (requestId : ℕ)
    (result : Except (List Char) AutofixSnapshot) :
    app.Shrinks (app.autofixSnapshotReady w requestId result) := by
  rw [autofixSnapshotReady]
  split
  · exact .refl _
  · split
    · exact .refl _
    · rename_i index _ _ item hitem
      obtain ⟨hlt, rfl⟩ := List.getElem?_eq_some_iff.mp hitem
      have hcaptures : keysOf app.pendingAutofixCaptures =
          (app.pendingAutofixCaptures[index]).key ::ₘ
            keysOf (app.pendingAutofixCaptures.eraseIdx index) :=
        Multiset.coe_eq_coe.mpr
          ((List.getElem_cons_eraseIdx_perm hlt).map QueuedRequest.key).symm
      have hdropped : app.Shrinks { app with
          pendingAutofixCaptures := app.pendingAutofixCaptures.eraseIdx index } :=
        .of_le rfl le_rfl (keysOf_le (List.eraseIdx_sublist _ _))
      cases result with
      | error error =>
        exact (hdropped.trans (dispatchPromptQueues_shrinks w _)).trans (notify_shrinks _ _)
      | ok snapshot =>
        have hmoved : ∀ item : QueuedRequest,
            item.key = (app.pendingAutofixCaptures[index]).key →
            app.Shrinks { app with
              pendingAutofixCaptures := app.pendingAutofixCaptures.eraseIdx index
              promptQueue := app.promptQueue.insert item } := by
          intro item hkey
          refine ⟨rfl, ?_⟩
          rw [App.keys, App.keys, hcaptures, Multiset.add_cons, ← Multiset.cons_add, ← hkey]
          exact Multiset.add_le_add_right (keysOf_insert _ _)
        dsimp only
        split_ifs
        · refine App.Shrinks.trans ?_ (notifyQueuedInput_shrinks _ _)
          refine App.Shrinks.trans ?_ (dispatchPromptQueues_shrinks w _)
          exact hmoved _ rfl
        · refine App.Shrinks.trans ?_ (dispatchPromptQueues_shrinks w _)
          exact hmoved _ rfl
        · exact (hdropped.trans (dispatchPromptQueues_shrinks w _)).trans (notify_shrinks _ _)

/-! ### Steps that add a request -/

theorem admitRequest_adds (app : App) (item : QueuedRequest) :
    (app.admitRequest item).nextPromptId = app.nextPromptId ∧
      (app.admitRequest item).keys ≤ item.key ::ₘ app.keys := by
  rw [admitRequest]
  split_ifs
  · refine ⟨rfl, ?_⟩
    rw [App.keys, App.keys, keysOf_append, keysOf_cons, keysOf_nil, Multiset.cons_zero,
      Multiset.add_comm (keysOf app.pendingAutofixCaptures), Multiset.singleton_add,
      Multiset.add_cons]
  · refine ⟨rfl, ?_⟩
    rw [App.keys, App.keys, ← Multiset.cons_add]
    exact Multiset.add_le_add_right (keysOf_insert _ _)

theorem enqueueAutofix_evolves (w : Surroundings) (app : App) (pane summary : List Char)
    (forced : Bool) : Evolves app (app.enqueueAutofix w pane summary forced) := by
  rw [enqueueAutofix]
  dsimp only
  split_ifs
  · exact .shrinks (.refl app)
  · exact .shrinks (notify_shrinks _ _)
  · exact .adds (app.autofixRequest w pane summary forced).key.2 rfl (Multiset.le_cons_self _ _)
  · refine .adds (app.autofixRequest w pane summary forced).key.2 rfl ?_
    rw [App.keys, App.keys, keysOf_append, keysOf_cons, keysOf_nil, Multiset.cons_zero,
      Multiset.add_comm (keysOf (List.filter _ _)), Multiset.singleton_add, Multiset.add_cons]
    exact Multiset.cons_le_cons _ (Multiset.add_le_add_left (keysOf_le List.filter_sublist))

theorem enqueueInput_key (hconnected : w.connected = true)
    (h : app.enqueueInput w manualFix = some app') :
    ∃ historyText, app'.nextPromptId = app.nextPromptId + 1 ∧
      app'.keys ≤ (withImages (app.inputRequest w manualFix historyText)
        (app.tab.attachments.images.map (·.image))).key ::ₘ app.keys := by
  rw [enqueueInput, if_neg (by simp [hconnected])] at h
  obtain ⟨historyText, -, h⟩ := Option.bind_eq_some_iff.mp h
  refine ⟨historyText, ?_⟩
  dsimp only at h
  split_ifs at h
  · obtain rfl := Option.some.inj h
    exact ⟨rfl, Multiset.le_cons_self _ _⟩
  · obtain ⟨tab, -, h⟩ := Option.bind_eq_some_iff.mp h
    obtain rfl := Option.some.inj h
    have hrest (admitted : App) (requestId : ℕ) : admitted.Shrinks
        ((admitted.dispatchPromptQueues w).notifyQueuedInput requestId) :=
      (dispatchPromptQueues_shrinks w _).trans (notifyQueuedInput_shrinks _ _)
    exact ⟨(hrest _ _).nextPromptId.trans (admitRequest_adds _ _).1,
      (hrest _ _).keys.trans (admitRequest_adds _ _).2⟩

theorem enqueueInput_evolves
    (h : app.enqueueInput w manualFix = some app') : Evolves app app' := by
  by_cases hconnected : w.connected = true
  · obtain ⟨historyText, hid, hkeys⟩ := enqueueInput_key hconnected h
    exact .adds _ hid hkeys
  · rw [enqueueInput, if_pos (by simp [hconnected])] at h
    obtain rfl := Option.some.inj h
    exact .shrinks (notify_shrinks _ _)

theorem step_evolves {action : Action} (h : app.step env action = some app') :
    Evolves app app' := by
  cases action with
  | edit tab =>
    obtain rfl := Option.some.inj h
    exact .shrinks ⟨rfl, le_rfl⟩
  | otherPrompt =>
    obtain rfl := Option.some.inj h
    exact .adds ⟨.prompt, [], [], none, [], []⟩ rfl (Multiset.le_cons_self _ _)
  | enqueueInput w manualFix => exact enqueueInput_evolves h
  | enqueueAutofix w pane summary forced =>
    obtain rfl := Option.some.inj h
    exact enqueueAutofix_evolves w app pane summary forced
  | autofixSnapshotReady w requestId result =>
    obtain rfl := Option.some.inj h
    exact .shrinks (autofixSnapshotReady_shrinks w app requestId result)
  | dispatchPromptQueues w =>
    obtain rfl := Option.some.inj h
    exact .shrinks (dispatchPromptQueues_shrinks w app)
  | pausePendingPrompts =>
    obtain rfl := Option.some.inj h
    exact .shrinks (pausePendingPrompts_shrinks app)
  | invalidatePendingPromptSession =>
    obtain rfl := Option.some.inj h
    exact .shrinks (invalidatePendingPromptSession_shrinks app)
  | cancelPendingPrompts =>
    obtain rfl := Option.some.inj h
    exact .shrinks (cancelPendingPrompts_shrinks app)
  | resumePendingInputs w =>
    obtain rfl := Option.some.inj h
    exact .shrinks (resumePendingInputs_shrinks w app)
  | invalidatePendingAutofixSource pane closed =>
    obtain rfl := Option.some.inj h
    exact .shrinks ((invalidateCaptures_shrinks app pane).trans
      (invalidateEntries_shrinks _ pane closed))
  | rename tabId windowId =>
    obtain rfl := Option.some.inj h
    exact .shrinks (rename_shrinks app tabId windowId)
  | recallLastPendingInput => exact .shrinks (recallLastPendingInput_shrinks h)

/-! ### What a step keeps -/

theorem App.Sound.nodup_entries (h : app.Sound) :
    (app.promptQueue.entries.map (·.submission.id)).Nodup := by
  have hle : keysOf app.promptQueue.entries ≤ app.keys := Multiset.le_add_right _ _
  have hnodup := Multiset.nodup_of_le (Multiset.map_le_map hle) h.nodup
  rw [keysOf, Multiset.map_coe, Multiset.coe_nodup, List.map_map] at hnodup
  exact hnodup

theorem Evolves.sound (h : Evolves app app') (hsound : app.Sound) : app'.Sound := by
  cases h with
  | shrinks h =>
    refine ⟨Multiset.nodup_of_le (Multiset.map_le_map h.keys) hsound.nodup, fun k hk => ?_⟩
    rw [h.nextPromptId]
    exact hsound.lt k (Multiset.mem_of_le h.keys hk)
  | adds c hid hkeys =>
    refine ⟨Multiset.nodup_of_le (Multiset.map_le_map hkeys) ?_, fun k hk => ?_⟩
    · rw [Multiset.map_cons, Multiset.nodup_cons]
      refine ⟨fun hmem => ?_, hsound.nodup⟩
      obtain ⟨k, hk, hkid⟩ := Multiset.mem_map.mp hmem
      exact absurd hkid (hsound.lt k hk).ne
    · rw [hid]
      obtain rfl | hk := Multiset.mem_cons.mp (Multiset.mem_of_le hkeys hk)
      · exact Nat.lt_succ_self _
      · exact (hsound.lt k hk).trans (Nat.lt_succ_self _)

theorem Evolves.holds (h : Evolves app app') {id : ℕ} (hholds : app.Holds id c) :
    app'.Holds id c := by
  cases h with
  | shrinks h =>
    exact ⟨hholds.lt.trans_eq h.nextPromptId.symm, fun k hk =>
      hholds.eq k (Multiset.mem_of_le h.keys hk)⟩
  | adds c' hid hkeys =>
    refine ⟨hid ▸ hholds.lt.trans (Nat.lt_succ_self _), fun k hk hkid => ?_⟩
    obtain rfl | hk := Multiset.mem_cons.mp (Multiset.mem_of_le hkeys hk)
    · exact absurd hkid hholds.lt.ne'
    · exact hholds.eq k hk hkid

theorem run_sound (h : app.run env actions = some app')
    (hsound : app.Sound) : app'.Sound := by
  induction actions generalizing app with
  | nil =>
    obtain rfl := Option.some.inj h
    exact hsound
  | cons action actions ih =>
    obtain ⟨mid, hstep, h⟩ := Option.bind_eq_some_iff.mp h
    exact ih h ((step_evolves hstep).sound hsound)

theorem run_holds (h : app.run env actions = some app') {id : ℕ} (hholds : app.Holds id c) :
    app'.Holds id c := by
  induction actions generalizing app with
  | nil =>
    obtain rfl := Option.some.inj h
    exact hholds
  | cons action actions ih =>
    obtain ⟨mid, hstep, h⟩ := Option.bind_eq_some_iff.mp h
    exact ih h ((step_evolves hstep).holds hholds)

end IntelligentTerminal.Editor
