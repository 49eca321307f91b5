import IntelligentTerminal.Wta.RetirementRuns

/-!
# Joined, claimed once and bounded

What holds of a retirement coordinator after any sequence of calls, and of the calls after it.
-/

namespace IntelligentTerminal.Wta

namespace RetirementCoordinator

variable {c : RetirementCoordinator} {id : String} {o : Operation} {request : String}
  {scopeAll : Bool}

/-- The coordinator that a run reaches. -/
abbrev run (c : RetirementCoordinator) (ops : List RetirementOp) : RetirementCoordinator :=
  ops.foldl RetirementOp.step c

/-- How often a run registers for an operation. -/
def registrations (id : String) : RetirementCoordinator → List RetirementOp → ℕ
  | _, [] => 0
  | c, op :: ops =>
    (if op.registered c = some id then 1 else 0) + registrations id (op.step c) ops

/-- How often a run releases a continuation of an operation. -/
def releases (id : String) (ops : List RetirementOp) : ℕ := ops.countP (·.released = some id)

/-- What holds after a run of a new coordinator. -/
structure Transactional (c : RetirementCoordinator) (ops : List RetirementOp) : Prop where
  /-- A registration with the request of an earlier one joins its operation, if it still exists. -/
  joined : ∀ pre request mid, ops = pre ++ RetirementOp.register true request :: mid →
    request ≠ "" → ∀ o,
      (c.run ops).operations.lookup ((c.run pre).register true request).2.operationId = some o →
      ((c.run ops).register true request).2 = {
        operationId := ((c.run pre).register true request).2.operationId
        shouldPublish := false
        alreadyCompleted := o.completed }
  /-- Only the registration that makes an operation publishes it. -/
  published : ∀ scopeAll request, ((c.run ops).register scopeAll request).2.shouldPublish = true ↔
    (c.run ops).operations.lookup ((c.run ops).register scopeAll request).2.operationId = none
  /-- A request names the operation that carries it. -/
  byRequest : ∀ request id, (c.run ops).allOperationsByRequest.lookup request = some id ↔
    ∃ o, (c.run ops).operations.lookup id = some o ∧ o.requestId = some request
  /-- An operation with a continuation outstanding exists, unless it expired. -/
  outstanding : ∀ id, (∀ op ∈ ops, op ≠ .expire id) → releases id ops < registrations id c ops →
    ∃ o, (c.run ops).operations.lookup id = some o ∧
      registrations id c ops ≤ o.continuationCount + releases id ops
  /-- The count of an operation is that of the outstanding continuations, when none is released
  that was not registered. -/
  counted : ∀ id, (∀ pre, pre <+: ops → releases id pre ≤ registrations id c pre) →
    ∀ o, (c.run ops).operations.lookup id = some o →
      o.continuationCount + releases id ops = registrations id c ops
  /-- What exists is not finished, or may be joined. -/
  live : ∀ id o, (c.run ops).operations.lookup id = some o →
    o.completed = false ∨ o.expireAfterContinuations = true → 0 < o.continuationCount
  /-- The history has no duplicates, is bounded, and is the finished operations that exist. -/
  history : (c.run ops).completedOperations.Nodup ∧
    (c.run ops).completedOperations.length ≤ completedHistoryLimit ∧
    ∀ id o, (c.run ops).operations.lookup id = some o →
      ((id ∈ (c.run ops).completedOperations ↔ o.recordedInHistory = true) ∧
        (o.recordedInHistory = true ↔ o.completed = true ∧ o.continuationCount = 0))
  /-- An action of an operation is claimed once. -/
  claimed : ∀ pre id action mid, ops = pre ++ RetirementOp.claimAction id action :: mid →
    ((c.run pre).claimAction id action).2 = true → ((c.run ops).claimAction id action).2 = false

/-! ### Runs -/

theorem run_cons (c : RetirementCoordinator) (op : RetirementOp) (ops : List RetirementOp) :
    c.run (op :: ops) = (op.step c).run ops := rfl

theorem run_append (c : RetirementCoordinator) (pre mid : List RetirementOp) :
    c.run (pre ++ mid) = (c.run pre).run mid := List.foldl_append

theorem Sound.run (h : Sound c) (ops : List RetirementOp) : Sound (c.run ops) := by
  induction ops generalizing c with
  | nil => exact h
  | cons op ops ih => exact ih (h.step op)

theorem Sound.step_issued (h : Sound c) (hissued : c.Issued id) (op : RetirementOp) :
    (op.step c).Issued id := by
  cases op with
  | createRequestId => exact hissued.mono rfl (Nat.le_succ _)
  | register scopeAll request =>
    rw [RetirementOp.step, RetirementCoordinator.register]
    cases c.joinedOperation scopeAll request with
    | none => exact hissued.mono rfl (Nat.le_succ _)
    | some found => exact hissued.mono rfl (Nat.le_refl _)
  | complete k expires =>
    cases hk : c.operations.lookup k with
    | none => rwa [RetirementOp.step, RetirementCoordinator.complete, hk]
    | some p =>
      have htrims := (h.complete hk expires).2
      exact hissued.mono htrims.processId htrims.nextOperationId.ge
  | releaseContinuation k =>
    cases hk : c.operations.lookup k with
    | none => rwa [RetirementOp.step, RetirementCoordinator.releaseContinuation, hk]
    | some p =>
      have htrims := (h.release hk).2
      exact hissued.mono htrims.processId htrims.nextOperationId.ge
  | expire k =>
    obtain ⟨hprocess, hnext, -⟩ := eraseLocked_fields c k
    exact hissued.mono hprocess hnext.ge
  | claimAction k action =>
    cases hk : c.operations.lookup k with
    | none => rwa [RetirementOp.step, RetirementCoordinator.claimAction, hk]
    | some p =>
      rw [RetirementOp.step, claimAction_eq hk]
      exact hissued

theorem Sound.issued_of_lookup (h : Sound c) (hid : c.operations.lookup id = some o) :
    c.Issued id :=
  h.issued id (.inl (by rw [hid]; rfl))

theorem Sound.gone_run (h : Sound c) (hissued : c.Issued id)
    (hid : c.operations.lookup id = none) (ops : List RetirementOp) :
    (c.run ops).operations.lookup id = none := by
  induction ops generalizing c with
  | nil => exact hid
  | cons op ops ih =>
    refine ih (h.step op) (h.step_issued hissued op) ?_
    rcases h.step_none hid op with ⟨hnone, -⟩ | ⟨hnew, -⟩
    · exact hnone
    · exact absurd hissued hnew

theorem Sound.follows_run (h : Sound c) (hid : c.operations.lookup id = some o)
    (ops : List RetirementOp) :
    (∃ q, (c.run ops).operations.lookup id = some q ∧ Follows o q) ∨
      (c.run ops).operations.lookup id = none := by
  induction ops generalizing c o with
  | nil => exact .inl ⟨o, hid, Follows.refl o⟩
  | cons op ops ih =>
    have hissued := h.step_issued (h.issued_of_lookup hid) op
    rcases h.step_some hid op with (⟨q, hq, -, hfollows⟩ | ⟨hnone, -⟩) | ⟨-, hnone⟩
    · rcases ih (h.step op) hq with ⟨q', hq', hfollows'⟩ | hnone
      · exact .inl ⟨q', hq', hfollows.trans hfollows'⟩
      · exact .inr hnone
    · exact .inr ((h.step op).gone_run hissued hnone ops)
    · exact .inr ((h.step op).gone_run hissued hnone ops)

/-! ### Registrations and claims -/

theorem register_joined
    (hjoined : c.joinedOperation scopeAll request = some (id, o)) :
    c.register scopeAll request = (c.join id o, {
      operationId := id, shouldPublish := false, alreadyCompleted := o.completed }) := by
  rw [RetirementCoordinator.register, hjoined]

theorem register_created
    (hjoined : c.joinedOperation scopeAll request = none) :
    c.register scopeAll request = ((c.create scopeAll request).1, {
      operationId := c.nextId, shouldPublish := true, alreadyCompleted := false }) := by
  rw [RetirementCoordinator.register, hjoined]
  rfl

theorem Sound.published (h : Sound c) (scopeAll : Bool) (request : String) :
    (c.register scopeAll request).2.shouldPublish = true ↔
      c.operations.lookup (c.register scopeAll request).2.operationId = none := by
  cases hjoined : c.joinedOperation scopeAll request with
  | none =>
    rw [register_created hjoined]
    exact iff_of_true rfl h.lookup_nextId
  | some found =>
    obtain ⟨k, p⟩ := found
    obtain ⟨-, hk, -⟩ := h.joinedOperation_eq_some.mp hjoined
    rw [register_joined hjoined]
    simp only [hk]
    exact iff_of_false nofun nofun

theorem Sound.carries_register (h : Sound c) (hne : request ≠ "") :
    ∃ o, (c.register true request).1.operations.lookup
      (c.register true request).2.operationId = some o ∧ o.requestId = some request := by
  have hscope : (true && request ≠ "") = true := by simpa using hne
  cases hjoined : c.joinedOperation true request with
  | none =>
    rw [register_created hjoined]
    refine ⟨_, (lookup_create c _ _ _).trans (if_pos rfl), ?_⟩
    exact if_pos hscope
  | some found =>
    obtain ⟨k, p⟩ := found
    obtain ⟨-, -, hrequest⟩ := h.joinedOperation_eq_some.mp hjoined
    rw [register_joined hjoined]
    exact ⟨_, (lookup_join c _ _ _).trans (if_pos rfl), hrequest⟩

theorem Sound.joins (h : Sound c) (hne : request ≠ "")
    (mid : List RetirementOp)
    (ho : (c.run (.register true request :: mid)).operations.lookup
      (c.register true request).2.operationId = some o) :
    ((c.run (.register true request :: mid)).register true request).2 = {
      operationId := (c.register true request).2.operationId
      shouldPublish := false
      alreadyCompleted := o.completed } := by
  obtain ⟨p, hp, hrequest⟩ := h.carries_register hne
  have hrun := h.run (.register true request :: mid)
  rcases (h.step (.register true request)).follows_run hp mid with ⟨q, hq, hfollows⟩ | hnone
  · rw [run_cons] at ho hrun ⊢
    rw [ho] at hq
    cases hq
    rw [register_joined (hrun.joinedOperation_eq_some.mpr
      ⟨⟨rfl, hne⟩, ho, hfollows.requestId.trans hrequest⟩)]
  · rw [run_cons, hnone] at ho
    cases ho

theorem Sound.claimed (h : Sound c) {action : String} (mid : List RetirementOp)
    (hclaimed : (c.claimAction id action).2 = true) :
    ((c.run (.claimAction id action :: mid)).claimAction id action).2 = false := by
  cases hid : c.operations.lookup id with
  | none =>
    rw [RetirementCoordinator.claimAction, hid] at hclaimed
    cases hclaimed
  | some o =>
    have hafter : (RetirementOp.step c (.claimAction id action)).operations.lookup id =
        some { o with claimedActions := insert action o.claimedActions } := by
      rw [RetirementOp.step, claimAction_eq hid, lookup_put, if_pos rfl]
    rw [run_cons]
    rcases (h.step (.claimAction id action)).follows_run hafter mid with ⟨q, hq, hfollows⟩ | hnone
    · have hmem := hfollows.claimedActions (Finset.mem_insert_self action o.claimedActions)
      rw [claimAction_eq hq]
      exact decide_eq_false (not_not.mpr hmem)
    · rw [RetirementCoordinator.claimAction, hnone]

/-! ### Counting continuations -/

theorem registrations_concat (c : RetirementCoordinator) (ops : List RetirementOp)
    (op : RetirementOp) (id : String) :
    registrations id c (ops ++ [op]) =
      registrations id c ops + if op.registered (c.run ops) = some id then 1 else 0 := by
  induction ops generalizing c with
  | nil => exact (Nat.add_comm _ _ : _)
  | cons op' ops ih =>
    rw [List.cons_append, registrations, registrations, ih, run_cons, Nat.add_assoc]

theorem releases_concat (ops : List RetirementOp) (op : RetirementOp) (id : String) :
    releases id (ops ++ [op]) = releases id ops + if op.released = some id then 1 else 0 := by
  simp [releases, List.countP_append, List.countP_singleton]

theorem run_concat (c : RetirementCoordinator) (ops : List RetirementOp) (op : RetirementOp) :
    c.run (ops ++ [op]) = op.step (c.run ops) := List.foldl_concat _ _ _ _

theorem released_of_registered {op : RetirementOp} {k : String}
    (h : op.registered c = some id) : op.released ≠ some k := by
  cases op with
  | register => exact nofun
  | _ => cases h

theorem run_outstanding (h : Sound c) (hid : c.operations.lookup id = none)
    (ops : List RetirementOp) (hexpire : ∀ op ∈ ops, op ≠ .expire id) :
    (∀ o, (c.run ops).operations.lookup id = some o →
      registrations id c ops ≤ o.continuationCount + releases id ops) ∧
    ((c.run ops).operations.lookup id = none →
      registrations id c ops ≤ releases id ops ∧
        ((c.run ops).Issued id ∨ registrations id c ops = 0)) := by
  induction ops using List.reverseRecOn with
  | nil =>
    refine ⟨fun o ho => ?_, fun _ => ⟨Nat.le_refl _, .inr rfl⟩⟩
    rw [show c.run [] = c from rfl, hid] at ho
    cases ho
  | append_singleton ops op ih =>
    obtain ⟨hsome, hnone⟩ := ih fun op' hop' => hexpire op' (List.mem_append_left _ hop')
    have hop : op ≠ .expire id := hexpire op (by simp)
    have hrun := h.run ops
    rw [run_concat, registrations_concat, releases_concat]
    cases hlookup : (c.run ops).operations.lookup id with
    | none =>
      obtain ⟨hle, hissued⟩ := hnone hlookup
      rcases hrun.step_none hlookup op with ⟨hgone, hnot⟩ | ⟨hfresh, hregistered, q, hq, hcount⟩
      · rw [if_neg hnot]
        refine ⟨fun o ho => (nomatch hgone.symm.trans ho), fun _ => ⟨by omega, ?_⟩⟩
        exact hissued.imp_left fun hissued => hrun.step_issued hissued op
      · rw [if_pos hregistered]
        refine ⟨fun o ho => ?_, fun hgone => nomatch hgone.symm.trans hq⟩
        rw [hq] at ho
        cases ho
        have hzero := hissued.resolve_left hfresh
        omega
    | some o =>
      have hle := hsome o hlookup
      have hissued := hrun.step_issued (hrun.issued_of_lookup hlookup) op
      rcases hrun.step_some hlookup op with (⟨q, hq, hcount, -⟩ | ⟨hgone, hcount⟩) | ⟨heq, -⟩
      · rw [countAfter] at hcount
        refine ⟨fun p hp => ?_, fun hgone => nomatch hgone.symm.trans hq⟩
        rw [hq] at hp
        cases hp
        omega
      · rw [countAfter] at hcount
        refine ⟨fun p hp => (nomatch hgone.symm.trans hp), fun _ => ⟨by omega, .inl hissued⟩⟩
      · exact absurd heq hop

theorem run_counted (h : Sound c) (hid : c.operations.lookup id = none)
    (ops : List RetirementOp)
    (hmatched : ∀ pre, pre <+: ops → releases id pre ≤ registrations id c pre) :
    (∀ o, (c.run ops).operations.lookup id = some o →
      o.continuationCount + releases id ops = registrations id c ops) ∧
    ((c.run ops).operations.lookup id = none →
      (c.run ops).Issued id ∨ registrations id c ops = 0) := by
  induction ops using List.reverseRecOn with
  | nil =>
    refine ⟨fun o ho => ?_, fun _ => .inr rfl⟩
    rw [show c.run [] = c from rfl, hid] at ho
    cases ho
  | append_singleton ops op ih =>
    obtain ⟨hsome, hnone⟩ := ih fun pre hpre => hmatched pre (hpre.trans (List.prefix_append _ _))
    have hle := hmatched ops (List.prefix_append _ _)
    have hle' := hmatched _ (List.prefix_refl _)
    have hrun := h.run ops
    rw [registrations_concat, releases_concat] at hle'
    rw [run_concat, registrations_concat, releases_concat]
    cases hlookup : (c.run ops).operations.lookup id with
    | none =>
      rcases hrun.step_none hlookup op with ⟨hgone, hnot⟩ | ⟨hfresh, hregistered, q, hq, hcount⟩
      · rw [if_neg hnot]
        refine ⟨fun o ho => (nomatch hgone.symm.trans ho), fun _ => ?_⟩
        exact (hnone hlookup).imp_left fun hissued => hrun.step_issued hissued op
      · rw [if_pos hregistered, if_neg (released_of_registered hregistered)]
        refine ⟨fun o ho => ?_, fun hgone => nomatch hgone.symm.trans hq⟩
        rw [hq] at ho
        cases ho
        have hzero := (hnone hlookup).resolve_left hfresh
        omega
    | some o =>
      have heq := hsome o hlookup
      have hissued := hrun.step_issued (hrun.issued_of_lookup hlookup) op
      rcases hrun.step_some hlookup op with (⟨q, hq, hcount, -⟩ | ⟨hgone, -⟩) | ⟨-, hgone⟩
      · rw [countAfter] at hcount
        refine ⟨fun p hp => ?_, fun hgone => nomatch hgone.symm.trans hq⟩
        rw [hq] at hp
        cases hp
        omega
      · exact ⟨fun p hp => (nomatch hgone.symm.trans hp), fun _ => .inl hissued⟩
      · exact ⟨fun p hp => (nomatch hgone.symm.trans hp), fun _ => .inl hissued⟩

end RetirementCoordinator

open RetirementCoordinator

/-- Retirement transactions are joined, claimed once and bounded. -/
theorem retirement_transactional (processId : ℕ) (ops : List RetirementOp) :
    Transactional { processId } ops where
  joined pre request mid heq hne o ho := by
    subst heq
    have hpre := (sound_init processId).run pre
    rw [run_append] at ho ⊢
    exact hpre.joins hne mid ho
  published := ((sound_init processId).run ops).published
  byRequest := ((sound_init processId).run ops).byRequest
  outstanding id hexpire hlt := by
    obtain ⟨hsome, hnone⟩ := run_outstanding (sound_init processId) rfl ops hexpire
    cases hid : (run { processId } ops).operations.lookup id with
    | none => exact absurd (hnone hid).1 (Nat.not_le_of_lt hlt)
    | some o => exact ⟨o, rfl, hsome o hid⟩
  counted id hmatched o ho :=
    (run_counted (sound_init processId) rfl ops hmatched).1 o ho
  live id o ho := (((sound_init processId).run ops).settled id o ho).live
  history := by
    have hrun := (sound_init processId).run ops
    exact ⟨hrun.nodup, hrun.bounded, fun id o ho =>
      ⟨hrun.history id o ho, (hrun.settled id o ho).recorded⟩⟩
  claimed pre id action mid heq hclaimed := by
    subst heq
    have hpre := (sound_init processId).run pre
    rw [run_append]
    exact hpre.claimed mid hclaimed

end IntelligentTerminal.Wta
