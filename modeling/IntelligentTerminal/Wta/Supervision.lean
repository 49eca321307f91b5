import IntelligentTerminal.Wta.SharedWta
import Mathlib.Data.List.Infix
import Mathlib.Tactic.SplitIfs

/-!
# Supervision of the shared master process

A master is published as a whole or not at all. The recovery policy is armed only by an explicit
spawn, for the generation that is registered, and an exit takes the arming away. So an exit is
answered by a spawn at most once until the next explicit spawn.

Source: `src/cascadia/TerminalApp/SharedWta.cpp`, lines 452-608 and 725-1267.
-/

namespace IntelligentTerminal.Wta

/-! ### Automatic spawns -/

/-- The attempt published a master and is not automatic. -/
def SpawnAttempt.explicit (a : SpawnAttempt) : Bool := !a.automatic && a.published

/-- The automatic spawns since the last explicit one, in a history whose last spawn comes first. -/
def automaticSince (spawns : List SpawnAttempt) : ℕ :=
  (spawns.takeWhile fun a => !a.explicit).countP SpawnAttempt.automatic

theorem isPrefix_takeWhile {l spawns : List SpawnAttempt} (hpre : l <+: spawns)
    (hl : ∀ a ∈ l, a.explicit = false) : l <+: spawns.takeWhile fun a => !a.explicit := by
  induction l generalizing spawns with
  | nil => exact List.nil_prefix
  | cons a l ih =>
    obtain ⟨rest, rfl⟩ := hpre
    have ha : (!a.explicit) = true := by rw [hl a List.mem_cons_self]; rfl
    rw [List.cons_append,
      List.takeWhile_cons_of_pos (p := fun a => !SpawnAttempt.explicit a) ha]
    exact List.cons_prefix_cons.mpr
      ⟨rfl, ih (List.prefix_append l rest) fun b hb => hl b (List.mem_cons_of_mem a hb)⟩

/-- Between two explicit spawns of a history there is at most one automatic one. -/
def AtMostOne (spawns : List SpawnAttempt) : Prop :=
  ∀ l, l <:+: spawns → (∀ a ∈ l, a.explicit = false) → l.countP SpawnAttempt.automatic ≤ 1

theorem AtMostOne.cons {spawns : List SpawnAttempt} (h : AtMostOne spawns) {a : SpawnAttempt}
    (ha : automaticSince (a :: spawns) ≤ 1) : AtMostOne (a :: spawns) := by
  intro l hl hnone
  rcases List.infix_cons_iff.mp hl with hprefix | hinfix
  · exact ((isPrefix_takeWhile hprefix hnone).sublist.countP_le).trans ha
  · exact h l hinfix hnone

namespace ProcessWaitGenerationTracker

theorem reserved_ne_zero (t : ProcessWaitGenerationTracker) : t.reserved ≠ 0 := by
  rw [reserved]
  split_ifs with h
  · decide
  · exact h

end ProcessWaitGenerationTracker

namespace SharedWta

variable {s : SharedWta} {inputs : SpawnInputs} {arm : Bool} {outcome : SpawnOutcome}

/-! ### What a spawn does -/

theorem spawnLocked_cases (s : SharedWta) (inputs : SpawnInputs) (arm : Bool)
    (outcome : SpawnOutcome) :
    (∃ masterPipeName waitGeneration,
      s.spawnLocked inputs arm outcome = ({ s with
        masterPipeName, waitGeneration, spawns := ⟨!arm, false⟩ :: s.spawns }, false) ∧
      (waitGeneration.currentGeneration = 0 ∨
        waitGeneration.currentGeneration = s.waitGeneration.currentGeneration)) ∨
    ∃ masterPipeName process job shutdownEvent pid masterGeneration waitHandle waitGeneration
      armedGeneration,
      s.spawnLocked inputs arm outcome = ({ s with
        masterPipeName
        process := some process
        job := some job
        shutdownEvent := some shutdownEvent
        serviceRequested := true
        pid
        masterGeneration
        waitHandle
        waitGeneration
        unexpectedExitRecovery := ⟨armedGeneration⟩
        cached := inputs
        spawns := ⟨!arm, true⟩ :: s.spawns }, true) ∧
      pid ≠ 0 ∧ masterGeneration ≠ 0 ∧
      (armedGeneration ≠ 0 → arm = true ∧ armedGeneration = waitGeneration.currentGeneration) := by
  rw [spawnLocked]
  cases hpipe : s.masterPipeName.or outcome.pipeName with
  | none => exact .inl ⟨s.masterPipeName, s.waitGeneration, rfl, .inr rfl⟩
  | some pipeName =>
    simp only [publish]
    split
    · next shutdownEvent process pid job hevent henvironment hprocess hjob =>
      have hreserved := s.waitGeneration.reserved_ne_zero
      have hregister : (s.waitGeneration.reserve.register pid s.waitGeneration.reserved) =
          ({ s.waitGeneration.reserve with
            currentGeneration := s.waitGeneration.reserved, pid := pid },
            s.waitGeneration.reserved) := by
        rw [ProcessWaitGenerationTracker.register, if_neg]
        rintro (hzero | hne)
        · exact hreserved hzero
        · exact hne rfl
      rw [hregister]
      cases hresumed : outcome.resumed with
      | false => exact .inl ⟨_, _, rfl, .inl rfl⟩
      | true =>
        refine .inr ⟨_, _, _, _, _, _, _, _, _, rfl, pid.2, hreserved, ?_⟩
        cases outcome.waitHandle with
        | none => exact fun hne => absurd rfl hne
        | some waitHandle =>
          cases arm with
          | false => exact fun hne => absurd rfl hne
          | true => exact fun _ => ⟨rfl, rfl⟩
    · exact .inl ⟨_, _, rfl, .inr rfl⟩

theorem eq_of_spawnLocked_eq_false (h : (s.spawnLocked inputs arm outcome).2 = false) :
    let s' := (s.spawnLocked inputs arm outcome).1
    s'.process = s.process ∧ s'.job = s.job ∧ s'.shutdownEvent = s.shutdownEvent ∧
      s'.pid = s.pid ∧ s'.masterGeneration = s.masterGeneration ∧ s'.waitHandle = s.waitHandle ∧
      s'.cached = s.cached ∧ s'.unexpectedExitRecovery = s.unexpectedExitRecovery := by
  rcases s.spawnLocked_cases inputs arm outcome with
    ⟨_, _, heq, -⟩ | ⟨_, _, _, _, _, _, _, _, _, heq, -⟩
  · rw [heq]
    exact ⟨rfl, rfl, rfl, rfl, rfl, rfl, rfl, rfl⟩
  · rw [heq] at h
    cases h

/-! ### The invariant -/

/-- The process, the job, the event, the process id and the generation of the master are there
together or not at all. -/
def Together (s : SharedWta) : Prop :=
  (s.process.isSome ∧ s.job.isSome ∧ s.shutdownEvent.isSome ∧ s.pid ≠ 0 ∧
      s.masterGeneration ≠ 0) ∨
    s.process = none ∧ s.job = none ∧ s.shutdownEvent = none ∧ s.pid = 0 ∧ s.masterGeneration = 0

/-- What holds of a service in every run. -/
structure Coherent (s : SharedWta) : Prop where
  together : s.Together
  /-- Only the exit of a published master is waited for. -/
  registered : s.waitGeneration.currentGeneration ≠ 0 → s.process ≠ none
  /-- The recovery is armed for the exit that is waited for. -/
  armed : s.unexpectedExitRecovery.armedGeneration ≠ 0 →
    s.unexpectedExitRecovery.armedGeneration = s.waitGeneration.currentGeneration
  /-- While it is armed it was not used. -/
  unused : s.unexpectedExitRecovery.armedGeneration ≠ 0 → automaticSince s.spawns = 0
  since : automaticSince s.spawns ≤ 1
  atMostOne : AtMostOne s.spawns

theorem coherent_initial : Coherent {} where
  together := .inr ⟨rfl, rfl, rfl, rfl, rfl⟩
  registered h := absurd rfl h
  armed h := absurd rfl h
  unused h := absurd rfl h
  since := Nat.zero_le 1
  atMostOne := by
    intro l hl _
    rw [List.infix_nil.mp hl]
    exact Nat.zero_le 1

theorem Coherent.armedGeneration_eq_zero (h : s.Coherent) (hnone : s.process = none) :
    s.unexpectedExitRecovery.armedGeneration = 0 := by
  by_contra harmed
  exact h.registered (h.armed harmed ▸ harmed) hnone

theorem Coherent.spawnLocked (h : s.Coherent) (hnone : s.process = none) (inputs : SpawnInputs)
    (arm : Bool) (outcome : SpawnOutcome) (harm : arm = false → automaticSince s.spawns = 0) :
    (s.spawnLocked inputs arm outcome).1.Coherent := by
  have hdisarmed := h.armedGeneration_eq_zero hnone
  have hunregistered : s.waitGeneration.currentGeneration = 0 := by
    by_contra hne
    exact h.registered hne hnone
  have hsince : ∀ published, automaticSince (⟨!arm, published⟩ :: s.spawns) ≤ 1 := by
    intro published
    rw [automaticSince, List.takeWhile_cons]
    split_ifs with hexplicit
    · rw [List.countP_cons]
      cases arm with
      | true => exact h.since
      | false => exact (congrArg (· + 1) (harm rfl)).le
    · exact Nat.zero_le 1
  rcases s.spawnLocked_cases inputs arm outcome with
    ⟨_, waitGeneration, heq, hcurrent⟩ |
    ⟨_, _, _, _, _, _, _, waitGeneration, _, heq, hpid, hgeneration, harmed⟩
  · have hcurrent' : waitGeneration.currentGeneration = 0 := by
      rcases hcurrent with hzero | hsame
      · exact hzero
      · exact hsame.trans hunregistered
    rw [heq]
    exact ⟨h.together, fun hne => absurd hcurrent' hne, fun hne => absurd hdisarmed hne,
      fun hne => absurd hdisarmed hne, hsince false, h.atMostOne.cons (hsince false)⟩
  · rw [heq]
    refine ⟨.inl ⟨rfl, rfl, rfl, hpid, hgeneration⟩, fun _ => Option.some_ne_none _,
      fun hne => (harmed hne).2, fun hne => ?_, hsince true, h.atMostOne.cons (hsince true)⟩
    obtain ⟨rfl, -⟩ := harmed hne
    rfl

theorem Coherent.cleanupLocked (h : s.Coherent) : s.cleanupLocked.Coherent where
  together := .inr ⟨rfl, rfl, rfl, rfl, rfl⟩
  registered hne := absurd rfl hne
  armed hne := absurd rfl hne
  unused hne := absurd rfl hne
  since := h.since
  atMostOne := h.atMostOne

/-! ### The invariant is kept -/

theorem Coherent.withFlags (h : s.Coherent) (refCount activeRefCount : ℕ)
    (serviceRequested serviceEnabled shuttingDown spawnSuppressed : Bool) :
    Coherent { s with
      refCount, activeRefCount, serviceRequested, serviceEnabled, shuttingDown, spawnSuppressed } :=
  ⟨h.together, h.registered, h.armed, h.unused, h.since, h.atMostOne⟩

theorem Coherent.stopLocked (h : s.Coherent) : s.stopLocked.Coherent :=
  ⟨h.cleanupLocked.together, h.cleanupLocked.registered, h.cleanupLocked.armed,
    h.cleanupLocked.unused, h.since, h.atMostOne⟩

theorem Coherent.ensureStartedLocked (h : s.Coherent) (inputs : SpawnInputs) (explicitRetry : Bool)
    (outcome : SpawnOutcome) :
    (s.ensureStartedLocked inputs explicitRetry outcome).1.Coherent := by
  rw [SharedWta.ensureStartedLocked]
  split_ifs with hblocked hsome hrequested
  · exact h
  · exact h.withFlags _ _ _ _ _ _
  · exact h
  · have hnone : s.process = none := Option.not_isSome_iff_eq_none.mp hsome
    have hspawn := h.spawnLocked hnone inputs true outcome nofun
    split
    · next heq =>
      rw [heq] at hspawn
      exact hspawn
    · next heq =>
      rw [heq] at hspawn
      exact hspawn.withFlags _ _ _ _ _ _

theorem Coherent.restartLocked (h : s.Coherent) (inputs : SpawnInputs) (exit : ExitOutcome)
    (outcome : SpawnOutcome) : (s.restartLocked inputs exit outcome).1.Coherent := by
  rw [SharedWta.restartLocked]
  split_ifs
  · exact h.cleanupLocked.withFlags _ _ _ _ _ _
  · exact h.cleanupLocked.spawnLocked rfl inputs true outcome nofun

theorem Coherent.restart (h : s.Coherent) (exit : ExitOutcome) (outcome : SpawnOutcome) :
    (s.restart exit outcome).1.Coherent := by
  rw [SharedWta.restart]
  split_ifs with hblocked hcached hnone
  · exact h
  · exact h
  · exact h.spawnLocked (Option.isNone_iff_eq_none.mp hnone) _ true _ nofun
  · exact h.restartLocked _ _ _

theorem Coherent.restartWith (h : s.Coherent) (inputs : SpawnInputs) (exit : ExitOutcome)
    (outcome : SpawnOutcome) : (s.restartWith inputs exit outcome).1.Coherent := by
  rw [SharedWta.restartWith]
  split_ifs with hpath hblocked hnone hrequested hsame
  · exact h
  · exact h
  · exact h.spawnLocked (Option.isNone_iff_eq_none.mp hnone) _ true _ nofun
  · exact h
  · exact h
  · exact h.restartLocked _ _ _

theorem onProcessExited_of_ne {generation : Generation}
    (h : generation ≠ s.waitGeneration.currentGeneration) (outcome : SpawnOutcome) :
    s.onProcessExited generation outcome = s := by
  rw [onProcessExited, ProcessWaitGenerationTracker.claim, if_pos (.inr h)]

/-- The master has exited. -/
def exited (s : SharedWta) : SharedWta :=
  { s with
    process := none
    job := none
    shutdownEvent := none
    waitHandle := none
    pid := 0
    masterGeneration := 0
    waitGeneration := s.waitGeneration.retire }

theorem onProcessExited_eq (s : SharedWta) (outcome : SpawnOutcome)
    (hregistered : s.waitGeneration.currentGeneration ≠ 0) (hsome : s.process ≠ none) :
    s.onProcessExited s.waitGeneration.currentGeneration outcome =
      if s.waitGeneration.currentGeneration = s.unexpectedExitRecovery.armedGeneration then
        let s' := { s.exited with unexpectedExitRecovery := UnexpectedExitRecoveryPolicy.retire }
        if s.serviceRequested && !(s.spawnSuppressed || !s.serviceEnabled || s.shuttingDown) &&
            (s.cached.wtaPath != "") then (s'.spawnLocked s.cached false outcome).1
        else s'
      else s.exited := by
  have hclaim : ¬(s.waitGeneration.currentGeneration = 0 ∨
      s.waitGeneration.currentGeneration ≠ s.waitGeneration.currentGeneration) := by
    rintro (hzero | hne)
    · exact hregistered hzero
    · exact hne rfl
  have hprocess : s.process.isNone = false := by
    rw [Option.isNone_eq_false_iff]
    exact Option.isSome_iff_ne_none.mpr hsome
  rw [onProcessExited, ProcessWaitGenerationTracker.claim, if_neg hclaim]
  simp only [hprocess, Bool.false_eq_true, if_false]
  by_cases harmed : s.waitGeneration.currentGeneration = s.unexpectedExitRecovery.armedGeneration
  · have hshould : ∀ a b c, s.unexpectedExitRecovery.shouldRespawn
        s.waitGeneration.currentGeneration a b c =
          (UnexpectedExitRecoveryPolicy.retire, a && !b && c) := fun a b c => by
      rw [UnexpectedExitRecoveryPolicy.shouldRespawn, if_neg]
      rintro (hzero | hne)
      · exact hregistered hzero
      · exact hne harmed
    rw [if_pos harmed, hshould]
    rfl
  · have hshould : ∀ a b c, s.unexpectedExitRecovery.shouldRespawn
        s.waitGeneration.currentGeneration a b c = (s.unexpectedExitRecovery, false) :=
      fun a b c => by rw [UnexpectedExitRecoveryPolicy.shouldRespawn, if_pos (.inr harmed)]
    rw [if_neg harmed, hshould]
    rfl

theorem Coherent.onProcessExited (h : s.Coherent) (generation : Generation)
    (outcome : SpawnOutcome) : (s.onProcessExited generation outcome).Coherent := by
  by_cases hne : generation ≠ s.waitGeneration.currentGeneration
  · rw [onProcessExited_of_ne hne]
    exact h
  · obtain rfl := not_not.mp hne
    by_cases hregistered : s.waitGeneration.currentGeneration = 0
    · rw [SharedWta.onProcessExited, ProcessWaitGenerationTracker.claim,
        if_pos (.inl hregistered)]
      exact h
    · have hgone : s.exited.Together := .inr ⟨rfl, rfl, rfl, rfl, rfl⟩
      have hretired : Coherent { s.exited with
          unexpectedExitRecovery := UnexpectedExitRecoveryPolicy.retire } :=
        ⟨hgone, fun hne => absurd rfl hne, fun hne => absurd rfl hne, fun hne => absurd rfl hne,
          h.since, h.atMostOne⟩
      rw [onProcessExited_eq s outcome hregistered (h.registered hregistered)]
      split_ifs with harmed hrespawn
      · exact hretired.spawnLocked rfl _ false _ fun _ => h.unused (harmed ▸ hregistered)
      · exact hretired
      · have hdisarmed : s.unexpectedExitRecovery.armedGeneration = 0 := by
          by_contra hne
          exact harmed (h.armed hne).symm
        exact ⟨hgone, fun hne => absurd rfl hne, fun hne => absurd hdisarmed hne,
          fun hne => absurd hdisarmed hne, h.since, h.atMostOne⟩

/-! ### When nothing is spawned -/

/-- The service may not be started. -/
def Blocked (s : SharedWta) : Prop :=
  s.serviceEnabled = false ∨ s.shuttingDown = true ∨ s.spawnSuppressed = true

theorem Blocked.guard (h : s.Blocked) : !s.serviceEnabled ∨ s.shuttingDown ∨ s.spawnSuppressed := by
  rcases h with h | h | h
  · exact .inl (by rw [h]; rfl)
  · exact .inr (.inl h)
  · exact .inr (.inr h)

theorem ensureStartedLocked_of_blocked (h : s.Blocked) (inputs : SpawnInputs)
    (explicitRetry : Bool) (outcome : SpawnOutcome) :
    s.ensureStartedLocked inputs explicitRetry outcome = (s, false) := by
  rw [ensureStartedLocked, if_pos (.inr h.guard)]

theorem restart_of_blocked (h : s.Blocked) (exit : ExitOutcome) (outcome : SpawnOutcome) :
    s.restart exit outcome = (s, false) := by
  rw [restart, if_pos h.guard]

theorem restartWith_of_blocked (h : s.Blocked) (inputs : SpawnInputs) (exit : ExitOutcome)
    (outcome : SpawnOutcome) : s.restartWith inputs exit outcome = (s, false) := by
  rw [restartWith]
  split_ifs with hpath hblocked
  · rfl
  · rfl
  all_goals exact absurd h.guard hblocked

/-- What a blocked service does not do: it does not spawn, and does not leave the state in which it
is for good. -/
def Stays (s s' : SharedWta) : Prop :=
  s'.spawns = s.spawns ∧ (s.shuttingDown = true → s'.shuttingDown = true) ∧
    (s.spawnSuppressed = true → s'.spawnSuppressed = true)

theorem Stays.refl (s : SharedWta) : s.Stays s := ⟨rfl, id, id⟩

theorem stays_onProcessExited_of_blocked (hs : s.Coherent) (h : s.Blocked)
    (generation : Generation) (outcome : SpawnOutcome) :
    s.Stays (s.onProcessExited generation outcome) := by
  by_cases hne : generation ≠ s.waitGeneration.currentGeneration
  · rw [onProcessExited_of_ne hne]
    exact Stays.refl s
  · obtain rfl := not_not.mp hne
    by_cases hregistered : s.waitGeneration.currentGeneration = 0
    · rw [onProcessExited, ProcessWaitGenerationTracker.claim, if_pos (.inl hregistered)]
      exact Stays.refl s
    · have hblocked : (s.spawnSuppressed || !s.serviceEnabled || s.shuttingDown) = true := by
        rcases h with h | h | h <;> simp [h]
      rw [onProcessExited_eq s outcome hregistered (hs.registered hregistered), hblocked]
      split_ifs with harmed hrespawn
      · simp at hrespawn
      · exact ⟨rfl, id, id⟩
      · exact ⟨rfl, id, id⟩

theorem restartLocked_of_unconfirmed (hsome : s.process ≠ none) {exit : ExitOutcome}
    (hexit : ensureProcessExitedBeforeRestart exit = false) (inputs : SpawnInputs)
    (outcome : SpawnOutcome) :
    s.restartLocked inputs exit outcome =
      ({ s.cleanupLocked with spawnSuppressed := true }, false) := by
  have hprocess : s.process.isSome = true := Option.isSome_iff_ne_none.mpr hsome
  rw [restartLocked]
  simp only [hprocess, hexit, Bool.not_false, Bool.and_self, if_true]

end SharedWta

namespace WtaRun

open SharedWta

variable {run : WtaRun}

theorem coherent_step (h : run.service.Coherent) (op : WtaOp) : (run.step op).service.Coherent := by
  have hreset : ∀ (run : WtaRun) i, run.service.Coherent → (run.resetLease i).service.Coherent := by
    intro run i h
    simp only [resetLease, SharedWtaLease.reset]
    split
    · exact h.withFlags _ _ _ _ _ _
    · exact h
  cases op with
  | ensureStarted inputs outcome => exact h.ensureStartedLocked inputs false outcome
  | acquirePane inputs outcome =>
    have hstart := h.ensureStartedLocked inputs true outcome
    simp only [step, acquirePane]
    split
    · next heq =>
      rw [heq] at hstart
      exact hstart
    · next heq =>
      rw [heq] at hstart
      exact hstart.withFlags _ _ _ _ _ _
  | acquireKeepRunningLease =>
    simp only [step, acquireKeepRunningLease]
    split
    · exact h.withFlags _ _ _ _ _ _
    · exact h
  | restart exit outcome => exact h.restart exit outcome
  | restartWith inputs exit outcome => exact h.restartWith inputs exit outcome
  | setEnabled enabled =>
    cases enabled with
    | true => exact h.withFlags _ _ _ _ _ _
    | false => exact (h.withFlags _ _ _ _ _ _).stopLocked
  | shutdown => exact (h.withFlags _ _ _ _ _ _).stopLocked
  | processExited generation outcome => exact h.onProcessExited generation outcome
  | moveLease source => exact h
  | assignLease target source =>
    rw [step]
    split_ifs
    · exact h
    · exact hreset run target h
  | resetLease i => exact hreset run i h
  | retireLease i =>
    simp only [step, SharedWtaLease.takeForRetirement]
    split_ifs
    · exact h.withFlags _ _ _ _ _ _
    · exact h
    · exact h

theorem stays_step_of_blocked (hs : run.service.Coherent) (h : run.service.Blocked) (op : WtaOp) :
    run.service.Stays (run.step op).service := by
  have hreset : ∀ i, run.service.Stays (run.resetLease i).service := by
    intro i
    simp only [resetLease, SharedWtaLease.reset]
    split <;> exact ⟨rfl, id, id⟩
  cases op with
  | ensureStarted inputs outcome =>
    simp only [step, ensureStarted, ensureStartedLocked_of_blocked h]
    exact Stays.refl _
  | acquirePane inputs outcome =>
    simp only [step, acquirePane, ensureStartedLocked_of_blocked h]
    exact Stays.refl _
  | acquireKeepRunningLease =>
    simp only [step, acquireKeepRunningLease]
    split <;> exact ⟨rfl, id, id⟩
  | restart exit outcome =>
    simp only [step, restart_of_blocked h]
    exact Stays.refl _
  | restartWith inputs exit outcome =>
    simp only [step, restartWith_of_blocked h]
    exact Stays.refl _
  | setEnabled enabled => cases enabled <;> exact ⟨rfl, id, id⟩
  | shutdown => exact ⟨rfl, fun _ => rfl, id⟩
  | processExited generation outcome => exact stays_onProcessExited_of_blocked hs h _ _
  | moveLease source => exact Stays.refl _
  | assignLease target source =>
    rw [step]
    split_ifs
    · exact Stays.refl _
    · exact hreset target
  | resetLease i => exact hreset i
  | retireLease i =>
    simp only [step, SharedWtaLease.takeForRetirement]
    split_ifs <;> exact ⟨rfl, id, id⟩

/-! ### The counts of leases -/

/-- The counts are those of the leases that have an owner, and of those that are active. -/
structure Counted (run : WtaRun) : Prop where
  refCount : run.service.refCount = run.leases.countP SharedWtaLease.owner
  activeRefCount : run.service.activeRefCount =
    run.leases.countP fun lease => lease.owner && lease.active

theorem countP_set_lease (run : WtaRun) (p : SharedWtaLease → Bool) {i : ℕ}
    (hi : i < run.leases.length) (lease : SharedWtaLease) :
    (run.leases.set i lease).countP p + (p (run.lease i)).toNat =
      run.leases.countP p + (p lease).toNat := by
  rw [List.countP_set hi, WtaRun.lease, List.getD_eq_getElem?_getD, List.getElem?_eq_getElem hi,
    Option.getD_some]
  have hpos : p run.leases[i] = true → 0 < run.leases.countP p := fun h =>
    List.countP_pos_iff.mpr ⟨_, List.getElem_mem hi, h⟩
  cases h : p run.leases[i] with
  | false => cases p lease <;> simp
  | true =>
    have hpos' := hpos h
    cases p lease <;> simp <;> omega

theorem countP_set_empty (run : WtaRun) (p : SharedWtaLease → Bool) (hp : p {} = false) (i : ℕ) :
    (run.leases.set i {}).countP p + (p (run.lease i)).toNat = run.leases.countP p := by
  rcases Nat.lt_or_ge i run.leases.length with hi | hi
  · rw [run.countP_set_lease p hi, hp]
    rfl
  · rw [List.set_eq_of_length_le hi, lease, List.getD_eq_getElem?_getD, List.getElem?_eq_none hi,
      Option.getD_none, hp]
    rfl

theorem set_lease_self (run : WtaRun) (i : ℕ) : run.leases.set i (run.lease i) = run.leases := by
  rcases Nat.lt_or_ge i run.leases.length with hi | hi
  · rw [lease, List.getD_eq_getElem?_getD, List.getElem?_eq_getElem hi, Option.getD_some,
      List.set_getElem_self]
  · exact List.set_eq_of_length_le hi

end WtaRun

namespace SharedWta

variable {s : SharedWta}

/-- The counts are not changed. -/
def SameCounts (s s' : SharedWta) : Prop :=
  s'.refCount = s.refCount ∧ s'.activeRefCount = s.activeRefCount

theorem sameCounts_spawnLocked (inputs : SpawnInputs) (arm : Bool) (outcome : SpawnOutcome) :
    s.SameCounts (s.spawnLocked inputs arm outcome).1 := by
  rcases s.spawnLocked_cases inputs arm outcome with
    ⟨_, _, heq, -⟩ | ⟨_, _, _, _, _, _, _, _, _, heq, -⟩
  · rw [heq]
    exact ⟨rfl, rfl⟩
  · rw [heq]
    exact ⟨rfl, rfl⟩

theorem sameCounts_ensureStartedLocked (inputs : SpawnInputs) (explicitRetry : Bool)
    (outcome : SpawnOutcome) :
    s.SameCounts (s.ensureStartedLocked inputs explicitRetry outcome).1 := by
  have hspawn := s.sameCounts_spawnLocked inputs true outcome
  rw [ensureStartedLocked]
  split_ifs
  · exact ⟨rfl, rfl⟩
  · exact ⟨rfl, rfl⟩
  · exact ⟨rfl, rfl⟩
  · split
    · next heq =>
      rw [heq] at hspawn
      exact hspawn
    · next heq =>
      rw [heq] at hspawn
      exact hspawn

theorem sameCounts_restartLocked (inputs : SpawnInputs) (exit : ExitOutcome)
    (outcome : SpawnOutcome) : s.SameCounts (s.restartLocked inputs exit outcome).1 := by
  rw [restartLocked]
  split_ifs
  · exact ⟨rfl, rfl⟩
  · exact s.cleanupLocked.sameCounts_spawnLocked inputs true outcome

theorem sameCounts_onProcessExited (hs : s.Coherent) (generation : Generation)
    (outcome : SpawnOutcome) : s.SameCounts (s.onProcessExited generation outcome) := by
  by_cases hne : generation ≠ s.waitGeneration.currentGeneration
  · rw [onProcessExited_of_ne hne]
    exact ⟨rfl, rfl⟩
  · obtain rfl := not_not.mp hne
    by_cases hregistered : s.waitGeneration.currentGeneration = 0
    · rw [onProcessExited, ProcessWaitGenerationTracker.claim, if_pos (.inl hregistered)]
      exact ⟨rfl, rfl⟩
    · rw [onProcessExited_eq s outcome hregistered (hs.registered hregistered)]
      split_ifs
      · exact sameCounts_spawnLocked _ _ _
      · exact ⟨rfl, rfl⟩
      · exact ⟨rfl, rfl⟩

end SharedWta

namespace WtaRun

open SharedWta

variable {run : WtaRun} {service : SharedWta}

theorem Counted.of_sameCounts (h : run.Counted)
    (hsame : run.service.SameCounts service) : Counted { run with service } :=
  ⟨hsame.1.trans h.refCount, hsame.2.trans h.activeRefCount⟩

theorem Counted.acquire (h : run.Counted)
    (hsame : run.service.SameCounts service) :
    Counted ⟨service.acquireLeaseLocked.1, run.leases ++ [service.acquireLeaseLocked.2]⟩ := by
  refine ⟨?_, ?_⟩
  · rw [List.countP_append, ← h.refCount, ← hsame.1]
    rfl
  · rw [List.countP_append, ← h.activeRefCount, ← hsame.2]
    rfl

theorem Counted.addEmpty (h : run.Counted)
    (hsame : run.service.SameCounts service) :
    Counted ⟨service, run.leases ++ [({} : SharedWtaLease)]⟩ := by
  refine ⟨?_, ?_⟩
  · rw [List.countP_append, ← h.refCount, ← hsame.1]
    rfl
  · rw [List.countP_append, ← h.activeRefCount, ← hsame.2]
    rfl

theorem Counted.resetLease (h : run.Counted) (i : ℕ) : (run.resetLease i).Counted := by
  have howners := run.countP_set_empty SharedWtaLease.owner rfl i
  have hactives := run.countP_set_empty (fun lease => lease.owner && lease.active) rfl i
  have href := h.refCount
  have hactive := h.activeRefCount
  simp only [WtaRun.resetLease, SharedWtaLease.reset]
  by_cases howner : (run.lease i).owner = true
  · rw [if_pos howner]
    simp only [howner, Bool.true_and, Bool.toNat_true] at howners hactives
    refine ⟨?_, ?_⟩
    · simp only [releaseLease]
      omega
    · simp only [releaseLease]
      cases hcounted : (run.lease i).active with
      | true =>
        simp only [hcounted, Bool.toNat_true] at hactives
        simp only [if_true]
        omega
      | false =>
        simp only [hcounted, Bool.toNat_false] at hactives
        simp only [Bool.false_eq_true, if_false]
        omega
  · rw [if_neg howner, set_lease_self]
    exact h

theorem owner_lease_resetLease (run : WtaRun) {i : ℕ} (hi : i < run.leases.length) :
    ((run.resetLease i).lease i).owner = false := by
  rw [lease]
  simp only [WtaRun.resetLease, SharedWtaLease.reset]
  by_cases howner : (run.lease i).owner = true
  · rw [if_pos howner, List.getD_eq_getElem?_getD, List.getElem?_set_self hi]
    rfl
  · rw [if_neg howner, set_lease_self]
    exact Bool.eq_false_iff.mpr howner

theorem Counted.step (hs : run.service.Coherent) (h : run.Counted) (op : WtaOp) :
    (run.step op).Counted := by
  cases op with
  | ensureStarted inputs outcome =>
    exact h.of_sameCounts (sameCounts_ensureStartedLocked inputs false outcome)
  | acquirePane inputs outcome =>
    have hsame := run.service.sameCounts_ensureStartedLocked inputs true outcome
    simp only [WtaRun.step, acquirePane]
    split
    · next heq =>
      rw [heq] at hsame
      exact h.addEmpty hsame
    · next heq =>
      rw [heq] at hsame
      exact h.acquire hsame
  | acquireKeepRunningLease =>
    simp only [WtaRun.step, acquireKeepRunningLease]
    split
    · exact h.acquire ⟨rfl, rfl⟩
    · exact h.addEmpty ⟨rfl, rfl⟩
  | restart exit outcome =>
    refine h.of_sameCounts ?_
    rw [SharedWta.restart]
    split_ifs
    · exact ⟨rfl, rfl⟩
    · exact ⟨rfl, rfl⟩
    · exact sameCounts_spawnLocked _ _ _
    · exact sameCounts_restartLocked _ _ _
  | restartWith inputs exit outcome =>
    refine h.of_sameCounts ?_
    rw [SharedWta.restartWith]
    split_ifs
    · exact ⟨rfl, rfl⟩
    · exact ⟨rfl, rfl⟩
    · exact sameCounts_spawnLocked _ _ _
    · exact ⟨rfl, rfl⟩
    · exact ⟨rfl, rfl⟩
    · exact sameCounts_restartLocked _ _ _
  | setEnabled enabled => cases enabled <;> exact h.of_sameCounts ⟨rfl, rfl⟩
  | shutdown => exact h.of_sameCounts ⟨rfl, rfl⟩
  | processExited generation outcome =>
    exact h.of_sameCounts (sameCounts_onProcessExited hs generation outcome)
  | moveLease source =>
    have hmove : ∀ p : SharedWtaLease → Bool, p {} = false →
        (run.leases.set source {} ++ [run.lease source]).countP p = run.leases.countP p :=
      fun p hp => by
        rw [List.countP_append, ← run.countP_set_empty p hp source]
        cases hcounted : p (run.lease source) <;> simp [hcounted]
    exact ⟨h.refCount.trans (hmove _ rfl).symm, h.activeRefCount.trans (hmove _ rfl).symm⟩
  | assignLease target source =>
    rw [WtaRun.step]
    split_ifs with hguard
    · exact h
    · rw [not_or, not_le] at hguard
      obtain ⟨hne, htarget⟩ := hguard
      have hreset := h.resetLease target
      have howner := run.owner_lease_resetLease htarget
      have htarget' : target < (run.resetLease target).leases.length := by
        rw [WtaRun.resetLease]
        simpa using htarget
      revert hreset howner htarget'
      generalize run.resetLease target = run'
      intro hreset howner htarget'
      -- the target is not counted, and gets what the source loses
      have hassign : ∀ p : SharedWtaLease → Bool, p {} = false → p (run'.lease target) = false →
          ((run'.leases.set target (run'.lease source)).set source {}).countP p =
            run'.leases.countP p := fun p hp hp' => by
        have htargets := run'.countP_set_lease p htarget' (run'.lease source)
        have hsame : lease { run' with leases := run'.leases.set target (run'.lease source) }
            source = run'.lease source := by
          rw [lease, lease, List.getD_eq_getElem?_getD, List.getElem?_set_ne hne,
            ← List.getD_eq_getElem?_getD]
        have hsources : ((run'.leases.set target (run'.lease source)).set source {}).countP p +
            (p (run'.lease source)).toNat =
              (run'.leases.set target (run'.lease source)).countP p := by
          have hset := countP_set_empty
            { run' with leases := run'.leases.set target (run'.lease source) } p hp source
          rw [hsame] at hset
          exact hset
        rw [hp', Bool.toNat_false, Nat.add_zero] at htargets
        omega
      exact ⟨hreset.refCount.trans (hassign _ rfl howner).symm,
        hreset.activeRefCount.trans (hassign _ rfl (by rw [howner]; rfl)).symm⟩
  | resetLease i => exact h.resetLease i
  | retireLease i =>
    have howners := run.countP_set_empty SharedWtaLease.owner rfl i
    have hactives := run.countP_set_empty (fun lease => lease.owner && lease.active) rfl i
    have href := h.refCount
    have hactive := h.activeRefCount
    simp only [WtaRun.step, SharedWtaLease.takeForRetirement]
    by_cases howner : (run.lease i).owner = true
    · rw [if_pos howner]
      simp only [howner, Bool.true_and, Bool.toNat_true] at howners hactives ⊢
      cases hcounted : (run.lease i).active with
      | true =>
        simp only [hcounted, Bool.toNat_true] at hactives
        refine ⟨?_, ?_⟩
        · simp only [if_true, retireLease, List.countP_append]
          simp
          omega
        · simp only [if_true, retireLease, List.countP_append]
          simp
          omega
      | false =>
        simp only [hcounted, Bool.toNat_false] at hactives
        refine ⟨?_, ?_⟩
        · simp only [Bool.false_eq_true, if_false, List.countP_append]
          simp [howner]
          omega
        · simp only [Bool.false_eq_true, if_false, List.countP_append]
          simp [hcounted]
          omega
    · rw [if_neg howner]
      exact h

end WtaRun

open SharedWta

/-- The call restarts a master whose exit cannot be confirmed. -/
def WtaRun.Unconfirmed (run : WtaRun) : WtaOp → Prop
  | .restart exit _ => ¬run.service.Blocked ∧ run.service.cached.wtaPath ≠ "" ∧
      run.service.process ≠ none ∧ ensureProcessExitedBeforeRestart exit = false
  | .restartWith inputs exit _ => inputs.wtaPath ≠ "" ∧ ¬run.service.Blocked ∧
      run.service.process ≠ none ∧ run.service.cached ≠ inputs ∧
      ensureProcessExitedBeforeRestart exit = false
  | _ => False

/-- What supervision gives in the state that a run reaches. -/
structure Supervised (ops : List WtaOp) : Prop where
  /-- A master is published as a whole or not at all. -/
  together : (ops.foldl WtaRun.step {}).service.Together
  /-- A callback of a generation that is not registered changes nothing. -/
  stale : ∀ generation outcome,
    generation ≠ (ops.foldl WtaRun.step {}).service.waitGeneration.currentGeneration →
      (ops.foldl WtaRun.step {}).step (.processExited generation outcome) =
        ops.foldl WtaRun.step {}
  /-- Between two explicit spawns there is at most one automatic one. -/
  atMostOne : AtMostOne (ops.foldl WtaRun.step {}).service.spawns
  /-- After a shutdown, or a restart whose exit is not confirmed, there is no spawn. -/
  ended : ∀ pre op post, ops = pre ++ op :: post →
    op = .shutdown ∨ (pre.foldl WtaRun.step {}).Unconfirmed op →
      (ops.foldl WtaRun.step {}).service.spawns = (pre.foldl WtaRun.step {}).service.spawns
  /-- While the service is disabled there is no spawn. -/
  disabled : (ops.foldl WtaRun.step {}).service.serviceEnabled = false → ∀ op,
    ((ops.foldl WtaRun.step {}).step op).service.spawns =
      (ops.foldl WtaRun.step {}).service.spawns
  /-- A spawn that fails changes neither the published master nor the cached inputs. -/
  failed : ∀ inputs arm outcome,
    ((ops.foldl WtaRun.step {}).service.spawnLocked inputs arm outcome).2 = false →
      let s := (ops.foldl WtaRun.step {}).service
      let s' := (s.spawnLocked inputs arm outcome).1
      s'.process = s.process ∧ s'.job = s.job ∧ s'.shutdownEvent = s.shutdownEvent ∧
        s'.pid = s.pid ∧ s'.masterGeneration = s.masterGeneration ∧
        s'.waitHandle = s.waitHandle ∧ s'.cached = s.cached ∧
        s'.unexpectedExitRecovery = s.unexpectedExitRecovery
  /-- The counts are those of the leases. -/
  counted : (ops.foldl WtaRun.step {}).Counted

namespace WtaRun

theorem coherent_foldl (ops : List WtaOp) : (ops.foldl WtaRun.step {}).service.Coherent := by
  induction ops using List.reverseRecOn with
  | nil => exact coherent_initial
  | append_singleton ops op ih =>
    rw [List.foldl_concat]
    exact coherent_step ih op

theorem counted_foldl (ops : List WtaOp) : (ops.foldl WtaRun.step {}).Counted := by
  induction ops using List.reverseRecOn with
  | nil => exact ⟨rfl, rfl⟩
  | append_singleton ops op ih =>
    rw [List.foldl_concat]
    exact ih.step (coherent_foldl ops) op

theorem spawns_foldl_of_blocked {run : WtaRun} (hs : run.service.Coherent)
    (h : run.service.shuttingDown = true ∨ run.service.spawnSuppressed = true)
    (ops : List WtaOp) : (ops.foldl WtaRun.step run).service.spawns = run.service.spawns := by
  induction ops generalizing run with
  | nil => rfl
  | cons op ops ih =>
    obtain ⟨hspawns, hshutdown, hsuppressed⟩ := stays_step_of_blocked hs (.inr h) op
    rw [List.foldl_cons, ih (coherent_step hs op) (h.imp hshutdown hsuppressed), hspawns]

theorem blocked_step {run : WtaRun} {op : WtaOp} (h : op = .shutdown ∨ run.Unconfirmed op) :
    (run.step op).service.spawns = run.service.spawns ∧
      ((run.step op).service.shuttingDown = true ∨
        (run.step op).service.spawnSuppressed = true) := by
  rcases h with rfl | h
  · exact ⟨rfl, .inl rfl⟩
  · have hguard : ∀ s : SharedWta, ¬s.Blocked →
        ¬(!s.serviceEnabled ∨ s.shuttingDown ∨ s.spawnSuppressed) := fun s hs hguard =>
      hs (hguard.imp (by simp) id)
    cases op with
    | restart exit outcome =>
      obtain ⟨hblocked, hcached, hsome, hexit⟩ := h
      have hnone : ¬run.service.process.isNone = true := fun hnone =>
        hsome (Option.isNone_iff_eq_none.mp hnone)
      simp only [step, SharedWta.restart]
      rw [if_neg (hguard _ hblocked), if_neg hcached, if_neg hnone,
        restartLocked_of_unconfirmed hsome hexit]
      exact ⟨rfl, .inr rfl⟩
    | restartWith inputs exit outcome =>
      obtain ⟨hpath, hblocked, hsome, hcached, hexit⟩ := h
      have hnone : ¬run.service.process.isNone = true := fun hnone =>
        hsome (Option.isNone_iff_eq_none.mp hnone)
      simp only [step, SharedWta.restartWith]
      rw [if_neg hpath, if_neg (hguard _ hblocked), if_neg hnone, if_neg hcached,
        restartLocked_of_unconfirmed hsome hexit]
      exact ⟨rfl, .inr rfl⟩
    | _ => cases h

end WtaRun

/-- In every run the service is supervised. -/
theorem shared_wta_supervised (ops : List WtaOp) : Supervised ops where
  together := (WtaRun.coherent_foldl ops).together
  stale generation outcome hne := by
    rw [WtaRun.step, onProcessExited_of_ne hne]
  atMostOne := (WtaRun.coherent_foldl ops).atMostOne
  ended pre op post hops h := by
    obtain ⟨hspawns, hblocked⟩ := WtaRun.blocked_step h
    rw [hops, List.foldl_append, List.foldl_cons,
      WtaRun.spawns_foldl_of_blocked (WtaRun.coherent_step (WtaRun.coherent_foldl pre) op) hblocked,
      hspawns]
  disabled h op := (WtaRun.stays_step_of_blocked (WtaRun.coherent_foldl ops) (.inl h) op).1
  failed _ _ _ h := eq_of_spawnLocked_eq_false h
  counted := WtaRun.counted_foldl ops

end IntelligentTerminal.Wta
