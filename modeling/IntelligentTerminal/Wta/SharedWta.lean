import Mathlib.Data.List.Basic

/-!
# The shared master process

A Terminal process has one `wta-master`. It is started for the first pane that asks for it,
restarted on request, stopped when the service is disabled or Terminal exits, and started once more
by itself when it has exited unexpectedly. Each registration of an exit wait has a generation, by which a late
callback is told from a current one.

The calls take a mutex, so they happen one after another. What the system calls of a spawn return is
an argument of the call, and so is whether the waits for an exit succeed. The counts of leases are
natural numbers. The command line and the environment of the process, the log and the pipe's use are
left out, and so are exceptions.

Source: `src/cascadia/TerminalApp/SharedWta.cpp`, lines 354-423, 452-608 and 725-1267, and
`src/cascadia/TerminalApp/SharedWta.h`, lines 115-215 and 395-455.
-/

namespace IntelligentTerminal.Wta

/-! ### Generations of exit waits -/

/-- `ProcessWaitGenerationTracker::Generation`. -/
abbrev Generation := BitVec 64

structure ProcessWaitGenerationTracker where
  nextGeneration : Generation := 0
  currentGeneration : Generation := 0
  pid : BitVec 32 := 0
deriving DecidableEq

namespace ProcessWaitGenerationTracker

variable (t : ProcessWaitGenerationTracker)

/-- The generation that `Reserve` returns: the next one that is not zero. -/
def reserved : Generation := if t.nextGeneration + 1 = 0 then 1 else t.nextGeneration + 1

def reserve : ProcessWaitGenerationTracker := { t with nextGeneration := t.reserved }

/-- `ProcessWaitGenerationTracker::Register`, and the generation that it returns. -/
def register (pid : BitVec 32) (generation : Generation) :
    ProcessWaitGenerationTracker × Generation :=
  if generation = 0 ∨ generation ≠ t.nextGeneration then (t, 0)
  else ({ t with currentGeneration := generation, pid }, generation)

def retire : ProcessWaitGenerationTracker := { t with currentGeneration := 0, pid := 0 }

def claim (generation : Generation) : Option (ProcessWaitGenerationTracker × BitVec 32) :=
  if generation = 0 ∨ generation ≠ t.currentGeneration then none else some (t.retire, t.pid)

end ProcessWaitGenerationTracker

structure UnexpectedExitRecoveryPolicy where
  armedGeneration : Generation := 0
deriving DecidableEq

namespace UnexpectedExitRecoveryPolicy

def arm (generation : Generation) : UnexpectedExitRecoveryPolicy := ⟨generation⟩

def retire : UnexpectedExitRecoveryPolicy := ⟨0⟩

def shouldRespawn (policy : UnexpectedExitRecoveryPolicy) (generation : Generation)
    (serviceRequested spawnSuppressed hasCachedArgs : Bool) :
    UnexpectedExitRecoveryPolicy × Bool :=
  if generation = 0 ∨ generation ≠ policy.armedGeneration then (policy, false)
  else (retire, serviceRequested && !spawnSuppressed && hasCachedArgs)

end UnexpectedExitRecoveryPolicy

/-! ### The service -/

/-- A `HANDLE` that is valid. -/
abbrev Handle := ℕ

/-- The id of a process, which is not zero. -/
abbrev ProcessId := { pid : BitVec 32 // pid ≠ 0 }

/-- What a master is started with. -/
structure SpawnInputs where
  wtaPath : String
  extraArgs : List String
  environment : List (String × String)
deriving DecidableEq

/-- What the system calls of one spawn return. A job is one that the process could be put in, and an
event one that did not exist. -/
structure SpawnOutcome where
  pipeName : Option String
  shutdownEvent : Option Handle
  environmentBlock : Bool
  process : Option (Handle × ProcessId)
  job : Option Handle
  waitHandle : Option Handle
  resumed : Bool
deriving DecidableEq

/-- What the waits for an exit before a restart return: the first one, and the one after the process
was terminated. -/
structure ExitOutcome where
  exited : Bool
  reaped : Bool
deriving DecidableEq

def ensureProcessExitedBeforeRestart (outcome : ExitOutcome) : Bool :=
  if outcome.exited then true else outcome.reaped

/-- A call of `_SpawnLocked`, in the history of a service. -/
structure SpawnAttempt where
  /-- It answers an unexpected exit. -/
  automatic : Bool
  /-- It published a master. -/
  published : Bool
deriving DecidableEq

/-- `class SharedWta`, and the history of its spawns, the last one first. -/
structure SharedWta where
  process : Option Handle := none
  job : Option Handle := none
  shutdownEvent : Option Handle := none
  waitHandle : Option Handle := none
  waitGeneration : ProcessWaitGenerationTracker := {}
  unexpectedExitRecovery : UnexpectedExitRecoveryPolicy := {}
  pid : BitVec 32 := 0
  masterGeneration : Generation := 0
  refCount : ℕ := 0
  activeRefCount : ℕ := 0
  serviceRequested : Bool := false
  serviceEnabled : Bool := true
  shuttingDown : Bool := false
  masterPipeName : Option String := none
  /-- `_cachedWtaPath`, `_cachedExtraArgs` and `_cachedEnvironment`. -/
  cached : SpawnInputs := ⟨"", [], []⟩
  spawnSuppressed : Bool := false
  spawns : List SpawnAttempt := []
deriving DecidableEq

namespace SharedWta

variable (s : SharedWta)

/-- `_SpawnLocked` from the reserved generation on: the state, and whether a master is published. -/
def publish (inputs : SpawnInputs) (arm : Bool) (outcome : SpawnOutcome) : SharedWta × Bool :=
  let receiverGeneration := s.waitGeneration.reserved
  let s := { s with waitGeneration := s.waitGeneration.reserve }
  match outcome.shutdownEvent, outcome.environmentBlock, outcome.process, outcome.job with
  | some shutdownEvent, true, some (process, pid), some job =>
    let (registered, waitGeneration) := s.waitGeneration.register pid receiverGeneration
    -- without a watcher there is no recovery, but the spawn goes on
    let tracker := if outcome.waitHandle.isSome then registered else registered.retire
    if outcome.resumed then
      ({ s with
        process := some process
        job := some job
        shutdownEvent := some shutdownEvent
        serviceRequested := true
        pid := pid
        masterGeneration := receiverGeneration
        waitHandle := outcome.waitHandle
        waitGeneration := tracker
        unexpectedExitRecovery :=
          if outcome.waitHandle.isSome && arm then UnexpectedExitRecoveryPolicy.arm waitGeneration
          else UnexpectedExitRecoveryPolicy.retire
        cached := inputs }, true)
    else ({ s with waitGeneration := tracker.retire }, false)
  | _, _, _, _ => (s, false)

/-- `SharedWta::_SpawnLocked`, with the attempt added to the history. -/
def spawnLocked (inputs : SpawnInputs) (arm : Bool) (outcome : SpawnOutcome) : SharedWta × Bool :=
  let (s, published) :=
    match s.masterPipeName.or outcome.pipeName with
    | none => (s, false)
    | some pipeName => ({ s with masterPipeName := some pipeName }).publish inputs arm outcome
  ({ s with spawns := ⟨!arm, published⟩ :: s.spawns }, published)

/-- `SharedWta::_CleanupLocked`. The process that it returns is `s.process`. -/
def cleanupLocked : SharedWta :=
  { s with
    process := none
    job := none
    shutdownEvent := none
    waitHandle := none
    waitGeneration := s.waitGeneration.retire
    unexpectedExitRecovery := UnexpectedExitRecoveryPolicy.retire
    pid := 0
    masterGeneration := 0 }

def stopLocked : SharedWta :=
  { s with unexpectedExitRecovery := UnexpectedExitRecoveryPolicy.retire }.cleanupLocked

def ensureStartedLocked (inputs : SpawnInputs) (explicitRetry : Bool) (outcome : SpawnOutcome) :
    SharedWta × Bool :=
  if inputs.wtaPath = "" ∨ !s.serviceEnabled ∨ s.shuttingDown ∨ s.spawnSuppressed then (s, false)
  else if s.process.isSome then ({ s with serviceRequested := true }, true)
  else if s.serviceRequested && !explicitRetry then (s, false)
  else match s.spawnLocked inputs true outcome with
    | (s, false) => (s, false)
    | (s, true) => ({ s with serviceRequested := true }, true)

def ensureStarted (inputs : SpawnInputs) (outcome : SpawnOutcome) : SharedWta × Bool :=
  s.ensureStartedLocked inputs false outcome

def setEnabled (enabled : Bool) : SharedWta :=
  let s := { s with serviceEnabled := enabled }
  if enabled then s else { s with serviceRequested := false }.stopLocked

def shutdown : SharedWta :=
  { s with shuttingDown := true, serviceRequested := false }.stopLocked

def restartLocked (inputs : SpawnInputs) (exit : ExitOutcome) (outcome : SpawnOutcome) :
    SharedWta × Bool :=
  let retiredProcess := s.process
  let s := s.cleanupLocked
  if retiredProcess.isSome && !ensureProcessExitedBeforeRestart exit then
    ({ s with spawnSuppressed := true }, false)
  else s.spawnLocked inputs true outcome

/-- `SharedWta::Restart`, with the cached inputs. -/
def restart (exit : ExitOutcome) (outcome : SpawnOutcome) : SharedWta × Bool :=
  if !s.serviceEnabled ∨ s.shuttingDown ∨ s.spawnSuppressed then (s, false)
  else if s.cached.wtaPath = "" then (s, false)
  else if s.process.isNone then s.spawnLocked s.cached true outcome
  else s.restartLocked s.cached exit outcome

/-- `SharedWta::Restart`, with new inputs. -/
def restartWith (inputs : SpawnInputs) (exit : ExitOutcome) (outcome : SpawnOutcome) :
    SharedWta × Bool :=
  if inputs.wtaPath = "" then (s, false)
  else if !s.serviceEnabled ∨ s.shuttingDown ∨ s.spawnSuppressed then (s, false)
  else if s.process.isNone then
    if s.serviceRequested then s.spawnLocked inputs true outcome else (s, true)
  else if s.cached = inputs then (s, true)
  else s.restartLocked inputs exit outcome

def onProcessExited (generation : Generation) (outcome : SpawnOutcome) : SharedWta :=
  match s.waitGeneration.claim generation with
  | none => s
  | some (waitGeneration, _) =>
    let s := { s with waitGeneration }
    if s.process.isNone then
      { s with unexpectedExitRecovery := UnexpectedExitRecoveryPolicy.retire }
    else
      let s := { s with
        job := none
        shutdownEvent := none
        process := none
        waitHandle := none
        pid := 0
        masterGeneration := 0 }
      let (unexpectedExitRecovery, respawn) := s.unexpectedExitRecovery.shouldRespawn generation
        s.serviceRequested (s.spawnSuppressed || !s.serviceEnabled || s.shuttingDown)
        (s.cached.wtaPath != "")
      let s := { s with unexpectedExitRecovery }
      if respawn then (s.spawnLocked s.cached false outcome).1 else s

end SharedWta

/-! ### Leases -/

/-- `class SharedWtaLease`: whether there is an owner, and whether the lease counts as active. -/
structure SharedWtaLease where
  owner : Bool := false
  active : Bool := false
deriving DecidableEq

namespace SharedWta

variable (s : SharedWta)

def acquireLeaseLocked : SharedWta × SharedWtaLease :=
  ({ s with refCount := s.refCount + 1, activeRefCount := s.activeRefCount + 1 },
    { owner := true, active := true })

def acquirePane (inputs : SpawnInputs) (outcome : SpawnOutcome) : SharedWta × SharedWtaLease :=
  match s.ensureStartedLocked inputs true outcome with
  | (s, false) => (s, {})
  | (s, true) => s.acquireLeaseLocked

def acquireKeepRunningLease : SharedWta × SharedWtaLease :=
  if s.serviceRequested && s.serviceEnabled && !s.shuttingDown then s.acquireLeaseLocked
  else (s, {})

def releaseLease (active : Bool) : SharedWta :=
  { s with
    activeRefCount := if active then s.activeRefCount - 1 else s.activeRefCount
    refCount := s.refCount - 1 }

def retireLease : SharedWta := { s with activeRefCount := s.activeRefCount - 1 }

end SharedWta

/-- `SharedWtaLease::Reset`, and its destructor. -/
def SharedWtaLease.reset (lease : SharedWtaLease) (s : SharedWta) : SharedWta × SharedWtaLease :=
  if lease.owner then (s.releaseLease lease.active, {}) else (s, lease)

/-- `SharedWtaLease::_TakeForRetirement`: the lease that is returned. The source is left empty. -/
def SharedWtaLease.takeForRetirement (lease : SharedWtaLease) (s : SharedWta) :
    SharedWta × SharedWtaLease :=
  if lease.owner && lease.active then (s.retireLease, { lease with active := false })
  else (s, lease)

/-! ### Runs -/

/-- The service and the lease objects, those of panes and those that retire. -/
structure WtaRun where
  service : SharedWta := {}
  leases : List SharedWtaLease := []
deriving DecidableEq

/-- A call or a callback. -/
inductive WtaOp
  | ensureStarted (inputs : SpawnInputs) (outcome : SpawnOutcome)
  | acquirePane (inputs : SpawnInputs) (outcome : SpawnOutcome)
  | acquireKeepRunningLease
  | restart (exit : ExitOutcome) (outcome : SpawnOutcome)
  | restartWith (inputs : SpawnInputs) (exit : ExitOutcome) (outcome : SpawnOutcome)
  | setEnabled (enabled : Bool)
  | shutdown
  /-- The callback of a wait, at any time and any number of times. -/
  | processExited (generation : Generation) (outcome : SpawnOutcome)
  /-- A new lease is made from the lease of this number. -/
  | moveLease (source : ℕ)
  /-- A lease is assigned from another one. -/
  | assignLease (target source : ℕ)
  /-- A lease is reset or destroyed. At the end of its grace period a retiring lease is. -/
  | resetLease (i : ℕ)
  /-- `SharedWtaLease::Retire`: the coroutine owns a new lease. -/
  | retireLease (i : ℕ)
deriving DecidableEq

namespace WtaRun

variable (run : WtaRun)

/-- The lease of this number; there is none behind the last. -/
def lease (i : ℕ) : SharedWtaLease := run.leases.getD i {}

/-- The lease of this number is reset. -/
def resetLease (i : ℕ) : WtaRun :=
  let (service, lease) := (run.lease i).reset run.service
  { service, leases := run.leases.set i lease }

/-- A call or a callback takes place. -/
def step (run : WtaRun) : WtaOp → WtaRun
  | .ensureStarted inputs outcome =>
    { run with service := (run.service.ensureStarted inputs outcome).1 }
  | .acquirePane inputs outcome =>
    let (service, lease) := run.service.acquirePane inputs outcome
    { service, leases := run.leases ++ [lease] }
  | .acquireKeepRunningLease =>
    let (service, lease) := run.service.acquireKeepRunningLease
    { service, leases := run.leases ++ [lease] }
  | .restart exit outcome => { run with service := (run.service.restart exit outcome).1 }
  | .restartWith inputs exit outcome =>
    { run with service := (run.service.restartWith inputs exit outcome).1 }
  | .setEnabled enabled => { run with service := run.service.setEnabled enabled }
  | .shutdown => { run with service := run.service.shutdown }
  | .processExited generation outcome =>
    { run with service := run.service.onProcessExited generation outcome }
  | .moveLease source =>
    { run with leases := run.leases.set source {} ++ [run.lease source] }
  | .assignLease target source =>
    if target = source ∨ run.leases.length ≤ target then run
    else
      let run := run.resetLease target
      { run with leases := (run.leases.set target (run.lease source)).set source {} }
  | .resetLease i => run.resetLease i
  | .retireLease i =>
    if (run.lease i).owner then
      let (service, retiring) := (run.lease i).takeForRetirement run.service
      { service, leases := run.leases.set i {} ++ [retiring] }
    else run

end WtaRun

end IntelligentTerminal.Wta
