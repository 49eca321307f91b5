import IntelligentTerminal.Data.Table
import Mathlib.Data.Finset.Insert
import Mathlib.Data.List.Nodup

/-!
# Retirement transactions

Several windows retire the same thing together: they register under one request, and share an
operation. An operation lives while a continuation of it is outstanding. When it is completed and
has none left it is kept in a history, so that a late window still joins it, until the history is
pruned or the operation expires.

The calls take a mutex, so they happen one after another. The counter of ids is a natural number.

Source: `src/cascadia/TerminalApp/SharedWta.cpp`, lines 51-219, and
`src/cascadia/TerminalApp/SharedWta.h`, lines 73-113.
-/

namespace IntelligentTerminal.Wta

/-- `RetirementCoordinator::Operation`. -/
structure Operation where
  completed : Bool := false
  expireAfterContinuations : Bool := false
  recordedInHistory : Bool := false
  continuationCount : ℕ := 0
  requestId : Option String := none
  claimedActions : Finset String := ∅
deriving DecidableEq

structure RetirementRegistration where
  operationId : String
  shouldPublish : Bool
  alreadyCompleted : Bool
deriving DecidableEq

/-- `class RetirementCoordinator`, and what `GetCurrentProcessId` returns. -/
structure RetirementCoordinator where
  processId : ℕ
  nextOperationId : ℕ := 0
  operations : Table String Operation := ∅
  allOperationsByRequest : Table String String := ∅
  completedOperations : List String := []

/-- `RetirementCoordinator::CompletedHistoryLimit`. -/
def completedHistoryLimit : ℕ := 64

/-- The id that `RetirementCoordinator::_CreateIdLocked` makes of a count. -/
def operationIdOf (processId : ℕ) (kind : String) (n : ℕ) : String :=
  toString processId ++ "-" ++ kind ++ "-" ++ toString n

namespace RetirementCoordinator

variable (c : RetirementCoordinator)

def createIdLocked (kind : String) : RetirementCoordinator × String :=
  ({ c with nextOperationId := c.nextOperationId + 1 },
    operationIdOf c.processId kind (c.nextOperationId + 1))

def createRequestId : RetirementCoordinator × String := c.createIdLocked "request"

def eraseLocked (operationId : String) : RetirementCoordinator :=
  match c.operations.lookup operationId with
  | none => c
  | some operation => { c with
      allOperationsByRequest := match operation.requestId with
        | some request =>
          if c.allOperationsByRequest.lookup request = some operationId then
            c.allOperationsByRequest.erase request
          else c.allOperationsByRequest
        | none => c.allOperationsByRequest
      operations := c.operations.erase operationId }

/-- The loop of `RetirementCoordinator::_PruneCompletedLocked`, when these are the completed
operations. -/
def pruneLoop (c : RetirementCoordinator) : List String → RetirementCoordinator
  | [] => { c with completedOperations := [] }
  | operationId :: rest =>
    if completedHistoryLimit < (operationId :: rest).length then
      (c.eraseLocked operationId).pruneLoop rest
    else { c with completedOperations := operationId :: rest }

def pruneCompletedLocked : RetirementCoordinator := c.pruneLoop c.completedOperations

/-- `RetirementCoordinator::_FinalizeCompletedLocked`, of the operation with this id. -/
def finalizeCompletedLocked (operationId : String) (operation : Operation) :
    RetirementCoordinator :=
  if !operation.completed || operation.continuationCount ≠ 0 then c
  else if operation.expireAfterContinuations then c.eraseLocked operationId
  else if !operation.recordedInHistory then
    { c with
      operations := c.operations.insert operationId { operation with recordedInHistory := true }
      completedOperations := c.completedOperations ++ [operationId] }.pruneCompletedLocked
  else c

/-- The operation that a registration joins. -/
def joinedOperation (scopeAll : Bool) (requestId : String) : Option (String × Operation) :=
  if scopeAll && requestId ≠ "" then
    (c.allOperationsByRequest.lookup requestId).bind fun operationId =>
      (c.operations.lookup operationId).map fun operation => (operationId, operation)
  else none

/-- The part of `RetirementCoordinator::Register` that joins an operation. -/
def join (operationId : String) (operation : Operation) : RetirementCoordinator :=
  { c with
    completedOperations :=
      if operation.recordedInHistory then c.completedOperations.erase operationId
      else c.completedOperations
    operations := c.operations.insert operationId { operation with
      recordedInHistory := false
      continuationCount := operation.continuationCount + 1 } }

/-- The part of `RetirementCoordinator::Register` that makes an operation. -/
def create (scopeAll : Bool) (requestId : String) : RetirementCoordinator × String :=
  let (c, operationId) := c.createIdLocked "operation"
  let request := if scopeAll && requestId ≠ "" then some requestId else none
  ({ c with
    allOperationsByRequest := match request with
      | some request => c.allOperationsByRequest.insert request operationId
      | none => c.allOperationsByRequest
    operations := c.operations.insert operationId {
      requestId := request, continuationCount := 1 } }, operationId)

/-- `RetirementCoordinator::Register`. The reason is not used. -/
def register (scopeAll : Bool) (requestId : String) :
    RetirementCoordinator × RetirementRegistration :=
  match c.joinedOperation scopeAll requestId with
  | some (operationId, operation) => (c.join operationId operation,
      { operationId, shouldPublish := false, alreadyCompleted := operation.completed })
  | none => ((c.create scopeAll requestId).1, {
      operationId := (c.create scopeAll requestId).2
      shouldPublish := true
      alreadyCompleted := false })

def complete (operationId : String) (expireAfterContinuations : Bool) :
    RetirementCoordinator × Bool :=
  match c.operations.lookup operationId with
  | none => (c, false)
  | some operation =>
    let operation := { operation with
      completed := true
      expireAfterContinuations := operation.expireAfterContinuations || expireAfterContinuations }
    ({ c with operations := c.operations.insert operationId operation }.finalizeCompletedLocked
      operationId operation, true)

def releaseContinuation (operationId : String) : RetirementCoordinator :=
  match c.operations.lookup operationId with
  | none => c
  | some operation =>
    let operation := { operation with continuationCount := operation.continuationCount - 1 }
    let c := { c with operations := c.operations.insert operationId operation }
    if operation.continuationCount = 0 ∧ !operation.completed then c.eraseLocked operationId
    else c.finalizeCompletedLocked operationId operation

def expire (operationId : String) : RetirementCoordinator := c.eraseLocked operationId

def claimAction (operationId action : String) : RetirementCoordinator × Bool :=
  match c.operations.lookup operationId with
  | none => (c, false)
  | some operation => ({ c with
      operations := c.operations.insert operationId { operation with
        claimedActions := insert action operation.claimedActions } },
      action ∉ operation.claimedActions)

end RetirementCoordinator

/-- The calls of a coordinator, by any window. -/
inductive RetirementOp
  | createRequestId
  | register (scopeAll : Bool) (requestId : String)
  | complete (operationId : String) (expireAfterContinuations : Bool)
  | releaseContinuation (operationId : String)
  | expire (operationId : String)
  | claimAction (operationId action : String)
deriving DecidableEq

namespace RetirementOp

/-- What a call does. -/
def step (c : RetirementCoordinator) : RetirementOp → RetirementCoordinator
  | createRequestId => c.createRequestId.1
  | register scopeAll requestId => (c.register scopeAll requestId).1
  | complete operationId expireAfterContinuations =>
    (c.complete operationId expireAfterContinuations).1
  | releaseContinuation operationId => c.releaseContinuation operationId
  | expire operationId => c.expire operationId
  | claimAction operationId action => (c.claimAction operationId action).1

/-- The operation that a call registers for. -/
def registered (c : RetirementCoordinator) : RetirementOp → Option String
  | register scopeAll requestId => some (c.register scopeAll requestId).2.operationId
  | _ => none

/-- The operation that a call releases a continuation of. -/
def released : RetirementOp → Option String
  | releaseContinuation operationId => some operationId
  | _ => none

end RetirementOp

end IntelligentTerminal.Wta
