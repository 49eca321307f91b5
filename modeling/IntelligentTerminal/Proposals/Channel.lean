import IntelligentTerminal.Sessions.Event

/-!
# The channel of a proposal

A helper has one proposal channel at a time. It is issued for a turn, the pipe server or the MCP
server begins to validate a proposal on it, the proposal is accepted or rejected, and the user's
confirmation takes the channel out of its slot as a claim, which is finalized later. A channel that
was superseded, resolved or cut off leaves a tombstone.

Every function runs under one lock. `now` is the time that it reads off the clock. What is sent on
the `oneshot` channels of the callers is `delivered`, the last first. The text of a fresh UUID is an
argument of the function that draws it.

Source: `tools/wta/src/agent_tools/action_proposal/channel.rs`, lines 12-33, 86-187 and 189-565.
-/

namespace IntelligentTerminal.Proposals

open Sessions (Uuid)

/-! ### Channels -/

def maxValidationRetries : ℕ := 2

def maxTombstones : ℕ := 4

/-- `TOMBSTONE_TTL`, in milliseconds. -/
def tombstoneTtl : ℕ := 3 * 60 * 1000

structure ProposalChannel where
  helperInstanceId : Uuid
  turnNonce : Uuid
deriving DecidableEq

structure ProposalBinding where
  sessionId : String
  promptId : ℕ
  activeTarget : Option String
  isAutofix : Bool
deriving DecidableEq

inductive ProposalChannelState
  | issued
  | validating
  | awaitingUser
deriving DecidableEq

inductive ProposalValidationStatus
  | accepted
  | unknownChannel
  | helperMismatch
  | stale
  | superseded
  | alreadyConsumed
  | invalidSchema
  | rejected
  | unavailable
deriving DecidableEq

inductive ProposalFinalStatus
  | confirmed
  | cancelled
  | superseded
  | timedOut
  | unavailable
deriving DecidableEq

structure ChannelFailure where
  status : ProposalValidationStatus
  reason : String
  retryable : Bool
deriving DecidableEq

structure ValidationContext where
  proposalId : String
  binding : ProposalBinding
deriving DecidableEq

variable {Hash Responder : Type*} [DecidableEq Hash]

structure ActiveChannel (Responder : Type*) where
  channel : ProposalChannel
  binding : ProposalBinding
  state : ProposalChannelState
  validationRetries : ℕ
  proposalId : Option String
  finalResponder : Option Responder
deriving DecidableEq

structure Tombstone (Hash : Type*) where
  channelHash : Hash
  status : Option ProposalFinalStatus
  createdAt : ℕ
deriving DecidableEq

structure ConfirmationClaim (Hash Responder : Type*) where
  channelHash : Hash
  finalResponder : Option Responder
deriving DecidableEq

structure ProposalChannelManager (Hash Responder : Type*) where
  helperInstanceId : Uuid
  pipeAvailable : Bool := true
  agentTransportAvailable : Bool := true
  active : Option (ActiveChannel Responder) := none
  tombstones : List (Tombstone Hash) := []
  delivered : List (Responder × ProposalFinalStatus) := []

/-- The failure of a function whose transport is down. -/
def transportUnavailable : ChannelFailure :=
  ⟨.unavailable, "proposal transport is unavailable", false⟩

namespace ProposalChannelManager

/-- Both transports are up. -/
def transportAvailable (m : ProposalChannelManager Hash Responder) : Bool :=
  m.pipeAvailable && m.agentTransportAvailable

/-! ### Tombstones -/

def pruneTombstones (m : ProposalChannelManager Hash Responder) (now : ℕ) :
    ProposalChannelManager Hash Responder :=
  let fresh := m.tombstones.dropWhile fun item => decide (tombstoneTtl ≤ now - item.createdAt)
  { m with tombstones := fresh.drop (fresh.length - maxTombstones) }

/-- Puts a tombstone and prunes. -/
def bury (m : ProposalChannelManager Hash Responder) (channelHash : Hash)
    (status : Option ProposalFinalStatus) (now : ℕ) : ProposalChannelManager Hash Responder :=
  let buried := m.tombstones ++ [⟨channelHash, status, now⟩]
  { m with tombstones := buried }.pruneTombstones now

/-- Sends a status to a responder, if there is one. -/
def send (m : ProposalChannelManager Hash Responder) (responder : Option Responder)
    (status : ProposalFinalStatus) : ProposalChannelManager Hash Responder :=
  match responder with
  | none => m
  | some responder => { m with delivered := (responder, status) :: m.delivered }

variable (channelHash : ProposalChannel → Hash)

def invalidateActive (m : ProposalChannelManager Hash Responder) (status : ProposalFinalStatus)
    (now : ℕ) : ProposalChannelManager Hash Responder :=
  match m.active with
  | none => m
  | some active =>
    ({ m with active := none }.send active.finalResponder status).bury (channelHash active.channel)
      (some status) now

def tombstoneFailure : Option ProposalFinalStatus → ChannelFailure
  | some .superseded => ⟨.superseded, "channel was superseded by a newer turn", false⟩
  | none | some .unavailable => ⟨.unavailable, "owning Helper became unavailable", false⟩
  | _ => ⟨.alreadyConsumed, "channel already reached a terminal state", false⟩

def inactiveFailure (m : ProposalChannelManager Hash Responder) (channel : ProposalChannel) :
    ChannelFailure :=
  match m.tombstones.reverse.find? (·.channelHash = channelHash channel) with
  | some tombstone => tombstoneFailure tombstone.status
  | none => ⟨.unknownChannel, "channel is not active on this Helper", false⟩

def ensureLocalChannel (m : ProposalChannelManager Hash Responder) (channel : ProposalChannel) :
    Except ChannelFailure Unit :=
  if channel.helperInstanceId ≠ m.helperInstanceId then
    .error ⟨.helperMismatch, "channel belongs to another Helper", false⟩
  else .ok ()

/-! ### Issue and validation -/

def issue (m : ProposalChannelManager Hash Responder) (nonce : Uuid) (binding : ProposalBinding)
    (now : ℕ) : ProposalChannelManager Hash Responder × Except ChannelFailure ProposalChannel :=
  let m := m.pruneTombstones now
  if !m.transportAvailable then (m, .error transportUnavailable)
  else
    let m := m.invalidateActive channelHash .superseded now
    let channel : ProposalChannel := ⟨m.helperInstanceId, nonce⟩
    ({ m with
        active :=
          some
            { channel, binding, state := .issued, validationRetries := 0, proposalId := none
              finalResponder := none } },
      .ok channel)

def validatePermission (m : ProposalChannelManager Hash Responder) (sessionId : String)
    (channel : ProposalChannel) (now : ℕ) :
    ProposalChannelManager Hash Responder × Except ChannelFailure Unit :=
  let m := m.pruneTombstones now
  match m.ensureLocalChannel channel with
  | .error failure => (m, .error failure)
  | .ok _ =>
    if !m.transportAvailable then (m, .error transportUnavailable)
    else
      match m.active with
      | none => (m, .error (m.inactiveFailure channelHash channel))
      | some active =>
        if active.channel ≠ channel then (m, .error (m.inactiveFailure channelHash channel))
        else if active.binding.sessionId ≠ sessionId then
          (m, .error ⟨.stale, "channel does not belong to the requesting ACP session", false⟩)
        else if active.state ≠ .issued then
          (m, .error ⟨.alreadyConsumed,
            "channel is already being validated or awaiting the user", false⟩)
        else (m, .ok ())

def validateMcpPermission (m : ProposalChannelManager Hash Responder) (sessionId : String) :
    Except ChannelFailure Unit :=
  if !m.transportAvailable then .error transportUnavailable
  else if m.active.any fun active =>
      active.binding.sessionId = sessionId && active.state = .issued then
    .ok ()
  else .error ⟨.stale, "MCP proposal tool does not belong to the active turn", false⟩

def startValidation (m : ProposalChannelManager Hash Responder) (active : ActiveChannel Responder)
    (proposalId : String) :
    ProposalChannelManager Hash Responder × Except ChannelFailure ValidationContext :=
  ({ m with active := some { active with state := .validating, proposalId := some proposalId } },
    .ok ⟨proposalId, active.binding⟩)

def beginValidation (m : ProposalChannelManager Hash Responder) (proposalId : String)
    (channel : ProposalChannel) (now : ℕ) :
    ProposalChannelManager Hash Responder × Except ChannelFailure ValidationContext :=
  let m := m.pruneTombstones now
  match m.ensureLocalChannel channel with
  | .error failure => (m, .error failure)
  | .ok _ =>
    match m.active with
    | none => (m, .error (m.inactiveFailure channelHash channel))
    | some active =>
      if active.channel ≠ channel then (m, .error (m.inactiveFailure channelHash channel))
      else if !m.transportAvailable then (m, .error transportUnavailable)
      else if active.state ≠ .issued then
        (m, .error ⟨.alreadyConsumed,
          "channel is already being validated or awaiting the user", false⟩)
      else m.startValidation active proposalId

def beginMcpValidation (m : ProposalChannelManager Hash Responder) (proposalId sessionId : String)
    (now : ℕ) : ProposalChannelManager Hash Responder × Except ChannelFailure ValidationContext :=
  let m := m.pruneTombstones now
  if !m.transportAvailable then (m, .error transportUnavailable)
  else
    match m.active with
    | none => (m, .error ⟨.stale, "no proposal-enabled turn is active", false⟩)
    | some active =>
      if active.binding.sessionId ≠ sessionId then
        (m, .error ⟨.stale, "MCP proposal session does not own the active turn", false⟩)
      else if active.state ≠ .issued then
        (m, .error ⟨.alreadyConsumed,
          "a proposal is already being validated or awaiting the user", false⟩)
      else m.startValidation active proposalId

def acceptValidationInner (m : ProposalChannelManager Hash Responder) (proposalId : String)
    (finalResponder : Option Responder) : ProposalChannelManager Hash Responder × Bool :=
  match m.active with
  | none => (m, false)
  | some active =>
    if active.state ≠ .validating ∨ active.proposalId ≠ some proposalId then (m, false)
    else ({ m with active := some { active with state := .awaitingUser, finalResponder } }, true)

def acceptValidation (m : ProposalChannelManager Hash Responder) (proposalId : String)
    (finalResponder : Responder) : ProposalChannelManager Hash Responder × Bool :=
  m.acceptValidationInner proposalId (some finalResponder)

def acceptValidationDetached (m : ProposalChannelManager Hash Responder) (proposalId : String) :
    ProposalChannelManager Hash Responder × Bool :=
  m.acceptValidationInner proposalId none

/-- `reject_validation`. The count of retries is a `u8`. -/
def rejectValidation (m : ProposalChannelManager Hash Responder) (proposalId : String)
    (retryable : Bool) (now : ℕ) : ProposalChannelManager Hash Responder × Bool :=
  match m.active with
  | none => (m, false)
  | some active =>
    if active.state ≠ .validating ∨ active.proposalId ≠ some proposalId then (m, false)
    else
      let active := { active with validationRetries := min (active.validationRetries + 1) 255 }
      if retryable ∧ active.validationRetries ≤ maxValidationRetries then
        ({ m with active := some { active with state := .issued, proposalId := none } }, true)
      else
        ({ m with active := some active }.invalidateActive channelHash .cancelled now, false)

/-! ### Confirmation -/

def claimConfirmation (m : ProposalChannelManager Hash Responder) (proposalId : String) (now : ℕ) :
    ProposalChannelManager Hash Responder × Option (ConfirmationClaim Hash Responder) :=
  match m.active with
  | none => (m, none)
  | some active =>
    if active.state ≠ .awaitingUser ∨ active.proposalId ≠ some proposalId then (m, none)
    else
      ({ m with active := none }.bury (channelHash active.channel) none now,
        some ⟨channelHash active.channel, active.finalResponder⟩)

/-- Changes the last tombstone of a channel. -/
def updateLast (channelHash : Hash) (f : Tombstone Hash → Tombstone Hash) :
    List (Tombstone Hash) → List (Tombstone Hash)
  | [] => []
  | item :: items =>
    if item.channelHash = channelHash ∧ items.all (·.channelHash ≠ channelHash) then f item :: items
    else item :: updateLast channelHash f items

def finalizeConfirmation (m : ProposalChannelManager Hash Responder)
    (claim : ConfirmationClaim Hash Responder) (status : ProposalFinalStatus) (now : ℕ) :
    ProposalChannelManager Hash Responder :=
  let m :=
    if m.tombstones.any (·.channelHash = claim.channelHash) then
      let refreshed := updateLast claim.channelHash
        (fun item => { item with status := some status, createdAt := now }) m.tombstones
      { m with tombstones := refreshed }.pruneTombstones now
    else m.bury claim.channelHash (some status) now
  m.send claim.finalResponder status

def resolveFinal (m : ProposalChannelManager Hash Responder) (proposalId : String)
    (status : ProposalFinalStatus) (now : ℕ) : ProposalChannelManager Hash Responder × Bool :=
  if m.active.any fun active => active.proposalId = some proposalId then
    (m.invalidateActive channelHash status now, true)
  else (m, false)

/-! ### Transports -/

def setPipeAvailable (m : ProposalChannelManager Hash Responder) (available : Bool) (now : ℕ) :
    ProposalChannelManager Hash Responder :=
  let m := if !available then m.invalidateActive channelHash .unavailable now else m
  { m with pipeAvailable := available }

def setAgentTransportAvailable (m : ProposalChannelManager Hash Responder) (available : Bool)
    (now : ℕ) : ProposalChannelManager Hash Responder :=
  let m := if !available then m.invalidateActive channelHash .unavailable now else m
  { m with agentTransportAvailable := available }

end ProposalChannelManager

end IntelligentTerminal.Proposals
