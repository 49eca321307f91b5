import IntelligentTerminal.Proposals.Channel

/-!
# Calls on a proposal channel

The pipe server, the MCP server and the user call the manager in any order. A run keeps the claims
that were taken and not yet finalized, and a log of the calls. Each entry of the log names the
channel that was in the slot when the call was made.

A claim cannot be copied, so a claim that is finalized is one of those that are kept. A responder
cannot be copied either, so no two calls have the same.

Source: `tools/wta/src/agent_tools/action_proposal/channel.rs`, lines 189-565.
-/

namespace IntelligentTerminal.Proposals

open Sessions (Uuid)

/-! ### Calls -/

variable {Hash Responder : Type*}

/-- A call, with what it draws. -/
inductive ChannelOp (Responder : Type*)
  | issue (nonce : Uuid) (binding : ProposalBinding)
  | validatePermission (sessionId : String) (channel : ProposalChannel)
  | validateMcpPermission (sessionId : String)
  | beginValidation (proposalId : String) (channel : ProposalChannel)
  | beginMcpValidation (proposalId sessionId : String)
  | acceptValidation (proposalId : String) (finalResponder : Responder)
  | acceptValidationDetached (proposalId : String)
  | rejectValidation (proposalId : String) (retryable : Bool)
  | claimConfirmation (proposalId : String)
  | finalizeConfirmation (index : ℕ) (status : ProposalFinalStatus)
  | resolveFinal (proposalId : String) (status : ProposalFinalStatus)
  | setPipeAvailable (available : Bool)
  | setAgentTransportAvailable (available : Bool)
deriving DecidableEq

/-- What a call returns. -/
inductive Reply (Hash Responder : Type*)
  | unit
  | issued (channel : Except ChannelFailure ProposalChannel)
  | permission (granted : Except ChannelFailure Unit)
  | validation (context : Except ChannelFailure ValidationContext)
  | flag (done : Bool)
  | claim (held : Option (ConfirmationClaim Hash Responder))

/-- The call did what it was asked for. -/
def Reply.succeeds : Reply Hash Responder → Bool
  | unit => true
  | issued channel => channel.isOk
  | permission granted => granted.isOk
  | validation context => context.isOk
  | flag done => done
  | .claim held => held.isSome

namespace ChannelOp

/-- The nonce that a call draws. -/
def nonce : ChannelOp Responder → Option Uuid
  | issue nonce _ => some nonce
  | _ => none

/-- The proposal id that a call draws. -/
def drawnId : ChannelOp Responder → Option String
  | beginValidation proposalId _ | beginMcpValidation proposalId _ => some proposalId
  | _ => none

/-- The responder that a call hands over. -/
def responder : ChannelOp Responder → Option Responder
  | acceptValidation _ finalResponder => some finalResponder
  | _ => none

/-- The channel that a call names. -/
def channel : ChannelOp Responder → Option ProposalChannel
  | validatePermission _ channel | beginValidation _ channel => some channel
  | _ => none

/-- The proposal id that a call names. -/
def target : ChannelOp Responder → Option String
  | acceptValidation proposalId _ | acceptValidationDetached proposalId
  | rejectValidation proposalId _ | claimConfirmation proposalId | resolveFinal proposalId _ =>
    some proposalId
  | _ => none

/-- The calls that end the wait for the user: a new channel, the resolution of the proposal and the
loss of a transport. -/
def Breaks (proposalId : String) : ChannelOp Responder → Prop
  | issue _ _ => True
  | resolveFinal proposalId' _ => proposalId' = proposalId
  | setPipeAvailable available | setAgentTransportAvailable available => available = false
  | _ => False

end ChannelOp

/-- A call that was made: the channel that was in the slot, and what was returned. -/
structure Entry (Hash Responder : Type*) where
  op : ChannelOp Responder
  slot : Option ProposalChannel
  reply : Reply Hash Responder

namespace Entry

/-- The channel that was issued. -/
def issued (e : Entry Hash Responder) : Option ProposalChannel :=
  match e.reply with
  | .issued (.ok channel) => some channel
  | _ => none

/-- The proposal whose validation began. -/
def begun (e : Entry Hash Responder) : Option String :=
  match e.reply with
  | .validation (.ok context) => some context.proposalId
  | _ => none

/-- The proposal that was accepted, and the responder that was handed over. -/
def accepted (e : Entry Hash Responder) : Option (String × Option Responder) :=
  match e.op, e.reply with
  | .acceptValidation proposalId responder, .flag true => some (proposalId, some responder)
  | .acceptValidationDetached proposalId, .flag true => some (proposalId, none)
  | _, _ => none

/-- The proposal whose confirmation was claimed. -/
def claimed (e : Entry Hash Responder) : Option String :=
  match e.op, e.reply with
  | .claimConfirmation proposalId, .claim (some _) => some proposalId
  | _, _ => none

/-- What was issued, begun, accepted and claimed. -/
def marks (e : Entry Hash Responder) :
    Option ProposalChannel × Option String × Option (String × Option Responder) × Option String :=
  (e.issued, e.begun, e.accepted, e.claimed)

theorem marks_eq_iff {e : Entry Hash Responder} {c : Option ProposalChannel} {id : Option String}
    {accepted : Option (String × Option Responder)} {id' : Option String} :
    e.marks = (c, id, accepted, id') ↔
      e.issued = c ∧ e.begun = id ∧ e.accepted = accepted ∧ e.claimed = id' := by
  simp only [marks, Prod.mk.injEq]

end Entry

/-! ### Runs -/

/-- A manager with the claims that its callers hold, each with the channel that it is for, and the
calls that were made, the last first. -/
structure World (Hash Responder : Type*) where
  manager : ProposalChannelManager Hash Responder
  claims : List (ProposalChannel × ConfirmationClaim Hash Responder) := []
  log : List (Entry Hash Responder) := []

namespace World

variable [DecidableEq Hash] (channelHash : ProposalChannel → Hash)

def slot (w : World Hash Responder) : Option ProposalChannel := w.manager.active.map (·.channel)

/-- What a call does to the manager, and what it returns. -/
def call (w : World Hash Responder) (op : ChannelOp Responder) (now : ℕ) :
    ProposalChannelManager Hash Responder × Reply Hash Responder :=
  match op with
  | .issue nonce binding => (w.manager.issue channelHash nonce binding now).map id .issued
  | .validatePermission sessionId channel =>
    (w.manager.validatePermission channelHash sessionId channel now).map id .permission
  | .validateMcpPermission sessionId =>
    (w.manager, .permission (w.manager.validateMcpPermission sessionId))
  | .beginValidation proposalId channel =>
    (w.manager.beginValidation channelHash proposalId channel now).map id .validation
  | .beginMcpValidation proposalId sessionId =>
    (w.manager.beginMcpValidation proposalId sessionId now).map id .validation
  | .acceptValidation proposalId finalResponder =>
    (w.manager.acceptValidation proposalId finalResponder).map id .flag
  | .acceptValidationDetached proposalId =>
    (w.manager.acceptValidationDetached proposalId).map id .flag
  | .rejectValidation proposalId retryable =>
    (w.manager.rejectValidation channelHash proposalId retryable now).map id .flag
  | .claimConfirmation proposalId =>
    (w.manager.claimConfirmation channelHash proposalId now).map id .claim
  | .finalizeConfirmation index status =>
    match w.claims[index]? with
    | none => (w.manager, .unit)
    | some held => (w.manager.finalizeConfirmation held.2 status now, .unit)
  | .resolveFinal proposalId status =>
    (w.manager.resolveFinal channelHash proposalId status now).map id .flag
  | .setPipeAvailable available => (w.manager.setPipeAvailable channelHash available now, .unit)
  | .setAgentTransportAvailable available =>
    (w.manager.setAgentTransportAvailable channelHash available now, .unit)

/-- The claims that are held after a call. -/
def claimsAfter (w : World Hash Responder) (op : ChannelOp Responder)
    (reply : Reply Hash Responder) : List (ProposalChannel × ConfirmationClaim Hash Responder) :=
  match op, reply, w.slot with
  | .finalizeConfirmation index _, _, _ => w.claims.eraseIdx index
  | _, .claim (some claim), some channel => (channel, claim) :: w.claims
  | _, _, _ => w.claims

/-- The entry of a call. -/
def entry (w : World Hash Responder) (op : ChannelOp Responder) (now : ℕ) :
    Entry Hash Responder where
  op := op
  slot := w.slot
  reply := (w.call channelHash op now).2

/-- A call at a time. -/
def step (w : World Hash Responder) (e : ChannelOp Responder × ℕ) : World Hash Responder where
  manager := (w.call channelHash e.1 e.2).1
  claims := w.claimsAfter e.1 (w.call channelHash e.1 e.2).2
  log := w.entry channelHash e.1 e.2 :: w.log

/-- Calls on a new manager. -/
def run (helperInstanceId : Uuid) (calls : List (ChannelOp Responder × ℕ)) :
    World Hash Responder :=
  calls.foldl (step channelHash) { manager := { helperInstanceId } }

end World

/-- Nonces and proposal ids are drawn afresh, and a responder is handed over once. -/
structure Fresh (calls : List (ChannelOp Responder × ℕ)) : Prop where
  nonces : (calls.filterMap (·.1.nonce)).Nodup
  proposalIds : (calls.filterMap (·.1.drawnId)).Nodup
  responders : (calls.filterMap (·.1.responder)).Nodup

/-! ### What the functions of the manager leave alone -/

namespace ProposalChannelManager

variable (m : ProposalChannelManager Hash Responder)
  (channelHash : ProposalChannel → Hash)

@[simp]
theorem active_pruneTombstones (now : ℕ) : (m.pruneTombstones now).active = m.active := rfl

@[simp]
theorem delivered_pruneTombstones (now : ℕ) : (m.pruneTombstones now).delivered = m.delivered := rfl

@[simp]
theorem transportAvailable_pruneTombstones (now : ℕ) :
    (m.pruneTombstones now).transportAvailable = m.transportAvailable := rfl

@[simp]
theorem active_bury (hash : Hash) (status : Option ProposalFinalStatus) (now : ℕ) :
    (m.bury hash status now).active = m.active := rfl

@[simp]
theorem delivered_bury (hash : Hash) (status : Option ProposalFinalStatus) (now : ℕ) :
    (m.bury hash status now).delivered = m.delivered := rfl

@[simp]
theorem transportAvailable_bury (hash : Hash) (status : Option ProposalFinalStatus) (now : ℕ) :
    (m.bury hash status now).transportAvailable = m.transportAvailable := rfl

@[simp]
theorem active_send (responder : Option Responder) (status : ProposalFinalStatus) :
    (m.send responder status).active = m.active := by
  cases responder <;> rfl

@[simp]
theorem transportAvailable_send (responder : Option Responder) (status : ProposalFinalStatus) :
    (m.send responder status).transportAvailable = m.transportAvailable := by
  cases responder <;> rfl

@[simp]
theorem delivered_send (responder : Option Responder) (status : ProposalFinalStatus) :
    (m.send responder status).delivered = responder.toList.map (·, status) ++ m.delivered := by
  cases responder <;> rfl

@[simp]
theorem active_invalidateActive (status : ProposalFinalStatus) (now : ℕ) :
    (m.invalidateActive channelHash status now).active = none := by
  unfold invalidateActive
  split
  · assumption
  · rw [active_bury, active_send]

@[simp]
theorem delivered_invalidateActive (status : ProposalFinalStatus) (now : ℕ) :
    (m.invalidateActive channelHash status now).delivered =
      (m.active.bind (·.finalResponder)).toList.map (·, status) ++ m.delivered := by
  unfold invalidateActive
  split
  · next h => rw [h, Option.bind_none, Option.toList_none, List.map_nil, List.nil_append]
  · next active h => rw [h, delivered_bury, delivered_send, Option.bind_some]

@[simp]
theorem transportAvailable_invalidateActive (status : ProposalFinalStatus) (now : ℕ) :
    (m.invalidateActive channelHash status now).transportAvailable = m.transportAvailable := by
  unfold invalidateActive
  split
  · rfl
  · rw [transportAvailable_bury, transportAvailable_send]
    rfl

variable [DecidableEq Hash]

@[simp]
theorem active_finalizeConfirmation (claim : ConfirmationClaim Hash Responder)
    (status : ProposalFinalStatus) (now : ℕ) :
    (m.finalizeConfirmation claim status now).active = m.active := by
  unfold finalizeConfirmation
  simp only [active_send]
  split_ifs <;> rfl

@[simp]
theorem delivered_finalizeConfirmation (claim : ConfirmationClaim Hash Responder)
    (status : ProposalFinalStatus) (now : ℕ) :
    (m.finalizeConfirmation claim status now).delivered =
      claim.finalResponder.toList.map (·, status) ++ m.delivered := by
  unfold finalizeConfirmation
  simp only [delivered_send]
  split_ifs <;> rfl

@[simp]
theorem transportAvailable_finalizeConfirmation (claim : ConfirmationClaim Hash Responder)
    (status : ProposalFinalStatus) (now : ℕ) :
    (m.finalizeConfirmation claim status now).transportAvailable = m.transportAvailable := by
  unfold finalizeConfirmation
  simp only [transportAvailable_send]
  split_ifs <;> rfl

end ProposalChannelManager

/-! ### What a call can do -/

namespace World

/-- What a call can do to the channel in the slot, to the claims and to the responders. -/
inductive Move (w : World Hash Responder) (m : ProposalChannelManager Hash Responder)
    (claims : List (ProposalChannel × ConfirmationClaim Hash Responder))
    (e : Entry Hash Responder) : Prop
  | stay (active : m.active = w.manager.active) (delivered : m.delivered = w.manager.delivered)
      (claims : claims = w.claims) (marks : e.marks = (none, none, none, none))
      (unbroken : ∀ a id, w.manager.active = some a → w.manager.transportAvailable →
        a.proposalId = some id → ¬e.op.Breaks id)
  | issue (c : ProposalChannel) (binding : ProposalBinding) (nonce : e.op.nonce = some c.turnNonce)
      (active : m.active = some ⟨c, binding, .issued, 0, none, none⟩)
      (delivered : m.delivered = (w.manager.active.bind (·.finalResponder)).toList.map
        (·, .superseded) ++ w.manager.delivered)
      (claims : claims = w.claims) (marks : e.marks = (some c, none, none, none))
  | beginValidation (a : ActiveChannel Responder) (id : String) (before : w.manager.active = some a)
      (state : a.state = .issued) (drawn : e.op.drawnId = some id)
      (active : m.active = some { a with state := .validating, proposalId := some id })
      (delivered : m.delivered = w.manager.delivered) (claims : claims = w.claims)
      (marks : e.marks = (none, some id, none, none))
  | accept (a : ActiveChannel Responder) (id : String) (responder : Option Responder)
      (before : w.manager.active = some a) (state : a.state = .validating)
      (proposal : a.proposalId = some id) (drawn : e.op.responder = responder)
      (active : m.active = some { a with state := .awaitingUser, finalResponder := responder })
      (delivered : m.delivered = w.manager.delivered) (claims : claims = w.claims)
      (marks : e.marks = (none, none, some (id, responder), none))
      (unbroken : ∀ id', ¬e.op.Breaks id')
  | retry (a : ActiveChannel Responder) (before : w.manager.active = some a)
      (state : a.state = .validating) (retries : a.validationRetries + 1 ≤ maxValidationRetries)
      (active : m.active = some
        { a with
          validationRetries := a.validationRetries + 1, state := .issued, proposalId := none })
      (delivered : m.delivered = w.manager.delivered) (claims : claims = w.claims)
      (marks : e.marks = (none, none, none, none))
  | leave (status : ProposalFinalStatus) (active : m.active = none)
      (delivered : m.delivered = (w.manager.active.bind (·.finalResponder)).toList.map
        (·, status) ++ w.manager.delivered)
      (claims : claims = w.claims) (marks : e.marks = (none, none, none, none))
  | claim (a : ActiveChannel Responder) (id : String) (hash : Hash)
      (before : w.manager.active = some a) (state : a.state = .awaitingUser)
      (proposal : a.proposalId = some id) (active : m.active = none)
      (delivered : m.delivered = w.manager.delivered)
      (claims : claims = (a.channel, ⟨hash, a.finalResponder⟩) :: w.claims)
      (marks : e.marks = (none, none, none, some id))
  | finalize (index : ℕ) (held : ProposalChannel × ConfirmationClaim Hash Responder)
      (status : ProposalFinalStatus) (found : w.claims[index]? = some held)
      (active : m.active = w.manager.active)
      (delivered : m.delivered = held.2.finalResponder.toList.map (·, status) ++
        w.manager.delivered)
      (claims : claims = w.claims.eraseIdx index) (marks : e.marks = (none, none, none, none))
      (unbroken : ∀ id', ¬e.op.Breaks id')

section

variable {w : World Hash Responder} {m : ProposalChannelManager Hash Responder}
  {claims : List (ProposalChannel × ConfirmationClaim Hash Responder)} {e : Entry Hash Responder}
  {id : String}

theorem Move.of_issued (h : Move w m claims e) {c : ProposalChannel} (hc : e.issued = some c) :
    e.op.nonce = some c.turnNonce := by
  cases h with
  | issue c' binding nonce _ _ _ marks =>
    have heq := (Entry.marks_eq_iff.mp marks).1.symm.trans hc
    rwa [Option.some.inj heq] at nonce
  | _ => simp_all only [Entry.marks_eq_iff, reduceCtorEq, false_and]

theorem Move.of_begun (h : Move w m claims e) (hid : e.begun = some id) :
    e.op.drawnId = some id ∧ ∃ a, w.manager.active = some a ∧ a.state = .issued := by
  cases h with
  | beginValidation a id' before state drawn _ _ _ marks =>
    have heq := (Entry.marks_eq_iff.mp marks).2.1.symm.trans hid
    rw [Option.some.inj heq] at drawn
    exact ⟨drawn, a, before, state⟩
  | _ => simp_all only [Entry.marks_eq_iff, reduceCtorEq, false_and, and_false]

theorem Move.of_claimed (h : Move w m claims e) (hid : e.claimed = some id) :
    ∃ a, w.manager.active = some a ∧ a.state = .awaitingUser ∧ a.proposalId = some id := by
  cases h with
  | claim a id' _ before state proposal _ _ _ marks =>
    have heq := (Entry.marks_eq_iff.mp marks).2.2.2.symm.trans hid
    rw [Option.some.inj heq] at proposal
    exact ⟨a, before, state, proposal⟩
  | _ => simp_all only [Entry.marks_eq_iff, reduceCtorEq, and_false]

end

variable [DecidableEq Hash] (channelHash : ProposalChannel → Hash) (w : World Hash Responder)
  (now : ℕ)
  {m : ProposalChannelManager Hash Responder} {op : ChannelOp Responder} {proposalId : String}
  {reply : Reply Hash Responder}

/-- What a call does is one of the moves. -/
def Moves (op : ChannelOp Responder) : Prop :=
  Move w (w.call channelHash op now).1 (w.claimsAfter op (w.call channelHash op now).2)
    (w.entry channelHash op now)

theorem moves_of_call (hcall : w.call channelHash op now = (m, reply))
    (h : Move w m (w.claimsAfter op reply) ⟨op, w.slot, reply⟩) : w.Moves channelHash now op := by
  rw [Moves, entry, hcall]
  exact h

theorem moves_issue (nonce : Uuid) (binding : ProposalBinding) :
    w.Moves channelHash now (.issue nonce binding) := by
  by_cases havailable : w.manager.transportAvailable
  · have hcall : w.call channelHash (.issue nonce binding) now =
        ({ (w.manager.pruneTombstones now).invalidateActive channelHash .superseded now with
            active := some
              ⟨⟨((w.manager.pruneTombstones now).invalidateActive channelHash .superseded
                now).helperInstanceId, nonce⟩, binding, .issued, 0, none, none⟩ },
          .issued (.ok ⟨((w.manager.pruneTombstones now).invalidateActive channelHash .superseded
            now).helperInstanceId, nonce⟩)) := by
      simp [call, ProposalChannelManager.issue, havailable, Prod.map]
    refine moves_of_call channelHash w now hcall (.issue _ binding rfl rfl ?_ rfl rfl)
    simp
  · have hcall : w.call channelHash (.issue nonce binding) now =
        (w.manager.pruneTombstones now, .issued (.error transportUnavailable)) := by
      simp [call, ProposalChannelManager.issue, havailable, Prod.map]
    exact moves_of_call channelHash w now hcall
      (.stay rfl rfl rfl rfl fun a id _ h => absurd h havailable)

theorem moves_validatePermission (sessionId : String) (channel : ProposalChannel) :
    w.Moves channelHash now (.validatePermission sessionId channel) := by
  obtain ⟨granted, hcall⟩ : ∃ granted, w.call channelHash (.validatePermission sessionId channel)
      now = (w.manager.pruneTombstones now, .permission granted) := by
    simp only [call, ProposalChannelManager.validatePermission]
    split
    · exact ⟨_, rfl⟩
    · split_ifs
      · exact ⟨_, rfl⟩
      · split
        · exact ⟨_, rfl⟩
        · split_ifs <;> exact ⟨_, rfl⟩
  exact moves_of_call channelHash w now hcall (.stay rfl rfl rfl rfl fun _ _ _ _ _ h => h)

theorem moves_validateMcpPermission (sessionId : String) :
    w.Moves channelHash now (.validateMcpPermission sessionId) :=
  moves_of_call channelHash w now rfl (.stay rfl rfl rfl rfl fun _ _ _ _ _ h => h)

omit [DecidableEq Hash] in
theorem marks_validation (op : ChannelOp Responder) (slot : Option ProposalChannel)
    (context : Except ChannelFailure ValidationContext) :
    (⟨op, slot, .validation context⟩ : Entry Hash Responder).marks =
      (none, context.toOption.map (·.proposalId), none, none) := by
  cases op <;> cases context <;> rfl

theorem moves_validation
    (hop : op.drawnId = some proposalId) (hbreaks : ∀ id, ¬op.Breaks id)
    (hclaims : ∀ context, w.claimsAfter op (.validation context) = w.claims)
    (h : (∃ failure, w.call channelHash op now =
        (w.manager.pruneTombstones now, .validation (.error failure))) ∨
      ∃ a, w.manager.active = some a ∧ a.state = .issued ∧ w.call channelHash op now =
        ((w.manager.pruneTombstones now).startValidation a proposalId).map id .validation) :
    w.Moves channelHash now op := by
  rcases h with ⟨failure, hcall⟩ | ⟨a, ha, hstate, hcall⟩
  · exact moves_of_call channelHash w now hcall
      (.stay rfl rfl (hclaims _) (marks_validation _ _ _) fun _ id _ _ _ => hbreaks id)
  · exact moves_of_call channelHash w now hcall
      (.beginValidation a proposalId ha hstate hop rfl rfl (hclaims _) (marks_validation _ _ _))

theorem moves_beginValidation (proposalId : String) (channel : ProposalChannel) :
    w.Moves channelHash now (.beginValidation proposalId channel) := by
  refine moves_validation channelHash w now rfl (fun _ h => h) (fun _ => rfl) ?_
  simp only [call, ProposalChannelManager.beginValidation]
  split
  · exact .inl ⟨_, rfl⟩
  · split
    · exact .inl ⟨_, rfl⟩
    · next a ha =>
      split_ifs with hchannel havailable hstate
      · exact .inl ⟨_, rfl⟩
      · exact .inl ⟨_, rfl⟩
      · exact .inl ⟨_, rfl⟩
      · exact .inr ⟨a, ha, not_not.mp hstate, rfl⟩

theorem moves_beginMcpValidation (proposalId sessionId : String) :
    w.Moves channelHash now (.beginMcpValidation proposalId sessionId) := by
  refine moves_validation channelHash w now rfl (fun _ h => h) (fun _ => rfl) ?_
  simp only [call, ProposalChannelManager.beginMcpValidation]
  split
  · exact .inl ⟨_, rfl⟩
  · split
    · exact .inl ⟨_, rfl⟩
    · next a ha =>
      split_ifs with hsession hstate
      · exact .inl ⟨_, rfl⟩
      · exact .inl ⟨_, rfl⟩
      · exact .inr ⟨a, ha, not_not.mp hstate, rfl⟩

omit [DecidableEq Hash] in
theorem acceptValidationInner_cases (m : ProposalChannelManager Hash Responder)
    (proposalId : String) (responder : Option Responder) :
    m.acceptValidationInner proposalId responder = (m, false) ∨
      ∃ a, m.active = some a ∧ a.state = .validating ∧ a.proposalId = some proposalId ∧
        m.acceptValidationInner proposalId responder =
          ({ m with active := some { a with state := .awaitingUser, finalResponder := responder } },
            true) := by
  unfold ProposalChannelManager.acceptValidationInner
  split
  · exact .inl rfl
  · next a ha =>
    split_ifs with h
    · exact .inl rfl
    · simp only [not_or, not_not] at h
      exact .inr ⟨a, ha, h.1, h.2, rfl⟩

theorem moves_acceptValidation (proposalId : String) (responder : Responder) :
    w.Moves channelHash now (.acceptValidation proposalId responder) := by
  have hcall : w.call channelHash (.acceptValidation proposalId responder) now =
      (w.manager.acceptValidationInner proposalId (some responder)).map id .flag := rfl
  rcases acceptValidationInner_cases w.manager proposalId (some responder) with
    h | ⟨a, ha, hstate, hid, h⟩
  · rw [h] at hcall
    exact moves_of_call channelHash w now hcall (.stay rfl rfl rfl rfl fun _ _ _ _ _ h => h)
  · rw [h] at hcall
    exact moves_of_call channelHash w now hcall
      (.accept a proposalId (some responder) ha hstate hid rfl rfl rfl rfl rfl fun _ h => h)

theorem moves_acceptValidationDetached (proposalId : String) :
    w.Moves channelHash now (.acceptValidationDetached proposalId) := by
  have hcall : w.call channelHash (.acceptValidationDetached proposalId) now =
      (w.manager.acceptValidationInner proposalId none).map id .flag := rfl
  rcases acceptValidationInner_cases w.manager proposalId none with h | ⟨a, ha, hstate, hid, h⟩
  · rw [h] at hcall
    exact moves_of_call channelHash w now hcall (.stay rfl rfl rfl rfl fun _ _ _ _ _ h => h)
  · rw [h] at hcall
    exact moves_of_call channelHash w now hcall
      (.accept a proposalId none ha hstate hid rfl rfl rfl rfl rfl fun _ h => h)

theorem moves_rejectValidation (proposalId : String) (retryable : Bool) :
    w.Moves channelHash now (.rejectValidation proposalId retryable) := by
  unfold Moves entry
  simp only [call, ProposalChannelManager.rejectValidation]
  split
  · exact .stay rfl rfl rfl rfl fun _ _ _ _ _ h => h
  · next a ha =>
    split_ifs with h hretry
    · exact .stay rfl rfl rfl rfl fun _ _ _ _ _ h => h
    · simp only [not_or, not_not] at h
      have hretries : a.validationRetries + 1 ≤ maxValidationRetries := by
        have := hretry.2
        unfold maxValidationRetries at this ⊢
        omega
      refine .retry a ha h.1 hretries ?_ rfl rfl rfl
      simp only [Prod.map, id]
      rw [Nat.min_eq_left (Nat.le_trans hretries (by decide))]
    · refine .leave .cancelled ?_ ?_ rfl rfl
      · simp
      · simp [ha]

theorem moves_claimConfirmation (proposalId : String) :
    w.Moves channelHash now (.claimConfirmation proposalId) := by
  unfold Moves entry
  simp only [call, ProposalChannelManager.claimConfirmation]
  split
  · exact .stay rfl rfl rfl rfl fun _ _ _ _ _ h => h
  · next a ha =>
    split_ifs with h
    · exact .stay rfl rfl rfl rfl fun _ _ _ _ _ h => h
    · simp only [not_or, not_not] at h
      refine .claim a proposalId (channelHash a.channel) ha h.1 h.2 rfl rfl ?_ rfl
      simp only [claimsAfter, slot, ha, Prod.map, Option.map_some]

theorem moves_finalizeConfirmation (index : ℕ) (status : ProposalFinalStatus) :
    w.Moves channelHash now (.finalizeConfirmation index status) := by
  unfold Moves entry
  simp only [call]
  split
  · next h =>
    refine .stay rfl rfl ?_ rfl fun _ _ _ _ _ h => h
    exact List.eraseIdx_of_length_le (List.getElem?_eq_none_iff.mp h)
  · next held h =>
    exact .finalize index held status h (by simp) (by simp) rfl rfl fun _ h => h

theorem moves_resolveFinal (proposalId : String) (status : ProposalFinalStatus) :
    w.Moves channelHash now (.resolveFinal proposalId status) := by
  unfold Moves entry
  simp only [call, ProposalChannelManager.resolveFinal]
  split_ifs with h
  · exact .leave status (by simp) (by simp) rfl rfl
  · refine .stay rfl rfl rfl rfl fun a id ha _ hid hbreaks => h ?_
    have hsame : proposalId = id := hbreaks
    rw [ha, Option.any_some, hid, hsame]
    exact decide_eq_true rfl

theorem moves_set (available : Bool) (hcall : w.call channelHash op now = (m, .unit))
    (hactive : m.active = if available then w.manager.active else none)
    (hdelivered : m.delivered = if available then w.manager.delivered else
      (w.manager.active.bind (·.finalResponder)).toList.map (·, .unavailable) ++
        w.manager.delivered)
    (hclaims : w.claimsAfter op .unit = w.claims)
    (hmarks : (⟨op, w.slot, .unit⟩ : Entry Hash Responder).marks = (none, none, none, none))
    (hbreaks : ∀ id, op.Breaks id → available = false) : w.Moves channelHash now op := by
  cases available with
  | true =>
    exact moves_of_call channelHash w now hcall
      (.stay hactive hdelivered hclaims hmarks fun _ id _ _ _ h => by simpa using hbreaks id h)
  | false =>
    exact moves_of_call channelHash w now hcall (.leave _ hactive hdelivered hclaims hmarks)

theorem moves_setPipeAvailable (available : Bool) :
    w.Moves channelHash now (.setPipeAvailable available) := by
  refine moves_set channelHash w now available rfl ?_ ?_ rfl rfl fun _ h => h
  · cases available <;> simp [ProposalChannelManager.setPipeAvailable]
  · cases available <;> simp [ProposalChannelManager.setPipeAvailable]

theorem moves_setAgentTransportAvailable (available : Bool) :
    w.Moves channelHash now (.setAgentTransportAvailable available) := by
  refine moves_set channelHash w now available rfl ?_ ?_ rfl rfl fun _ h => h
  · cases available <;> simp [ProposalChannelManager.setAgentTransportAvailable]
  · cases available <;> simp [ProposalChannelManager.setAgentTransportAvailable]

theorem moves (op : ChannelOp Responder) : w.Moves channelHash now op := by
  cases op with
  | issue nonce binding => exact moves_issue channelHash w now nonce binding
  | validatePermission sessionId channel =>
    exact moves_validatePermission channelHash w now sessionId channel
  | validateMcpPermission sessionId => exact moves_validateMcpPermission channelHash w now sessionId
  | beginValidation proposalId channel =>
    exact moves_beginValidation channelHash w now proposalId channel
  | beginMcpValidation proposalId sessionId =>
    exact moves_beginMcpValidation channelHash w now proposalId sessionId
  | acceptValidation proposalId responder =>
    exact moves_acceptValidation channelHash w now proposalId responder
  | acceptValidationDetached proposalId =>
    exact moves_acceptValidationDetached channelHash w now proposalId
  | rejectValidation proposalId retryable =>
    exact moves_rejectValidation channelHash w now proposalId retryable
  | claimConfirmation proposalId => exact moves_claimConfirmation channelHash w now proposalId
  | finalizeConfirmation index status =>
    exact moves_finalizeConfirmation channelHash w now index status
  | resolveFinal proposalId status => exact moves_resolveFinal channelHash w now proposalId status
  | setPipeAvailable available => exact moves_setPipeAvailable channelHash w now available
  | setAgentTransportAvailable available =>
    exact moves_setAgentTransportAvailable channelHash w now available

/-! ### Transports -/

/-- A channel in the slot has both transports. -/
def Connected (m : ProposalChannelManager Hash Responder) : Prop :=
  m.active.isSome → m.transportAvailable

omit [DecidableEq Hash] in
theorem Connected.of_eq {m m' : ProposalChannelManager Hash Responder} (h : Connected m)
    (hactive : m'.active.isSome → m.active.isSome)
    (havailable : m'.transportAvailable = m.transportAvailable) : Connected m' := fun hm' => by
  rw [havailable]
  exact h (hactive hm')

omit [DecidableEq Hash] in
theorem connected_of_none (h : m.active = none) :
    Connected m := fun hm => by
  rw [h] at hm
  exact absurd hm (by simp)

theorem connected_call {w : World Hash Responder} (h : Connected w.manager)
    (op : ChannelOp Responder) : Connected (w.call channelHash op now).1 := by
  cases op with
  | issue nonce binding =>
    simp only [call, ProposalChannelManager.issue]
    split_ifs with havailable
    · exact h
    · intro _
      exact (ProposalChannelManager.transportAvailable_invalidateActive _ channelHash .superseded
        now).trans (by simpa using havailable)
  | validatePermission sessionId channel =>
    simp only [call, ProposalChannelManager.validatePermission]
    split
    · exact h
    · split_ifs
      · exact h
      · split
        · exact h
        · split_ifs <;> exact h
  | validateMcpPermission sessionId => exact h
  | beginValidation proposalId channel =>
    simp only [call, ProposalChannelManager.beginValidation]
    split
    · exact h
    · split
      · exact h
      · next a ha =>
        split_ifs
        · exact h
        · exact h
        · exact h
        · exact h.of_eq (fun _ => by rw [show w.manager.active = some a from ha]; rfl) rfl
  | beginMcpValidation proposalId sessionId =>
    simp only [call, ProposalChannelManager.beginMcpValidation]
    split
    · exact h
    · split
      · exact h
      · next a ha =>
        split_ifs
        · exact h
        · exact h
        · exact h.of_eq (fun _ => by rw [show w.manager.active = some a from ha]; rfl) rfl
  | acceptValidation proposalId responder =>
    rcases acceptValidationInner_cases w.manager proposalId (some responder) with
      heq | ⟨a, ha, -, -, heq⟩
    · simp only [call, ProposalChannelManager.acceptValidation, heq]
      exact h
    · simp only [call, ProposalChannelManager.acceptValidation, heq]
      exact h.of_eq (fun _ => by rw [ha]; rfl) rfl
  | acceptValidationDetached proposalId =>
    rcases acceptValidationInner_cases w.manager proposalId none with heq | ⟨a, ha, -, -, heq⟩
    · simp only [call, ProposalChannelManager.acceptValidationDetached, heq]
      exact h
    · simp only [call, ProposalChannelManager.acceptValidationDetached, heq]
      exact h.of_eq (fun _ => by rw [ha]; rfl) rfl
  | rejectValidation proposalId retryable =>
    simp only [call, ProposalChannelManager.rejectValidation]
    split
    · exact h
    · next a ha =>
      split_ifs
      · exact h
      · exact h.of_eq (fun _ => by rw [ha]; rfl) rfl
      · exact connected_of_none (by simp)
  | claimConfirmation proposalId =>
    simp only [call, ProposalChannelManager.claimConfirmation]
    split
    · exact h
    · split_ifs
      · exact h
      · exact connected_of_none rfl
  | finalizeConfirmation index status =>
    simp only [call]
    split
    · exact h
    · exact h.of_eq (fun hm => by simpa using hm) (by simp)
  | resolveFinal proposalId status =>
    simp only [call, ProposalChannelManager.resolveFinal]
    split_ifs
    · exact connected_of_none (by simp)
    · exact h
  | setPipeAvailable available =>
    cases available with
    | false => exact connected_of_none (by simp [call, ProposalChannelManager.setPipeAvailable])
    | true =>
      intro hm
      have hboth := h hm
      simp only [ProposalChannelManager.transportAvailable, Bool.and_eq_true] at hboth
      simp [call, ProposalChannelManager.setPipeAvailable,
        ProposalChannelManager.transportAvailable, hboth.2]
  | setAgentTransportAvailable available =>
    cases available with
    | false =>
      exact connected_of_none (by simp [call, ProposalChannelManager.setAgentTransportAvailable])
    | true =>
      intro hm
      have hboth := h hm
      simp only [ProposalChannelManager.transportAvailable, Bool.and_eq_true] at hboth
      simp [call, ProposalChannelManager.setAgentTransportAvailable,
        ProposalChannelManager.transportAvailable, hboth.1]

/-! ### Calls that name a channel -/

/-- A call that does not succeed and leaves the channel in the slot, the claims and the responders
as they are. -/
structure Refused (w : World Hash Responder) (e : ChannelOp Responder × ℕ) : Prop where
  fails : (w.call channelHash e.1 e.2).2.succeeds = false
  active : (w.step channelHash e).manager.active = w.manager.active
  delivered : (w.step channelHash e).manager.delivered = w.manager.delivered
  claims : (w.step channelHash e).claims = w.claims

/-- The call names the channel in the slot, or the proposal there. -/
def Addressed (w : World Hash Responder) (op : ChannelOp Responder) : Prop :=
  ∃ a, w.manager.active = some a ∧
    (op.channel = some a.channel ∨ ∃ id, op.target = some id ∧ a.proposalId = some id)

omit [DecidableEq Hash] in
theorem ne_of_not_addressed
    (h : ¬w.Addressed op) (hop : op.target = some proposalId) {a : ActiveChannel Responder}
    (ha : w.manager.active = some a) : a.proposalId ≠ some proposalId := fun heq =>
  h ⟨a, ha, .inr ⟨proposalId, hop, heq⟩⟩

omit [DecidableEq Hash] in
theorem accept_of_not_addressed
    {responder : Option Responder} (h : ¬w.Addressed op) (hop : op.target = some proposalId) :
    w.manager.acceptValidationInner proposalId responder = (w.manager, false) := by
  rcases acceptValidationInner_cases w.manager proposalId responder with heq | ⟨a, ha, -, hid, -⟩
  · exact heq
  · exact absurd hid (ne_of_not_addressed w h hop ha)

theorem refused_of_call (hcall : w.call channelHash op now = (m, reply))
    (hfails : reply.succeeds = false) (hactive : m.active = w.manager.active)
    (hdelivered : m.delivered = w.manager.delivered) (hclaims : w.claimsAfter op reply = w.claims) :
    w.Refused channelHash (op, now) := by
  refine ⟨?_, ?_, ?_, ?_⟩
  · rw [hcall]
    exact hfails
  · rw [step, hcall]
    exact hactive
  · rw [step, hcall]
    exact hdelivered
  · rw [step, hcall]
    exact hclaims

theorem refused_or_addressed (op : ChannelOp Responder)
    (hop : op.channel.isSome ∨ op.target.isSome) :
    w.Refused channelHash (op, now) ∨ w.Addressed op := by
  by_cases haddressed : w.Addressed op
  · exact .inr haddressed
  left
  cases op with
  | validatePermission sessionId channel =>
    obtain ⟨failure, hcall⟩ : ∃ failure, w.call channelHash
        (.validatePermission sessionId channel) now =
        (w.manager.pruneTombstones now, .permission (.error failure)) := by
      simp only [call, ProposalChannelManager.validatePermission]
      split
      · exact ⟨_, rfl⟩
      · split_ifs with havailable
        · exact ⟨_, rfl⟩
        · split
          · exact ⟨_, rfl⟩
          · next a ha =>
            have hne : a.channel ≠ channel := fun heq => haddressed ⟨a, ha, .inl (by rw [heq]; rfl)⟩
            rw [if_pos hne]
            exact ⟨_, rfl⟩
    exact refused_of_call channelHash w now hcall rfl rfl rfl rfl
  | beginValidation proposalId channel =>
    obtain ⟨failure, hcall⟩ : ∃ failure, w.call channelHash
        (.beginValidation proposalId channel) now =
        (w.manager.pruneTombstones now, .validation (.error failure)) := by
      simp only [call, ProposalChannelManager.beginValidation]
      split
      · exact ⟨_, rfl⟩
      · split
        · exact ⟨_, rfl⟩
        · next a ha =>
          have hne : a.channel ≠ channel := fun heq => haddressed ⟨a, ha, .inl (by rw [heq]; rfl)⟩
          rw [if_pos hne]
          exact ⟨_, rfl⟩
    exact refused_of_call channelHash w now hcall rfl rfl rfl rfl
  | acceptValidation proposalId responder =>
    have hcall : w.call channelHash (.acceptValidation proposalId responder) now =
        (w.manager.acceptValidationInner proposalId (some responder)).map id .flag := rfl
    rw [accept_of_not_addressed w haddressed rfl] at hcall
    exact refused_of_call channelHash w now hcall rfl rfl rfl rfl
  | acceptValidationDetached proposalId =>
    have hcall : w.call channelHash (.acceptValidationDetached proposalId) now =
        (w.manager.acceptValidationInner proposalId none).map id .flag := rfl
    rw [accept_of_not_addressed w haddressed rfl] at hcall
    exact refused_of_call channelHash w now hcall rfl rfl rfl rfl
  | rejectValidation proposalId retryable =>
    have hcall : w.call channelHash (.rejectValidation proposalId retryable) now =
        (w.manager, .flag false) := by
      simp only [call, ProposalChannelManager.rejectValidation]
      split
      · rfl
      · next a ha =>
        rw [if_pos (.inr (ne_of_not_addressed w haddressed rfl ha))]
        rfl
    exact refused_of_call channelHash w now hcall rfl rfl rfl rfl
  | claimConfirmation proposalId =>
    have hcall : w.call channelHash (.claimConfirmation proposalId) now =
        (w.manager, .claim none) := by
      simp only [call, ProposalChannelManager.claimConfirmation]
      split
      · rfl
      · next a ha =>
        rw [if_pos (.inr (ne_of_not_addressed w haddressed rfl ha))]
        rfl
    exact refused_of_call channelHash w now hcall rfl rfl rfl rfl
  | resolveFinal proposalId status =>
    have hnone : ¬(w.manager.active.any fun active => active.proposalId = some proposalId) := by
      rw [Option.any_eq_true]
      rintro ⟨a, ha, hid⟩
      exact ne_of_not_addressed w haddressed rfl ha (of_decide_eq_true hid)
    have hcall : w.call channelHash (.resolveFinal proposalId status) now =
        (w.manager, .flag false) := by
      simp only [call, ProposalChannelManager.resolveFinal, if_neg hnone]
      rfl
    exact refused_of_call channelHash w now hcall rfl rfl rfl rfl
  | _ => exact absurd hop (by simp [ChannelOp.channel, ChannelOp.target])

end World

end IntelligentTerminal.Proposals
