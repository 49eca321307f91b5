import IntelligentTerminal.Proposals.ChannelRuns
import Mathlib.Data.List.Induction
import Mathlib.Data.List.Nodup
import Mathlib.Data.List.Perm.Basic

/-!
# A proposal channel is used once and answered once

The log of a run says, for the channel in the slot, how many validations began on it, which was the
last, and that nothing ended the wait for the user since it was accepted. The responders that were
handed over are, each once, with the channel in the slot, with a claim that is held, or answered.

Source: `tools/wta/src/agent_tools/action_proposal/channel.rs`, lines 189-565.
-/

namespace IntelligentTerminal.Proposals

open Sessions (Uuid)

variable {Hash Responder : Type*}

/-! ### What the log says of a channel -/

/-- What an entry says if `c` was in the slot. -/
def Entry.on {α : Type*} (c : ProposalChannel) (f : Entry Hash Responder → Option α)
    (e : Entry Hash Responder) : Option α :=
  if e.slot = some c then f e else none

/-- The proposals whose validation began on the channel, the last first. -/
def begins (c : ProposalChannel) (log : List (Entry Hash Responder)) : List String :=
  log.filterMap (Entry.on c Entry.begun)

/-- The proposals of the channel whose confirmation was claimed. -/
def claimsOn (c : ProposalChannel) (log : List (Entry Hash Responder)) : List String :=
  log.filterMap (Entry.on c Entry.claimed)

/-- The responder that was handed over and accepted. -/
def Entry.acceptedResponder (e : Entry Hash Responder) : Option Responder := e.accepted.bind (·.2)

/-- The proposal was accepted on the channel, and nothing ended the wait for the user since. -/
def Awaited (c : ProposalChannel) (id : String) (log : List (Entry Hash Responder)) : Prop :=
  ∃ newer e older, log = newer ++ e :: older ∧ e.slot = some c ∧
    (∃ responder, e.accepted = some (id, responder)) ∧ ∀ e' ∈ newer, ¬e'.op.Breaks id

/-- The channel was issued. -/
def Issued (c : ProposalChannel) (log : List (Entry Hash Responder)) : Prop :=
  ∃ e ∈ log, e.issued = some c

variable {log : List (Entry Hash Responder)} {e : Entry Hash Responder} {c : ProposalChannel}
  {id : String} {a : ActiveChannel Responder}

theorem begins_cons : begins c (e :: log) = (Entry.on c Entry.begun e).toList ++ begins c log := by
  unfold begins
  rw [List.filterMap_cons]
  cases Entry.on c Entry.begun e <;> rfl

theorem claimsOn_cons :
    claimsOn c (e :: log) = (Entry.on c Entry.claimed e).toList ++ claimsOn c log := by
  unfold claimsOn
  rw [List.filterMap_cons]
  cases Entry.on c Entry.claimed e <;> rfl

theorem begins_cons_of_none (h : e.begun = none) : begins c (e :: log) = begins c log := by
  rw [begins_cons, Entry.on, h, ite_self]
  rfl

theorem claimsOn_cons_of_none (h : e.claimed = none) :
    claimsOn c (e :: log) = claimsOn c log := by
  rw [claimsOn_cons, Entry.on, h, ite_self]
  rfl

theorem Awaited.push (h : Awaited c id log) (he : ¬e.op.Breaks id) : Awaited c id (e :: log) := by
  obtain ⟨newer, e', older, rfl, hslot, haccepted, hnewer⟩ := h
  refine ⟨e :: newer, e', older, rfl, hslot, haccepted, fun e'' he'' => ?_⟩
  rcases List.mem_cons.mp he'' with rfl | he''
  · exact he
  · exact hnewer e'' he''

/-- What the log says of the channel in the slot. -/
structure Phase (log : List (Entry Hash Responder)) (a : ActiveChannel Responder) : Prop where
  last : log.findSome? Entry.issued = some a.channel
  retries : a.validationRetries ≤ maxValidationRetries
  begins : (begins a.channel log).length =
    a.validationRetries + if a.state = .issued then 0 else 1
  unclaimed : claimsOn a.channel log = []
  proposal : ∀ id, a.proposalId = some id → (Proposals.begins a.channel log).head? = some id
  awaited : a.state = .awaitingUser → ∀ id, a.proposalId = some id → Awaited a.channel id log
  responder : a.state ≠ .awaitingUser → a.finalResponder = none

theorem Phase.issued (h : Phase log a) : Issued a.channel log :=
  List.exists_of_findSome?_eq_some h.last

theorem Phase.push (h : Phase log a) (hissued : e.issued = none) (hbegun : e.begun = none)
    (hclaimed : e.claimed = none) (hbreaks : ∀ id, a.proposalId = some id → ¬e.op.Breaks id) :
    Phase (e :: log) a where
  last := by rw [List.findSome?_cons, hissued, h.last]
  retries := h.retries
  begins := by rw [begins_cons_of_none hbegun, h.begins]
  unclaimed := by rw [claimsOn_cons_of_none hclaimed, h.unclaimed]
  proposal id hid := by rw [begins_cons_of_none hbegun, h.proposal id hid]
  awaited hstate id hid := (h.awaited hstate id hid).push (hbreaks id hid)
  responder := h.responder

theorem Phase.begin (h : Phase log a) (hstate : a.state = .issued) (hslot : e.slot = some a.channel)
    (hissued : e.issued = none) (hbegun : e.begun = some id) (hclaimed : e.claimed = none) :
    Phase (e :: log) { a with state := .validating, proposalId := some id } where
  last := by rw [List.findSome?_cons, hissued, h.last]
  retries := h.retries
  begins := by
    rw [begins_cons, Entry.on, if_pos hslot, hbegun, List.length_append, h.begins, if_pos hstate]
    simp [Nat.add_comm]
  unclaimed := by rw [claimsOn_cons_of_none hclaimed, h.unclaimed]
  proposal id' hid := by
    rw [begins_cons, Entry.on, if_pos hslot, hbegun, ← hid]
    rfl
  awaited hstate := by simp at hstate
  responder _ := h.responder (by rw [hstate]; simp)

theorem Phase.accept (h : Phase log a) {responder : Option Responder}
    (hstate : a.state = .validating) (hslot : e.slot = some a.channel)
    (hid : a.proposalId = some id) (hissued : e.issued = none)
    (hbegun : e.begun = none) (hclaimed : e.claimed = none)
    (haccepted : e.accepted = some (id, responder)) :
    Phase (e :: log) { a with state := .awaitingUser, finalResponder := responder } where
  last := by rw [List.findSome?_cons, hissued, h.last]
  retries := h.retries
  begins := by
    rw [begins_cons_of_none hbegun, h.begins, hstate]
    rfl
  unclaimed := by rw [claimsOn_cons_of_none hclaimed, h.unclaimed]
  proposal id hid := by rw [begins_cons_of_none hbegun, h.proposal id hid]
  awaited _ id' hid' := by
    have heq : id' = id := Option.some.inj (hid'.symm.trans hid)
    exact ⟨[], e, log, rfl, hslot, ⟨responder, by rw [haccepted, heq]⟩, by simp⟩
  responder hne := absurd rfl hne

theorem Phase.retry (h : Phase log a) (hstate : a.state = .validating)
    (hretries : a.validationRetries + 1 ≤ maxValidationRetries) (hissued : e.issued = none)
    (hbegun : e.begun = none) (hclaimed : e.claimed = none) :
    Phase (e :: log)
      { a with
        validationRetries := a.validationRetries + 1, state := .issued, proposalId := none } where
  last := by rw [List.findSome?_cons, hissued, h.last]
  retries := hretries
  begins := by
    rw [begins_cons_of_none hbegun, h.begins, hstate]
    rfl
  unclaimed := by rw [claimsOn_cons_of_none hclaimed, h.unclaimed]
  proposal id hid := by simp at hid
  awaited hstate := by simp at hstate
  responder _ := h.responder (by rw [hstate]; simp)

theorem Phase.issue {binding : ProposalBinding} (hissued : e.issued = some c)
    (hbegun : e.begun = none) (hclaimed : e.claimed = none)
    (hnew : ∀ e' ∈ log, e'.slot ≠ some c) :
    Phase (e :: log) ⟨c, binding, .issued, 0, none, none⟩ := by
  have hbegins : Proposals.begins c log = [] :=
    List.filterMap_eq_nil_iff.mpr fun e' he' => if_neg (hnew e' he')
  have hclaims : claimsOn c log = [] :=
    List.filterMap_eq_nil_iff.mpr fun e' he' => if_neg (hnew e' he')
  refine ⟨?_, Nat.zero_le _, ?_, ?_, ?_, ?_, fun _ => rfl⟩
  · rw [List.findSome?_cons, hissued]
  · rw [begins_cons_of_none hbegun, hbegins]
    rfl
  · rw [claimsOn_cons_of_none hclaimed, hclaims]
  · simp
  · simp

/-! ### The invariant -/

namespace World

/-- The responders that the channel in the slot and the claims have. -/
def held (w : World Hash Responder) : List Responder :=
  (w.manager.active.bind (·.finalResponder)).toList ++ w.claims.filterMap (·.2.finalResponder)

/-- What a run keeps. -/
structure Kept (w : World Hash Responder) : Prop where
  connected : Connected w.manager
  phase : ∀ a, w.manager.active = some a → Phase w.log a
  slot_issued : ∀ e ∈ w.log, ∀ c, e.slot = some c → Issued c w.log
  issued_nonce : ∀ e ∈ w.log, ∀ c, e.issued = some c → e.op.nonce = some c.turnNonce
  begun_drawn : ∀ e ∈ w.log, ∀ id, e.begun = some id → e.op.drawnId = some id
  begins_le : ∀ c, (begins c w.log).length ≤ maxValidationRetries + 1
  claims_le : ∀ c, (claimsOn c w.log).length ≤ 1
  claimed : ∀ e before, e :: before <:+ w.log → ∀ id, e.claimed = some id →
    ∃ c, e.slot = some c ∧ (begins c before).head? = some id ∧ Awaited c id before
  owned : (w.held ++ w.manager.delivered.map (·.1)).Perm
    (w.log.filterMap Entry.acceptedResponder)
  active_responder : ∀ a r, w.manager.active = some a → a.finalResponder = some r →
    ∃ e ∈ w.log, e.slot = some a.channel ∧ e.acceptedResponder = some r
  claim_responder : ∀ held ∈ w.claims, ∀ r, held.2.finalResponder = some r →
    ∃ e ∈ w.log, e.slot = some held.1 ∧ e.acceptedResponder = some r

variable {w : World Hash Responder} {m : ProposalChannelManager Hash Responder}
  {claims : List (ProposalChannel × ConfirmationClaim Hash Responder)}

/-- The nonce that a call draws is not one that was drawn before. -/
def NewNonce (w : World Hash Responder) (op : ChannelOp Responder) : Prop :=
  ∀ nonce, op.nonce = some nonce → ∀ e ∈ w.log, e.op.nonce ≠ some nonce

theorem slot_eq (ha : w.manager.active = some a) : w.slot = some a.channel := by
  rw [slot, ha, Option.map_some]

theorem Kept.slot_ne (h : Kept w) (hnonce : e.op.nonce = some c.turnNonce)
    (hnew : w.NewNonce e.op) : ∀ e ∈ w.log, e.slot ≠ some c := by
  intro e he hslot
  obtain ⟨e', he', hissued⟩ := h.slot_issued e he c hslot
  exact hnew c.turnNonce hnonce e' he' (h.issued_nonce e' he' c hissued)

theorem Kept.move_phase (h : Kept w) (hmove : Move w m claims e) (hslot : e.slot = w.slot)
    (hnew : w.NewNonce e.op) : ∀ a, m.active = some a → Phase (e :: w.log) a := by
  intro a ha
  cases hmove with
  | stay active _ _ marks unbroken =>
    obtain ⟨hissued, hbegun, -, hclaimed⟩ := Entry.marks_eq_iff.mp marks
    rw [active] at ha
    exact (h.phase a ha).push hissued hbegun hclaimed fun id hid =>
      unbroken a id ha (h.connected (by rw [ha]; rfl)) hid
  | issue c binding nonce active _ _ marks =>
    obtain ⟨hissued, hbegun, -, hclaimed⟩ := Entry.marks_eq_iff.mp marks
    rw [active, Option.some.injEq] at ha
    exact ha ▸ Phase.issue hissued hbegun hclaimed (h.slot_ne nonce hnew)
  | beginValidation a' id before state _ active _ _ marks =>
    obtain ⟨hissued, hbegun, -, hclaimed⟩ := Entry.marks_eq_iff.mp marks
    rw [active, Option.some.injEq] at ha
    rw [slot_eq before] at hslot
    exact ha ▸ (h.phase a' before).begin state hslot hissued hbegun hclaimed
  | accept a' id responder before state proposal _ active _ _ marks =>
    obtain ⟨hissued, hbegun, haccepted, hclaimed⟩ := Entry.marks_eq_iff.mp marks
    rw [active, Option.some.injEq] at ha
    rw [slot_eq before] at hslot
    exact ha ▸ (h.phase a' before).accept state hslot proposal hissued hbegun hclaimed haccepted
  | retry a' before state retries active _ _ marks =>
    obtain ⟨hissued, hbegun, -, hclaimed⟩ := Entry.marks_eq_iff.mp marks
    rw [active, Option.some.injEq] at ha
    exact ha ▸ (h.phase a' before).retry state retries hissued hbegun hclaimed
  | leave _ active =>
    rw [active] at ha
    exact absurd ha (by simp)
  | claim a' id hash _ _ _ active =>
    rw [active] at ha
    exact absurd ha (by simp)
  | finalize index held status _ active _ _ marks unbroken =>
    obtain ⟨hissued, hbegun, -, hclaimed⟩ := Entry.marks_eq_iff.mp marks
    rw [active] at ha
    exact (h.phase a ha).push hissued hbegun hclaimed fun id _ => unbroken id

theorem Kept.move_begins (h : Kept w) (hmove : Move w m claims e) (hslot : e.slot = w.slot)
    (c : ProposalChannel) : (begins c (e :: w.log)).length ≤ maxValidationRetries + 1 := by
  rw [begins_cons, Entry.on]
  split_ifs with hc
  · cases hbegun : e.begun with
    | none => exact h.begins_le c
    | some id =>
      obtain ⟨-, a, ha, hstate⟩ := hmove.of_begun hbegun
      have hchannel : a.channel = c := by
        rwa [hslot, slot_eq ha, Option.some.injEq] at hc
      have hlength := (h.phase a ha).begins
      rw [hchannel, if_pos hstate] at hlength
      have hretries := (h.phase a ha).retries
      rw [List.length_append, hlength, Option.toList_some, List.length_singleton]
      omega
  · exact h.begins_le c

theorem Kept.move_claims (h : Kept w) (hmove : Move w m claims e) (hslot : e.slot = w.slot)
    (c : ProposalChannel) : (claimsOn c (e :: w.log)).length ≤ 1 := by
  rw [claimsOn_cons, Entry.on]
  split_ifs with hc
  · cases hclaimed : e.claimed with
    | none => exact h.claims_le c
    | some id =>
      obtain ⟨a, ha, -⟩ := hmove.of_claimed hclaimed
      have hchannel : a.channel = c := by
        rwa [hslot, slot_eq ha, Option.some.injEq] at hc
      have hunclaimed := (h.phase a ha).unclaimed
      rw [hchannel] at hunclaimed
      rw [hunclaimed]
      simp
  · exact h.claims_le c

theorem Kept.move_claimed (h : Kept w) (hmove : Move w m claims e) (hslot : e.slot = w.slot)
    (hclaimed : e.claimed = some id) :
    ∃ c, e.slot = some c ∧ (begins c w.log).head? = some id ∧ Awaited c id w.log := by
  obtain ⟨a, ha, hstate, hid⟩ := hmove.of_claimed hclaimed
  have hphase := h.phase a ha
  exact ⟨a.channel, hslot.trans (slot_eq ha), hphase.proposal id hid, hphase.awaited hstate id hid⟩

theorem Kept.move_owned (h : Kept w) (hmove : Move w m claims e) :
    ((⟨m, claims, e :: w.log⟩ : World Hash Responder).held ++ m.delivered.map (·.1)).Perm
      ((e :: w.log).filterMap Entry.acceptedResponder) := by
  have howned := h.owned
  have hnone : e.accepted = none → (e :: w.log).filterMap Entry.acceptedResponder =
      w.log.filterMap Entry.acceptedResponder := fun haccepted =>
    List.filterMap_cons_none (by rw [Entry.acceptedResponder, haccepted, Option.bind_none])
  have hanswered : ∀ (responder : Option Responder) (status : ProposalFinalStatus),
      (responder.toList.map (·, status)).map (·.1) = responder.toList := by
    intro responder status
    cases responder <;> rfl
  unfold held at howned ⊢
  cases hmove with
  | stay active delivered claims marks =>
    rw [hnone (Entry.marks_eq_iff.mp marks).2.2.1]
    simp only [active, delivered, claims]
    exact howned
  | issue c binding _ active delivered claims marks =>
    rw [hnone (Entry.marks_eq_iff.mp marks).2.2.1]
    simp only [active, delivered, claims, Option.bind_some, Option.toList_none, List.nil_append,
      List.map_append, hanswered]
    refine List.Perm.trans ?_ howned
    rw [List.append_assoc]
    exact List.perm_append_comm_assoc _ _ _
  | beginValidation a id before _ _ active delivered claims marks =>
    rw [hnone (Entry.marks_eq_iff.mp marks).2.2.1]
    simp only [active, delivered, claims, Option.bind_some]
    rwa [before, Option.bind_some] at howned
  | accept a id responder before state _ _ active delivered claims marks =>
    have hnone : a.finalResponder = none := (h.phase a before).responder (by rw [state]; simp)
    have haccepted : e.acceptedResponder = responder := by
      rw [Entry.acceptedResponder, (Entry.marks_eq_iff.mp marks).2.2.1, Option.bind_some]
    rw [before, Option.bind_some, hnone, Option.toList_none, List.nil_append] at howned
    simp only [active, delivered, claims, Option.bind_some, List.filterMap_cons, haccepted,
      List.append_assoc]
    cases responder with
    | none => exact howned
    | some r => exact howned.cons r
  | retry a before _ _ active delivered claims marks =>
    rw [hnone (Entry.marks_eq_iff.mp marks).2.2.1]
    simp only [active, delivered, claims, Option.bind_some]
    rwa [before, Option.bind_some] at howned
  | leave status active delivered claims marks =>
    rw [hnone (Entry.marks_eq_iff.mp marks).2.2.1]
    simp only [active, delivered, claims, Option.bind_none, Option.toList_none, List.nil_append,
      List.map_append, hanswered]
    refine List.Perm.trans ?_ howned
    rw [List.append_assoc]
    exact List.perm_append_comm_assoc _ _ _
  | claim a id hash before _ _ active delivered claims marks =>
    rw [hnone (Entry.marks_eq_iff.mp marks).2.2.1]
    rw [before, Option.bind_some] at howned
    simp only [active, delivered, claims, Option.bind_none, Option.toList_none, List.nil_append,
      List.filterMap_cons]
    cases hresponder : a.finalResponder with
    | none => simpa [hresponder] using howned
    | some r => simpa [hresponder] using howned
  | finalize index held status found active delivered claims marks =>
    rw [hnone (Entry.marks_eq_iff.mp marks).2.2.1]
    simp only [active, delivered, claims, List.map_append, hanswered]
    obtain ⟨hlt, hget⟩ := List.getElem?_eq_some_iff.mp found
    have hperm : (held.2.finalResponder.toList ++
        (w.claims.eraseIdx index).filterMap (·.2.finalResponder)).Perm
          (w.claims.filterMap (·.2.finalResponder)) := by
      have herase := (List.getElem_cons_eraseIdx_perm hlt).filterMap (·.2.finalResponder)
      rw [hget, List.filterMap_cons] at herase
      cases hresponder : held.2.finalResponder with
      | none => simpa [hresponder] using herase
      | some r => simpa [hresponder] using herase
    refine List.Perm.trans ?_ howned
    simp only [List.append_assoc]
    refine List.Perm.append_left _ ((List.perm_append_comm_assoc _ _ _).trans ?_)
    rw [← List.append_assoc]
    exact hperm.append_right _

theorem Kept.move_active_responder (h : Kept w) (hmove : Move w m claims e)
    (hslot : e.slot = w.slot) (a : ActiveChannel Responder) (r : Responder)
    (ha : m.active = some a) (hr : a.finalResponder = some r) :
    ∃ e' ∈ e :: w.log, e'.slot = some a.channel ∧ e'.acceptedResponder = some r := by
  have hold : ∀ a', w.manager.active = some a' → a'.channel = a.channel →
      a'.finalResponder = some r →
      ∃ e' ∈ e :: w.log, e'.slot = some a.channel ∧ e'.acceptedResponder = some r := by
    intro a' ha' hchannel hr'
    obtain ⟨e', he', hslot', haccepted⟩ := h.active_responder a' r ha' hr'
    exact ⟨e', List.mem_cons_of_mem _ he', hchannel ▸ hslot', haccepted⟩
  cases hmove with
  | stay active => exact hold a (active ▸ ha) rfl hr
  | issue c binding _ active =>
    rw [active, Option.some.injEq] at ha
    subst ha
    exact absurd hr (by simp)
  | beginValidation a' id before _ _ active =>
    rw [active, Option.some.injEq] at ha
    subst ha
    exact hold a' before rfl hr
  | accept a' id responder before _ _ _ active _ _ marks =>
    rw [active, Option.some.injEq] at ha
    subst ha
    have hr : responder = some r := hr
    have hchannel : e.slot = some a'.channel := hslot.trans (slot_eq before)
    refine ⟨e, List.mem_cons_self, hchannel, ?_⟩
    rw [Entry.acceptedResponder, (Entry.marks_eq_iff.mp marks).2.2.1, Option.bind_some, hr]
  | retry a' before _ _ active =>
    rw [active, Option.some.injEq] at ha
    subst ha
    exact hold a' before rfl hr
  | leave _ active =>
    rw [active] at ha
    exact absurd ha (by simp)
  | claim _ _ _ _ _ _ active =>
    rw [active] at ha
    exact absurd ha (by simp)
  | finalize _ _ _ _ active => exact hold a (active ▸ ha) rfl hr

theorem Kept.move_claim_responder (h : Kept w) (hmove : Move w m claims e)
    (held : ProposalChannel × ConfirmationClaim Hash Responder) (hheld : held ∈ claims)
    (r : Responder) (hr : held.2.finalResponder = some r) :
    ∃ e' ∈ e :: w.log, e'.slot = some held.1 ∧ e'.acceptedResponder = some r := by
  have hold : held ∈ w.claims →
      ∃ e' ∈ e :: w.log, e'.slot = some held.1 ∧ e'.acceptedResponder = some r := by
    intro hheld
    obtain ⟨e', he', hslot', haccepted⟩ := h.claim_responder held hheld r hr
    exact ⟨e', List.mem_cons_of_mem _ he', hslot', haccepted⟩
  cases hmove with
  | stay _ _ claims => exact hold (claims ▸ hheld)
  | issue _ _ _ _ _ claims => exact hold (claims ▸ hheld)
  | beginValidation _ _ _ _ _ _ _ claims => exact hold (claims ▸ hheld)
  | accept _ _ _ _ _ _ _ _ _ claims => exact hold (claims ▸ hheld)
  | retry _ _ _ _ _ _ claims => exact hold (claims ▸ hheld)
  | leave _ _ _ claims => exact hold (claims ▸ hheld)
  | claim a id hash before _ _ _ _ claims =>
    rw [claims] at hheld
    rcases List.mem_cons.mp hheld with rfl | hheld
    · obtain ⟨e', he', hslot', haccepted⟩ := h.active_responder a r before hr
      exact ⟨e', List.mem_cons_of_mem _ he', hslot', haccepted⟩
    · exact hold hheld
  | finalize index _ _ _ _ _ claims =>
    rw [claims] at hheld
    exact hold (List.mem_of_mem_eraseIdx hheld)

theorem Kept.move (h : Kept w) (hmove : Move w m claims e) (hslot : e.slot = w.slot)
    (hnew : w.NewNonce e.op) (hconnected : Connected m) : Kept ⟨m, claims, e :: w.log⟩ where
  connected := hconnected
  phase := h.move_phase hmove hslot hnew
  slot_issued e' he' c hc := by
    have hold : Issued c w.log := by
      rcases List.mem_cons.mp he' with rfl | he'
      · rw [hslot, slot] at hc
        obtain ⟨a, ha, rfl⟩ := Option.map_eq_some_iff.mp hc
        exact (h.phase a ha).issued
      · exact h.slot_issued e' he' c hc
    obtain ⟨e'', he'', hissued⟩ := hold
    exact ⟨e'', List.mem_cons_of_mem _ he'', hissued⟩
  issued_nonce e' he' c hc := by
    rcases List.mem_cons.mp he' with rfl | he'
    · exact hmove.of_issued hc
    · exact h.issued_nonce e' he' c hc
  begun_drawn e' he' id hid := by
    rcases List.mem_cons.mp he' with rfl | he'
    · exact (hmove.of_begun hid).1
    · exact h.begun_drawn e' he' id hid
  begins_le := h.move_begins hmove hslot
  claims_le := h.move_claims hmove hslot
  claimed e' before hsuffix id hid := by
    rcases List.suffix_cons_iff.mp hsuffix with heq | hsuffix
    · obtain ⟨rfl, rfl⟩ := List.cons.inj heq
      exact h.move_claimed hmove hslot hid
    · exact h.claimed e' before hsuffix id hid
  owned := h.move_owned hmove
  active_responder := h.move_active_responder hmove hslot
  claim_responder := h.move_claim_responder hmove

theorem kept_init (helperInstanceId : Uuid) :
    Kept ({ manager := { helperInstanceId } } : World Hash Responder) := by
  constructor <;> simp [Connected, begins, claimsOn, held]

/-! ### Runs -/

variable [DecidableEq Hash] {channelHash : ProposalChannel → Hash} {helperInstanceId : Uuid}
  {calls : List (ChannelOp Responder × ℕ)}

theorem Kept.step (h : Kept w) (call : ChannelOp Responder × ℕ) (hnew : w.NewNonce call.1) :
    Kept (w.step channelHash call) :=
  h.move (moves channelHash w call.2 call.1) rfl hnew (connected_call channelHash call.2
    h.connected call.1)

theorem run_concat (call : ChannelOp Responder × ℕ) :
    run channelHash helperInstanceId (calls ++ [call]) =
      (run channelHash helperInstanceId calls).step channelHash call :=
  List.foldl_concat ..

variable (channelHash helperInstanceId calls) in
theorem log_run : (run channelHash helperInstanceId calls).log.map (·.op) =
    (calls.map (·.1)).reverse := by
  induction calls using List.reverseRecOn with
  | nil => rfl
  | append_singleton calls call ih =>
    rw [run_concat, step, List.map_cons, ih, List.map_append, List.reverse_append]
    rfl

variable (channelHash helperInstanceId calls) in
theorem filterMap_log_run {β : Type*} (f : ChannelOp Responder → Option β) :
    (run channelHash helperInstanceId calls).log.filterMap (fun e => f e.op) =
      (calls.filterMap fun call => f call.1).reverse := by
  have h := congrArg (List.filterMap f) (log_run channelHash helperInstanceId calls)
  rw [List.filterMap_map, List.filterMap_reverse, List.filterMap_map] at h
  exact h

theorem newNonce_run {call : ChannelOp Responder × ℕ} (hfresh : Fresh (calls ++ [call])) :
    (run channelHash helperInstanceId calls).NewNonce call.1 := by
  intro nonce hnonce e he heq
  have hmem : nonce ∈ calls.filterMap (·.1.nonce) := by
    rw [← List.mem_reverse, ← filterMap_log_run channelHash helperInstanceId calls]
    exact List.mem_filterMap.mpr ⟨e, he, heq⟩
  have hnodup := hfresh.nonces
  rw [List.filterMap_append, List.nodup_append] at hnodup
  exact hnodup.2.2 nonce hmem nonce (List.mem_filterMap.mpr ⟨call, by simp, hnonce⟩) rfl

end World

theorem Fresh.of_isPrefix {calls pre : List (ChannelOp Responder × ℕ)} (h : Fresh calls)
    (hpre : pre <+: calls) : Fresh pre where
  nonces := h.nonces.sublist (hpre.sublist.filterMap _)
  proposalIds := h.proposalIds.sublist (hpre.sublist.filterMap _)
  responders := h.responders.sublist (hpre.sublist.filterMap _)

namespace World

variable [DecidableEq Hash] {channelHash : ProposalChannel → Hash} {helperInstanceId : Uuid}
  {calls : List (ChannelOp Responder × ℕ)} {w : World Hash Responder} {r : Responder}

theorem kept_run (hfresh : Fresh calls) : Kept (run channelHash helperInstanceId calls) := by
  induction calls using List.reverseRecOn with
  | nil => exact kept_init helperInstanceId
  | append_singleton calls call ih =>
    rw [run_concat]
    exact (ih (hfresh.of_isPrefix (List.prefix_append _ _))).step call (newNonce_run hfresh)

/-! ### A channel that has left the slot -/

/-- The call names the channel, or a proposal whose validation began on it. -/
def Names (c : ProposalChannel) (log : List (Entry Hash Responder)) (op : ChannelOp Responder) :
    Prop :=
  op.channel = some c ∨ ∃ id, op.target = some id ∧ id ∈ begins c log

theorem Kept.step_slot_ne (h : Kept w) (call : ChannelOp Responder × ℕ) (hnew : w.NewNonce call.1)
    (hissued : Issued c w.log) (hslot : w.slot ≠ some c) :
    (w.step channelHash call).slot ≠ some c := by
  intro hback
  obtain ⟨a, ha, hchannel⟩ := Option.map_eq_some_iff.mp hback
  have hold : ∀ a', w.manager.active = some a' → a'.channel ≠ c := fun a' ha' heq =>
    hslot (by rw [slot_eq ha', heq])
  have hmove := moves channelHash w call.2 call.1
  have ha : (w.call channelHash call.1 call.2).1.active = some a := ha
  unfold Moves at hmove
  generalize (w.call channelHash call.1 call.2).1 = m at ha hmove
  cases hmove with
  | stay active => exact hold a (active ▸ ha) hchannel
  | issue c' binding nonce active =>
    rw [active, Option.some.injEq] at ha
    subst ha
    obtain ⟨e, he, heq⟩ := hissued
    refine hnew c.turnNonce ?_ e he (h.issued_nonce e he c heq)
    rw [← hchannel]
    exact nonce
  | beginValidation a' id before _ _ active =>
    rw [active, Option.some.injEq] at ha
    subst ha
    exact hold a' before hchannel
  | accept a' id responder before _ _ _ active =>
    rw [active, Option.some.injEq] at ha
    subst ha
    exact hold a' before hchannel
  | retry a' before _ _ active =>
    rw [active, Option.some.injEq] at ha
    subst ha
    exact hold a' before hchannel
  | leave _ active =>
    rw [active] at ha
    exact absurd ha (by simp)
  | claim _ _ _ _ _ _ active =>
    rw [active] at ha
    exact absurd ha (by simp)
  | finalize _ _ _ _ active => exact hold a (active ▸ ha) hchannel

theorem Issued.step (h : Issued c w.log) (call : ChannelOp Responder × ℕ) :
    Issued c (w.step channelHash call).log := by
  obtain ⟨e, he, hissued⟩ := h
  exact ⟨e, List.mem_cons_of_mem _ he, hissued⟩

theorem run_slot_ne (hfresh : Fresh calls) {pre : List (ChannelOp Responder × ℕ)}
    (hpre : pre <+: calls) (hissued : Issued c (run channelHash helperInstanceId pre).log)
    (hslot : (run channelHash helperInstanceId pre).slot ≠ some c) :
    Issued c (run channelHash helperInstanceId calls).log ∧
      (run channelHash helperInstanceId calls).slot ≠ some c := by
  induction calls using List.reverseRecOn with
  | nil =>
    rw [List.prefix_nil.mp hpre] at hissued hslot
    exact ⟨hissued, hslot⟩
  | append_singleton calls call ih =>
    rcases List.prefix_concat_iff.mp hpre with rfl | hpre
    · exact ⟨hissued, hslot⟩
    · have hcalls := hfresh.of_isPrefix (List.prefix_append calls [call])
      obtain ⟨hissued', hslot'⟩ := ih hcalls hpre
      rw [run_concat]
      exact ⟨Issued.step hissued' call,
        (kept_run hcalls).step_slot_ne call (newNonce_run hfresh) hissued' hslot'⟩

/-! ### Identifiers and responders are not shared -/

theorem eq_of_nodup_filterMap {α β : Type*} {l : List α} {f : α → Option β}
    (h : (l.filterMap f).Nodup) {x y : α} (hx : x ∈ l) (hy : y ∈ l) {b : β} (hfx : f x = some b)
    (hfy : f y = some b) : x = y := by
  induction l with
  | nil => exact absurd hx (by simp)
  | cons z l ih =>
    have htail : (l.filterMap f).Nodup := h.sublist ((List.sublist_cons_self z l).filterMap f)
    have hhead : f z = some b → ∀ y ∈ l, f y ≠ some b := by
      intro hz y hy hfy
      rw [List.filterMap_cons_some hz, List.nodup_cons] at h
      exact h.1 (List.mem_filterMap.mpr ⟨y, hy, hfy⟩)
    rcases List.mem_cons.mp hx with hxz | hx <;> rcases List.mem_cons.mp hy with hyz | hy
    · exact hxz.trans hyz.symm
    · exact absurd hfy (hhead (hxz ▸ hfx) y hy)
    · exact absurd hfx (hhead (hyz ▸ hfy) x hx)
    · exact ih htail hx hy

omit [DecidableEq Hash] in
theorem op_responder_of_accepted (h : e.acceptedResponder = some r) :
    e.op.responder = some r := by
  obtain ⟨⟨id, responder⟩, haccepted, hr⟩ := Option.bind_eq_some_iff.mp h
  have hr : responder = some r := hr
  unfold Entry.accepted at haccepted
  split at haccepted
  · next hop _ =>
    rw [hop]
    rw [hr] at haccepted
    simp only [Option.some.injEq, Prod.mk.injEq] at haccepted
    exact congrArg some haccepted.2
  · rw [hr] at haccepted
    simp at haccepted
  · exact absurd haccepted (by simp)

theorem nodup_acceptedResponder (hfresh : Fresh calls) :
    ((run channelHash helperInstanceId calls).log.filterMap Entry.acceptedResponder).Nodup := by
  have hlog := filterMap_log_run channelHash helperInstanceId calls ChannelOp.responder
  have hnodup : ((run channelHash helperInstanceId calls).log.filterMap
      fun e => e.op.responder).Nodup := by
    rw [hlog, List.nodup_reverse]
    exact hfresh.responders
  rw [List.Nodup, List.pairwise_filterMap] at hnodup ⊢
  exact hnodup.imp fun h r hr r' hr' =>
    h r (op_responder_of_accepted hr) r' (op_responder_of_accepted hr')

omit [DecidableEq Hash] in
theorem slot_of_mem_begins {log : List (Entry Hash Responder)} (h : id ∈ begins c log) :
    ∃ e ∈ log, e.slot = some c ∧ e.begun = some id := by
  obtain ⟨e, he, hbegun⟩ := List.mem_filterMap.mp h
  rw [Entry.on] at hbegun
  split_ifs at hbegun with hslot
  exact ⟨e, he, hslot, hbegun⟩

theorem eq_of_mem_begins (hfresh : Fresh calls) {c' : ProposalChannel}
    (h : id ∈ begins c (run channelHash helperInstanceId calls).log)
    (h' : id ∈ begins c' (run channelHash helperInstanceId calls).log) : c = c' := by
  obtain ⟨e, he, hslot, hbegun⟩ := slot_of_mem_begins h
  obtain ⟨e', he', hslot', hbegun'⟩ := slot_of_mem_begins h'
  have hnodup : ((run channelHash helperInstanceId calls).log.filterMap
      fun e => e.op.drawnId).Nodup := by
    rw [filterMap_log_run channelHash helperInstanceId calls ChannelOp.drawnId, List.nodup_reverse]
    exact hfresh.proposalIds
  have hkept : Kept (run channelHash helperInstanceId calls) := kept_run hfresh
  have heq := eq_of_nodup_filterMap hnodup he he' (hkept.begun_drawn e he id hbegun)
    (hkept.begun_drawn e' he' id hbegun')
  rw [heq, hslot'] at hslot
  exact (Option.some.inj hslot).symm

/-! ### The channel is used once -/

/-- What holds of the channels after a run. -/
structure UsedOnce [DecidableEq Responder] (channelHash : ProposalChannel → Hash)
    (w : World Hash Responder) : Prop where
  /-- The channel in the slot is the one that was issued last. -/
  active_last : ∀ a, w.manager.active = some a → w.log.findSome? Entry.issued = some a.channel
  /-- At most one confirmation is claimed on a channel. -/
  claims_le : ∀ c, (claimsOn c w.log).length ≤ 1
  /-- It is claimed for the last proposal on the channel, which was accepted, and since then no
  channel was issued, the proposal was not resolved and no transport was lost. -/
  claimed : ∀ e before, e :: before <:+ w.log → ∀ id, e.claimed = some id →
    ∃ c, e.slot = some c ∧ (begins c before).head? = some id ∧ Awaited c id before
  /-- At most three validations begin on a channel. -/
  begins_le : ∀ c, (begins c w.log).length ≤ maxValidationRetries + 1
  /-- A responder that was accepted gets at most one answer, and it has one once the channel has
  left the slot and its claim is finalized. -/
  answered : ∀ e ∈ w.log, ∀ c r, e.slot = some c → e.acceptedResponder = some r →
    (w.manager.delivered.map (·.1)).count r ≤ 1 ∧
      (w.slot ≠ some c → (∀ held ∈ w.claims, held.1 ≠ c) →
        (w.manager.delivered.map (·.1)).count r = 1)
  /-- A call that names a channel that has left the slot, or a proposal on it, is refused. -/
  gone : ∀ c, Issued c w.log → w.slot ≠ some c → ∀ op now, Names c w.log op →
    w.Refused channelHash (op, now)

theorem answered_of_fresh [DecidableEq Responder] (hfresh : Fresh calls)
    {e : Entry Hash Responder} (he : e ∈ (run channelHash helperInstanceId calls).log)
    (hslot : e.slot = some c) (hr : e.acceptedResponder = some r) :
    ((run channelHash helperInstanceId calls).manager.delivered.map (·.1)).count r ≤ 1 ∧
      ((run channelHash helperInstanceId calls).slot ≠ some c →
        (∀ held ∈ (run channelHash helperInstanceId calls).claims, held.1 ≠ c) →
        ((run channelHash helperInstanceId calls).manager.delivered.map (·.1)).count r = 1) := by
  have hkept : Kept (run channelHash helperInstanceId calls) := kept_run hfresh
  have hnodup : ((run channelHash helperInstanceId calls).log.filterMap
      Entry.acceptedResponder).Nodup := nodup_acceptedResponder hfresh
  generalize run channelHash helperInstanceId calls = w at he hkept hnodup
  have howned : (w.held ++ w.manager.delivered.map (·.1)).Nodup :=
    hkept.owned.nodup_iff.mpr hnodup
  have hle : (w.manager.delivered.map (·.1)).count r ≤ 1 :=
    List.nodup_iff_count_le_one.mp (List.nodup_append.mp howned).2.1 r
  have hsame : ∀ e' ∈ w.log, ∀ c', e'.slot = some c' → e'.acceptedResponder = some r → c' = c := by
    intro e' he' c' hslot' hr'
    have heq := eq_of_nodup_filterMap hnodup he he' hr hr'
    rw [← heq, hslot] at hslot'
    exact (Option.some.inj hslot').symm
  refine ⟨hle, fun hgone hfinal => ?_⟩
  have hmem : r ∈ w.held ++ w.manager.delivered.map (·.1) :=
    hkept.owned.mem_iff.mpr (List.mem_filterMap.mpr ⟨e, he, hr⟩)
  rcases List.mem_append.mp hmem with hheld | hdelivered
  · exfalso
    rcases List.mem_append.mp hheld with hactive | hclaim
    · obtain ⟨a, ha, hresponder⟩ := Option.bind_eq_some_iff.mp (Option.mem_toList.mp hactive)
      obtain ⟨e', he', hslot', hr'⟩ := hkept.active_responder a r ha hresponder
      exact hgone (by rw [slot_eq ha, hsame e' he' a.channel hslot' hr'])
    · obtain ⟨claim, hclaim, hresponder⟩ := List.mem_filterMap.mp hclaim
      obtain ⟨e', he', hslot', hr'⟩ := hkept.claim_responder claim hclaim r hresponder
      exact hfinal claim hclaim (hsame e' he' claim.1 hslot' hr')
  · exact Nat.le_antisymm hle (List.one_le_count_iff.mpr hdelivered)

theorem refused_of_fresh (hfresh : Fresh calls)
    (hslot : (run channelHash helperInstanceId calls).slot ≠ some c) {op : ChannelOp Responder}
    (hnames : Names c (run channelHash helperInstanceId calls).log op) (now : ℕ) :
    (run channelHash helperInstanceId calls).Refused channelHash (op, now) := by
  have hop : op.channel.isSome ∨ op.target.isSome := by
    rcases hnames with hchannel | ⟨id, htarget, -⟩
    · exact .inl (by rw [hchannel]; rfl)
    · exact .inr (by rw [htarget]; rfl)
  refine (refused_or_addressed channelHash _ now op hop).resolve_right ?_
  rintro ⟨a, ha, haddressed⟩
  have hne : a.channel ≠ c := fun heq => hslot (by rw [slot_eq ha, heq])
  have hexclusive : op.channel.isSome → op.target = none := by
    cases op <;> simp [ChannelOp.channel, ChannelOp.target]
  rcases hnames with hchannel | ⟨id, htarget, hid⟩
  · rcases haddressed with hchannel' | ⟨id, htarget, -⟩
    · exact hne (Option.some.inj (hchannel'.symm.trans hchannel))
    · rw [hexclusive (by rw [hchannel]; rfl)] at htarget
      exact absurd htarget (by simp)
  · rcases haddressed with hchannel | ⟨id', htarget', hid'⟩
    · rw [hexclusive (by rw [hchannel]; rfl)] at htarget
      exact absurd htarget (by simp)
    · rw [Option.some.inj (htarget'.symm.trans htarget)] at hid'
      have hlast := ((kept_run hfresh).phase a ha).proposal id hid'
      exact hne (eq_of_mem_begins hfresh (List.mem_of_mem_head? hlast) hid)

end World

open World in
/-- In every run with fresh identifiers, a channel is used once and its responder is answered once,
and a channel that has left the slot does not come back. -/
theorem proposal_channel_used_once [DecidableEq Hash] [DecidableEq Responder]
    (channelHash : ProposalChannel → Hash) (helperInstanceId : Uuid)
    (calls : List (ChannelOp Responder × ℕ)) (hfresh : Fresh calls) :
    UsedOnce channelHash (run channelHash helperInstanceId calls) ∧
      ∀ pre, pre <+: calls → ∀ c, Issued c (run channelHash helperInstanceId pre).log →
        (run channelHash helperInstanceId pre).slot ≠ some c →
          (run channelHash helperInstanceId calls).slot ≠ some c := by
  have hkept : Kept (run channelHash helperInstanceId calls) := kept_run hfresh
  refine ⟨?_, fun pre hpre c hissued hslot => (run_slot_ne hfresh hpre hissued hslot).2⟩
  exact
    { active_last := fun a ha => (hkept.phase a ha).last
      claims_le := hkept.claims_le
      claimed := hkept.claimed
      begins_le := hkept.begins_le
      answered := fun e he c r hslot hr => answered_of_fresh hfresh he hslot hr
      gone := fun c _ hslot op now hnames => refused_of_fresh hfresh hslot hnames now }

/-- A prompt of a session without a target. -/
def promptBinding (sessionId : String) (promptId : ℕ) : ProposalBinding :=
  ⟨sessionId, promptId, none, false⟩

/-- A digest that tells channels apart, as SHA-256 does. -/
def channelDigest (channel : ProposalChannel) : ProposalChannel := channel

open World in
theorem proposal_channel_used_once_confirmed :
    let calls : List (ChannelOp ℕ × ℕ) :=
      [(.issue 1 (promptBinding "s" 1), 0), (.beginValidation "i" ⟨7, 1⟩, 1),
        (.acceptValidation "i" 0, 2), (.claimConfirmation "i", 3),
        (.finalizeConfirmation 0 .confirmed, 4)]
    Fresh calls ∧ UsedOnce channelDigest (run channelDigest 7 calls) ∧
      ∀ pre, pre <+: calls → ∀ c, Issued c (run channelDigest 7 pre).log →
        (run channelDigest 7 pre).slot ≠ some c → (run channelDigest 7 calls).slot ≠ some c := by
  intro calls
  have hfresh : Fresh calls := by
    constructor <;> decide
  exact ⟨hfresh, proposal_channel_used_once channelDigest 7 calls hfresh⟩

open World in
/-- A responder that is handed over with another proposal id is not answered, and a claim may follow
the resolution of another proposal. -/
theorem refused_responder_not_answered :
    (let calls : List (ChannelOp ℕ × ℕ) :=
      [(.issue 1 (promptBinding "s" 1), 0), (.beginValidation "i" ⟨7, 1⟩, 1),
        (.acceptValidation "j" 0, 2), (.setPipeAvailable false, 3)]
    Fresh calls ∧ (run channelDigest 7 calls).slot = none ∧
      (run channelDigest 7 calls).claims.length = 0 ∧
      ((run channelDigest 7 calls).manager.delivered.map (·.1)).count 0 = 0) ∧
    let calls : List (ChannelOp ℕ × ℕ) :=
      [(.issue 1 (promptBinding "s" 1), 0), (.beginValidation "i" ⟨7, 1⟩, 1),
        (.acceptValidation "i" 0, 2), (.resolveFinal "j" .cancelled, 3),
        (.claimConfirmation "i", 4)]
    Fresh calls ∧ (run channelDigest 7 calls).log.head?.bind (·.claimed) = some "i" := by
  refine ⟨⟨?_, ?_, ?_, ?_⟩, ?_, ?_⟩
  · constructor <;> decide
  · decide +kernel
  · decide +kernel
  · decide +kernel
  · constructor <;> decide
  · decide +kernel

end IntelligentTerminal.Proposals
