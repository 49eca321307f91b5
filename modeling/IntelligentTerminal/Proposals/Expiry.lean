import IntelligentTerminal.Data.ExpiringQueue
import IntelligentTerminal.Data.Run
import IntelligentTerminal.Proposals.ChannelOnce

/-!
# How long a channel is remembered

A tombstone is dropped when it is too old or when there are too many. Tombstones are pruned at the
front of their queue only, which finds what is too old as long as the queue is ordered by time. A
call that retires a channel puts the last tombstone. A confirmation that is finalized gives the
tombstone of its channel a new time where it stands: behind it there may be tombstones of channels
that were retired in the meantime, and these are held back.

Source: `tools/wta/src/agent_tools/action_proposal/channel.rs`, lines 415-460 and 507-565.
-/

namespace IntelligentTerminal.Proposals

open Data
open Sessions (Uuid)

variable {Hash Responder : Type*}

/-- What `prune_tombstones` leaves. -/
abbrev prune (now : ℕ) (tombstones : List (Tombstone Hash)) : List (Tombstone Hash) :=
  expire Tombstone.createdAt tombstoneTtl maxTombstones now tombstones

/-! ### The tombstones that a function leaves -/

namespace ProposalChannelManager

variable (m : ProposalChannelManager Hash Responder) (channelHash : ProposalChannel → Hash)

@[simp]
theorem tombstones_pruneTombstones (now : ℕ) :
    (m.pruneTombstones now).tombstones = prune now m.tombstones := rfl

@[simp]
theorem tombstones_bury (hash : Hash) (status : Option ProposalFinalStatus) (now : ℕ) :
    (m.bury hash status now).tombstones = prune now (m.tombstones ++ [⟨hash, status, now⟩]) := rfl

@[simp]
theorem tombstones_send (responder : Option Responder) (status : ProposalFinalStatus) :
    (m.send responder status).tombstones = m.tombstones := by
  cases responder <;> rfl

theorem tombstones_invalidateActive_of_none (h : m.active = none) (status : ProposalFinalStatus)
    (now : ℕ) : (m.invalidateActive channelHash status now).tombstones = m.tombstones := by
  rw [invalidateActive, h]

theorem tombstones_invalidateActive_of_some {a : ActiveChannel Responder} (h : m.active = some a)
    (status : ProposalFinalStatus) (now : ℕ) :
    (m.invalidateActive channelHash status now).tombstones =
      prune now (m.tombstones ++ [⟨channelHash a.channel, some status, now⟩]) := by
  rw [invalidateActive, h]
  simp

variable [DecidableEq Hash]

theorem updateLast_append {hash : Hash} {item : Tombstone Hash} (hitem : item.channelHash = hash)
    {back : List (Tombstone Hash)} (hback : ∀ later ∈ back, later.channelHash ≠ hash)
    (front : List (Tombstone Hash)) (f : Tombstone Hash → Tombstone Hash) :
    updateLast hash f (front ++ item :: back) = front ++ f item :: back := by
  induction front with
  | nil =>
    have hlast : item.channelHash = hash ∧ back.all (·.channelHash ≠ hash) = true :=
      ⟨hitem, by simpa using hback⟩
    exact if_pos hlast
  | cons item' front ih =>
    have hnot : ¬(item'.channelHash = hash ∧
        (front ++ item :: back).all (·.channelHash ≠ hash) = true) := fun h => by
      have := List.all_eq_true.mp h.2 item (List.mem_append_right _ List.mem_cons_self)
      exact of_decide_eq_true this hitem
    rw [List.cons_append, updateLast, if_neg hnot, ih, List.cons_append]

omit [DecidableEq Hash] in
theorem exists_last [DecidableEq Hash] {hash : Hash} {tombstones : List (Tombstone Hash)}
    (h : tombstones.any (·.channelHash = hash) = true) :
    ∃ front item back, tombstones = front ++ item :: back ∧ item.channelHash = hash ∧
      ∀ later ∈ back, later.channelHash ≠ hash := by
  induction tombstones with
  | nil => simp at h
  | cons item items ih =>
    by_cases hitems : items.any (·.channelHash = hash) = true
    · obtain ⟨front, item', back, heq, hitem', hback⟩ := ih hitems
      exact ⟨item :: front, item', back, by rw [heq]; rfl, hitem', hback⟩
    · refine ⟨[], item, items, rfl, ?_, by simpa using hitems⟩
      rw [List.any_cons, Bool.or_eq_true, decide_eq_true_eq] at h
      exact h.resolve_right hitems

theorem tombstones_finalizeConfirmation {claim : ConfirmationClaim Hash Responder}
    {front back : List (Tombstone Hash)} {item : Tombstone Hash}
    (h : m.tombstones = front ++ item :: back) (hitem : item.channelHash = claim.channelHash)
    (hback : ∀ later ∈ back, later.channelHash ≠ claim.channelHash)
    (status : ProposalFinalStatus) (now : ℕ) :
    (m.finalizeConfirmation claim status now).tombstones =
      prune now (front ++ { item with status := some status, createdAt := now } :: back) := by
  have hany : m.tombstones.any (·.channelHash = claim.channelHash) = true := by
    rw [h]
    simp [hitem]
  rw [finalizeConfirmation, tombstones_send, if_pos hany, tombstones_pruneTombstones, h,
    updateLast_append hitem hback]

end ProposalChannelManager

namespace World

/-- The call runs `prune_tombstones`. -/
def Prunes (w : World Hash Responder) : ChannelOp Responder → Prop
  | .issue _ _ | .validatePermission _ _ | .beginValidation _ _ | .beginMcpValidation _ _ => True
  | .validateMcpPermission _ | .acceptValidation _ _ | .acceptValidationDetached _ => False
  | .rejectValidation proposalId retryable =>
    ∃ a, w.manager.active = some a ∧ a.state = .validating ∧ a.proposalId = some proposalId ∧
      ¬(retryable ∧ a.validationRetries < maxValidationRetries)
  | .claimConfirmation proposalId =>
    ∃ a, w.manager.active = some a ∧ a.state = .awaitingUser ∧ a.proposalId = some proposalId
  | .finalizeConfirmation index _ => index < w.claims.length
  | .resolveFinal proposalId _ => ∃ a, w.manager.active = some a ∧ a.proposalId = some proposalId
  | .setPipeAvailable available | .setAgentTransportAvailable available =>
    available = false ∧ w.manager.active.isSome

/-- The tombstones that a call can leave. -/
inductive Leaves (w : World Hash Responder) (op : ChannelOp Responder) (now : ℕ) :
    List (Tombstone Hash) → Prop
  | keep (prunes : ¬w.Prunes op) : Leaves w op now w.manager.tombstones
  | prune : Leaves w op now (prune now w.manager.tombstones)
  | bury (kept : List (Tombstone Hash)) (hash : Hash) (status : Option ProposalFinalStatus)
      (hkept : kept <:+ w.manager.tombstones) :
      Leaves w op now (prune now (kept ++ [⟨hash, status, now⟩]))
  | refresh (index : ℕ) (status : ProposalFinalStatus)
      (held : ProposalChannel × ConfirmationClaim Hash Responder)
      (front : List (Tombstone Hash)) (item : Tombstone Hash) (back : List (Tombstone Hash))
      (hop : op = .finalizeConfirmation index status) (hheld : w.claims[index]? = some held)
      (htombstones : w.manager.tombstones = front ++ item :: back)
      (hitem : item.channelHash = held.2.channelHash)
      (hback : ∀ later ∈ back, later.channelHash ≠ held.2.channelHash) :
      Leaves w op now (prune now
        (front ++ { item with status := some status, createdAt := now } :: back))

/-- A confirmation is finalized whose tombstone has an older one behind it. -/
def Overtakes (w : World Hash Responder) (e : ChannelOp Responder × ℕ) : Prop :=
  ∃ index status held front item back,
    e.1 = .finalizeConfirmation index status ∧ w.claims[index]? = some held ∧
    w.manager.tombstones = front ++ item :: back ∧ item.channelHash = held.2.channelHash ∧
    (∀ later ∈ back, later.channelHash ≠ held.2.channelHash) ∧
    ∃ later ∈ back, later.createdAt < e.2

/-! ### What a call leaves -/

variable [DecidableEq Hash] (channelHash : ProposalChannel → Hash) (w : World Hash Responder)
  (now : ℕ)

omit [DecidableEq Hash] in
theorem leaves_invalidateActive {op : ChannelOp Responder}
    {m : ProposalChannelManager Hash Responder} (hactive : m.active = w.manager.active)
    (htombstones : m.tombstones = w.manager.tombstones)
    (hprunes : w.manager.active = none → ¬w.Prunes op) (status : ProposalFinalStatus) :
    w.Leaves op now (m.invalidateActive channelHash status now).tombstones := by
  cases h : w.manager.active with
  | none =>
    rw [m.tombstones_invalidateActive_of_none channelHash (hactive.trans h), htombstones]
    exact .keep (hprunes h)
  | some a =>
    rw [m.tombstones_invalidateActive_of_some channelHash (hactive.trans h), htombstones]
    exact .bury _ _ _ List.suffix_rfl

theorem leaves_issue (nonce : Uuid) (binding : ProposalBinding) :
    w.Leaves (.issue nonce binding) now
      (w.call channelHash (.issue nonce binding) now).1.tombstones := by
  simp only [call, ProposalChannelManager.issue]
  split_ifs with havailable
  · exact .prune
  · cases h : w.manager.active with
    | none =>
      refine (?_ : w.Leaves _ now
        ((w.manager.pruneTombstones now).invalidateActive channelHash .superseded now).tombstones)
      rw [(w.manager.pruneTombstones now).tombstones_invalidateActive_of_none channelHash h]
      exact .prune
    | some a =>
      refine (?_ : w.Leaves _ now
        ((w.manager.pruneTombstones now).invalidateActive channelHash .superseded now).tombstones)
      rw [(w.manager.pruneTombstones now).tombstones_invalidateActive_of_some channelHash h]
      exact .bury _ _ _ (expire_suffix _ _ _ _ _)

theorem leaves_validatePermission (sessionId : String) (channel : ProposalChannel) :
    w.Leaves (.validatePermission sessionId channel) now
      (w.call channelHash (.validatePermission sessionId channel) now).1.tombstones := by
  simp only [call, ProposalChannelManager.validatePermission]
  split
  · exact .prune
  · split_ifs
    · exact .prune
    · split
      · exact .prune
      · split_ifs <;> exact .prune

theorem leaves_beginValidation (proposalId : String) (channel : ProposalChannel) :
    w.Leaves (.beginValidation proposalId channel) now
      (w.call channelHash (.beginValidation proposalId channel) now).1.tombstones := by
  simp only [call, ProposalChannelManager.beginValidation]
  split
  · exact .prune
  · split
    · exact .prune
    · split_ifs <;> exact .prune

theorem leaves_beginMcpValidation (proposalId sessionId : String) :
    w.Leaves (.beginMcpValidation proposalId sessionId) now
      (w.call channelHash (.beginMcpValidation proposalId sessionId) now).1.tombstones := by
  simp only [call, ProposalChannelManager.beginMcpValidation]
  split
  · exact .prune
  · split
    · exact .prune
    · split_ifs <;> exact .prune

theorem leaves_rejectValidation (proposalId : String) (retryable : Bool) :
    w.Leaves (.rejectValidation proposalId retryable) now
      (w.call channelHash (.rejectValidation proposalId retryable) now).1.tombstones := by
  simp only [call, ProposalChannelManager.rejectValidation]
  split
  · next h =>
    refine .keep ?_
    rintro ⟨a, ha, -⟩
    simp [h] at ha
  · next a ha =>
    split_ifs with hstate hretry
    · refine .keep ?_
      rintro ⟨a', ha', hstate', hid', -⟩
      obtain rfl := Option.some.inj (ha.symm.trans ha')
      exact hstate.elim (fun hne => hne hstate') fun hne => hne hid'
    · refine .keep ?_
      rintro ⟨a', ha', -, -, hretry'⟩
      obtain rfl := Option.some.inj (ha.symm.trans ha')
      have hle := hretry.2
      unfold maxValidationRetries at hle hretry'
      exact hretry' ⟨hretry.1, by omega⟩
    · rw [Prod.map, id]
      rw [ProposalChannelManager.tombstones_invalidateActive_of_some _ channelHash rfl]
      exact .bury _ _ _ List.suffix_rfl

theorem leaves_claimConfirmation (proposalId : String) :
    w.Leaves (.claimConfirmation proposalId) now
      (w.call channelHash (.claimConfirmation proposalId) now).1.tombstones := by
  simp only [call, ProposalChannelManager.claimConfirmation]
  split
  · next h =>
    refine .keep ?_
    rintro ⟨a, ha, -⟩
    simp [h] at ha
  · next a ha =>
    split_ifs with hstate
    · refine .keep ?_
      rintro ⟨a', ha', hstate', hid'⟩
      obtain rfl := Option.some.inj (ha.symm.trans ha')
      exact hstate.elim (fun hne => hne hstate') fun hne => hne hid'
    · exact .bury _ _ _ List.suffix_rfl

theorem leaves_finalizeConfirmation (index : ℕ) (status : ProposalFinalStatus) :
    w.Leaves (.finalizeConfirmation index status) now
      (w.call channelHash (.finalizeConfirmation index status) now).1.tombstones := by
  simp only [call]
  split
  · next h => exact .keep (not_lt.mpr (List.getElem?_eq_none_iff.mp h))
  · next held h =>
    by_cases hany : w.manager.tombstones.any (·.channelHash = held.2.channelHash) = true
    · obtain ⟨front, item, back, htombstones, hitem, hback⟩ :=
        ProposalChannelManager.exists_last hany
      rw [ProposalChannelManager.tombstones_finalizeConfirmation _ htombstones hitem hback]
      exact .refresh index status held front item back rfl h htombstones hitem hback
    · rw [ProposalChannelManager.finalizeConfirmation, ProposalChannelManager.tombstones_send,
        if_neg hany]
      exact .bury _ _ _ List.suffix_rfl

theorem leaves_resolveFinal (proposalId : String) (status : ProposalFinalStatus) :
    w.Leaves (.resolveFinal proposalId status) now
      (w.call channelHash (.resolveFinal proposalId status) now).1.tombstones := by
  simp only [call, ProposalChannelManager.resolveFinal]
  split_ifs with hany
  · exact leaves_invalidateActive channelHash w now rfl rfl
      (fun h hprunes => by
        obtain ⟨a, ha, -⟩ := hprunes
        simp [h] at ha) status
  · refine .keep ?_
    rintro ⟨a, ha, hid⟩
    refine hany ?_
    rw [ha, Option.any_some, hid]
    exact decide_eq_true rfl

theorem leaves_call (op : ChannelOp Responder) :
    w.Leaves op now (w.call channelHash op now).1.tombstones := by
  cases op with
  | issue nonce binding => exact leaves_issue channelHash w now nonce binding
  | validatePermission sessionId channel =>
    exact leaves_validatePermission channelHash w now sessionId channel
  | validateMcpPermission sessionId => exact .keep fun h => h
  | beginValidation proposalId channel =>
    exact leaves_beginValidation channelHash w now proposalId channel
  | beginMcpValidation proposalId sessionId =>
    exact leaves_beginMcpValidation channelHash w now proposalId sessionId
  | acceptValidation proposalId responder =>
    rcases acceptValidationInner_cases w.manager proposalId (some responder) with
      h | ⟨_, -, -, -, h⟩ <;>
    · simp only [call, ProposalChannelManager.acceptValidation, h]
      exact .keep fun h => h
  | acceptValidationDetached proposalId =>
    rcases acceptValidationInner_cases w.manager proposalId none with h | ⟨_, -, -, -, h⟩ <;>
    · simp only [call, ProposalChannelManager.acceptValidationDetached, h]
      exact .keep fun h => h
  | rejectValidation proposalId retryable =>
    exact leaves_rejectValidation channelHash w now proposalId retryable
  | claimConfirmation proposalId => exact leaves_claimConfirmation channelHash w now proposalId
  | finalizeConfirmation index status =>
    exact leaves_finalizeConfirmation channelHash w now index status
  | resolveFinal proposalId status => exact leaves_resolveFinal channelHash w now proposalId status
  | setPipeAvailable available =>
    cases available with
    | false =>
      exact leaves_invalidateActive channelHash w now rfl rfl (fun h hprunes => by
        have := hprunes.2
        simp [h] at this) _
    | true => exact .keep fun h => Bool.noConfusion h.1
  | setAgentTransportAvailable available =>
    cases available with
    | false =>
      exact leaves_invalidateActive channelHash w now rfl rfl (fun h hprunes => by
        have := hprunes.2
        simp [h] at this) _
    | true => exact .keep fun h => Bool.noConfusion h.1

/-! ### The order of the tombstones -/

/-- The tombstones are few, in the order of their times, and not from the future. -/
structure Ordered (w : World Hash Responder) (clock : ℕ) : Prop where
  sorted : w.manager.tombstones.Pairwise fun item later => item.createdAt ≤ later.createdAt
  le_clock : ∀ item ∈ w.manager.tombstones, item.createdAt ≤ clock
  length_le : w.manager.tombstones.length ≤ maxTombstones

variable {channelHash w now} {clock : ℕ} {op : ChannelOp Responder}

omit [DecidableEq Hash] in
theorem ordered_of_prune {w' : World Hash Responder} {tombstones : List (Tombstone Hash)}
    (h : w'.manager.tombstones = prune now tombstones)
    (hsorted : tombstones.Pairwise fun item later => item.createdAt ≤ later.createdAt)
    (hle : ∀ item ∈ tombstones, item.createdAt ≤ now) : w'.Ordered now where
  sorted := by
    rw [h]
    exact hsorted.sublist (expire_suffix _ _ _ _ _).sublist
  le_clock item hitem := by
    rw [h] at hitem
    exact hle item ((expire_suffix _ _ _ _ _).subset hitem)
  length_le := by
    rw [h]
    exact length_expire_le _ _ _ _ _

omit [DecidableEq Hash] in
theorem Ordered.mono (h : w.Ordered clock) (hnow : clock ≤ now) : w.Ordered now :=
  { h with le_clock := fun item hitem => (h.le_clock item hitem).trans hnow }

variable (channelHash) in
theorem Ordered.exists_prune (h : w.Ordered clock) (hnow : clock ≤ now)
    (hovertakes : ¬w.Overtakes (op, now)) :
    (¬w.Prunes op ∧ (w.step channelHash (op, now)).manager.tombstones = w.manager.tombstones) ∨
    ∃ tombstones, (w.step channelHash (op, now)).manager.tombstones = prune now tombstones ∧
      (tombstones.Pairwise fun item later => item.createdAt ≤ later.createdAt) ∧
      ∀ item ∈ tombstones, item.createdAt ≤ now := by
  have h := h.mono hnow
  have hleaves := leaves_call channelHash w now op
  change w.Leaves op now (w.step channelHash (op, now)).manager.tombstones at hleaves
  generalize (w.step channelHash (op, now)).manager.tombstones = left at hleaves ⊢
  cases hleaves with
  | keep hprunes => exact .inl ⟨hprunes, rfl⟩
  | prune => exact .inr ⟨_, rfl, h.sorted, h.le_clock⟩
  | bury kept hash status hkept =>
    refine .inr ⟨_, rfl, ?_, fun item hitem => ?_⟩
    · refine List.pairwise_append.mpr ⟨h.sorted.sublist hkept.sublist,
        List.pairwise_singleton _ _, fun item hitem later hlater => ?_⟩
      rw [List.mem_singleton.mp hlater]
      exact h.le_clock item (hkept.subset hitem)
    · rcases List.mem_append.mp hitem with hitem | hitem
      · exact h.le_clock item (hkept.subset hitem)
      · rw [List.mem_singleton.mp hitem]
  | refresh index status held front item back hop hheld htombstones hitem hback =>
    have hnewer : ∀ later ∈ back, now ≤ later.createdAt := fun later hlater => by
      by_contra hlt
      exact hovertakes ⟨index, status, held, front, item, back, hop, hheld, htombstones, hitem,
        hback, later, hlater, not_le.mp hlt⟩
    have hsorted := h.sorted
    have hle := h.le_clock
    rw [htombstones] at hsorted hle
    obtain ⟨hfront, hrest, -⟩ := List.pairwise_append.mp hsorted
    refine .inr ⟨_, rfl, ?_, fun item' hitem' => ?_⟩
    · refine List.pairwise_append.mpr ⟨hfront, List.pairwise_cons.mpr
        ⟨hnewer, (List.pairwise_cons.mp hrest).2⟩, fun item' hitem' later hlater => ?_⟩
      have hitem' := hle item' (List.mem_append_left _ hitem')
      rcases List.mem_cons.mp hlater with rfl | hlater
      · exact hitem'
      · exact hitem'.trans (hnewer later hlater)
    · rcases List.mem_append.mp hitem' with hitem' | hitem'
      · exact hle item' (List.mem_append_left _ hitem')
      · rcases List.mem_cons.mp hitem' with rfl | hitem'
        · exact le_rfl
        · exact hle item' (List.mem_append_right _ (List.mem_cons_of_mem _ hitem'))

theorem Ordered.next (h : w.Ordered clock) (hnow : clock ≤ now)
    (hovertakes : ¬w.Overtakes (op, now)) : (w.step channelHash (op, now)).Ordered now := by
  rcases h.exists_prune channelHash hnow hovertakes with
    ⟨-, hkeep⟩ | ⟨tombstones, hprune, hsorted, hle⟩
  · have h := h.mono hnow
    exact ⟨by rw [hkeep]; exact h.sorted, by rw [hkeep]; exact h.le_clock,
      by rw [hkeep]; exact h.length_le⟩
  · exact ordered_of_prune hprune hsorted hle

/-! ### Expiry -/

variable (channelHash) (w)

/-- A channel of this helper that is not in the slot, and has no recent tombstone. -/
structure Forgotten (w : World Hash Responder) (channel : ProposalChannel) (now : ℕ) : Prop where
  isLocal : channel.helperInstanceId = w.manager.helperInstanceId
  slot_ne : w.slot ≠ some channel
  expired : ∀ item ∈ w.manager.tombstones, item.channelHash = channelHash channel →
    tombstoneTtl ≤ now - item.createdAt

/-- The failure of a call that names a channel of which there is no tombstone. -/
def unknownChannel : ChannelFailure :=
  ⟨.unknownChannel, "channel is not active on this Helper", false⟩

/-- Tombstones expire for a call: those that it leaves when it prunes are few and recent, and a
channel without a recent one is reported as unknown. -/
structure CallExpires (w : World Hash Responder) (e : ChannelOp Responder × ℕ) : Prop where
  length_le : w.Prunes e.1 → (w.step channelHash e).manager.tombstones.length ≤ maxTombstones
  recent : w.Prunes e.1 → ∀ item ∈ (w.step channelHash e).manager.tombstones,
    e.2 - item.createdAt < tombstoneTtl
  permission : ∀ sessionId channel, e.1 = .validatePermission sessionId channel →
    w.manager.transportAvailable → w.Forgotten channelHash channel e.2 →
      (w.call channelHash e.1 e.2).2 = .permission (.error unknownChannel)
  validation : ∀ proposalId channel, e.1 = .beginValidation proposalId channel →
    w.Forgotten channelHash channel e.2 →
      (w.call channelHash e.1 e.2).2 = .validation (.error unknownChannel)

variable {channelHash w}

theorem Ordered.inactiveFailure (h : w.Ordered clock) {channel : ProposalChannel}
    (hforgotten : w.Forgotten channelHash channel now) :
    (w.manager.pruneTombstones now).inactiveFailure channelHash channel = unknownChannel := by
  have hnone : (prune now w.manager.tombstones).reverse.find?
      (·.channelHash = channelHash channel) = none := by
    refine List.find?_eq_none.mpr fun item hitem hhash => ?_
    rw [List.mem_reverse] at hitem
    have hrecent := lt_of_mem_expire h.sorted hitem
    have hexpired := hforgotten.expired item ((expire_suffix _ _ _ _ _).subset hitem)
      (of_decide_eq_true hhash)
    omega
  rw [ProposalChannelManager.inactiveFailure, ProposalChannelManager.tombstones_pruneTombstones,
    hnone]
  rfl

theorem Ordered.callExpires (h : w.Ordered clock) (hnow : clock ≤ now)
    (hovertakes : ¬w.Overtakes (op, now)) : w.CallExpires channelHash (op, now) where
  length_le _ := (h.next hnow hovertakes).length_le
  recent hprunes item hitem := by
    rcases h.exists_prune channelHash hnow hovertakes with
      ⟨hnot, -⟩ | ⟨tombstones, hprune, hsorted, -⟩
    · exact absurd hprunes hnot
    · rw [hprune] at hitem
      exact lt_of_mem_expire hsorted hitem
  permission sessionId channel hop havailable hforgotten := by
    dsimp only at hop hforgotten ⊢
    subst hop
    have hlocal : (w.manager.pruneTombstones now).ensureLocalChannel channel = .ok () :=
      if_neg (not_not.mpr hforgotten.isLocal)
    simp only [call, ProposalChannelManager.validatePermission, hlocal,
      ProposalChannelManager.transportAvailable_pruneTombstones, havailable, Bool.not_true,
      Bool.false_eq_true, if_false]
    split
    · rw [h.inactiveFailure hforgotten]
      rfl
    · next a ha =>
      have hne : a.channel ≠ channel := fun heq => hforgotten.slot_ne (by
        rw [slot, show w.manager.active = some a from ha, Option.map_some, heq])
      rw [if_pos hne, h.inactiveFailure hforgotten]
      rfl
  validation proposalId channel hop hforgotten := by
    dsimp only at hop hforgotten ⊢
    subst hop
    have hlocal : (w.manager.pruneTombstones now).ensureLocalChannel channel = .ok () :=
      if_neg (not_not.mpr hforgotten.isLocal)
    simp only [call, ProposalChannelManager.beginValidation, hlocal]
    split
    · rw [h.inactiveFailure hforgotten]
      rfl
    · next a ha =>
      have hne : a.channel ≠ channel := fun heq => hforgotten.slot_ne (by
        rw [slot, show w.manager.active = some a from ha, Option.map_some, heq])
      rw [if_pos hne, h.inactiveFailure hforgotten]
      rfl

variable (channelHash) in
theorem Ordered.exists_not_callExpires (h : w.Ordered clock) (hovertakes : w.Overtakes (op, now))
    (sessionId : String) (channel : ProposalChannel) :
    ∃ later, now ≤ later ∧ ¬(w.step channelHash (op, now)).CallExpires channelHash
      (.validatePermission sessionId channel, later) := by
  obtain ⟨index, status, held, front, item, back, hop, hheld, htombstones, hitem, hback, older,
    holder, hlt⟩ := hovertakes
  dsimp only at hop hlt
  subst hop
  have hstep : (w.step channelHash (.finalizeConfirmation index status, now)).manager.tombstones =
      prune now (front ++ { item with status := some status, createdAt := now } :: back) := by
    simp only [step, call, hheld]
    exact ProposalChannelManager.tombstones_finalizeConfirmation _ htombstones hitem hback _ _
  have hlength := h.length_le
  rw [htombstones] at hlength
  have hlength' : (front ++ { item with status := some status, createdAt := now } :: back).length ≤
      maxTombstones := by simpa using hlength
  obtain ⟨later, hlater, old, hold, hexpired⟩ := exists_expired_of_lt Tombstone.createdAt
    tombstoneTtl maxTombstones (by decide) holder hlt hlength'
  refine ⟨later, hlater, fun hexpires => absurd (hexpires.recent trivial old ?_)
    (not_lt.mpr hexpired)⟩
  have hpruned : ∀ (w : World Hash Responder) (now : ℕ),
      (w.step channelHash (.validatePermission sessionId channel, now)).manager.tombstones =
        prune now w.manager.tombstones := by
    intro w now
    simp only [step, call, ProposalChannelManager.validatePermission]
    split
    · rfl
    · split_ifs
      · rfl
      · split
        · rfl
        · split_ifs <;> rfl
  rw [hpruned, hstep]
  exact hold

/-! ### Runs -/

theorem Ordered.foldl (h : w.Ordered clock) {calls : List (ChannelOp Responder × ℕ)}
    (hclock : calls.Pairwise fun e later => e.2 ≤ later.2) (hfirst : ∀ e ∈ calls, clock ≤ e.2)
    (halong : Along (step channelHash) (fun w e => ¬w.Overtakes e) w calls)
    (hnow : clock ≤ now) (hlast : ∀ e ∈ calls, e.2 ≤ now) :
    (calls.foldl (step channelHash) w).Ordered now := by
  induction calls generalizing w clock with
  | nil => exact h.mono hnow
  | cons e calls ih =>
    obtain ⟨hnext, hclock⟩ := List.pairwise_cons.mp hclock
    exact ih (h.next (hfirst e List.mem_cons_self) halong.1) hclock hnext halong.2
      (hlast e List.mem_cons_self) fun e' he' => hlast e' (List.mem_cons_of_mem e he')

theorem ordered_run {helperInstanceId : Uuid} {calls : List (ChannelOp Responder × ℕ)}
    (hclock : calls.Pairwise fun e later => e.2 ≤ later.2)
    (halong : Along (step channelHash) (fun w e => ¬w.Overtakes e)
      { manager := { helperInstanceId } } calls) (hlast : ∀ e ∈ calls, e.2 ≤ now) :
    (run channelHash helperInstanceId calls).Ordered now := by
  have hinit : ({ manager := { helperInstanceId } } : World Hash Responder).Ordered 0 :=
    ⟨.nil, fun item hitem => absurd hitem List.not_mem_nil, Nat.zero_le _⟩
  exact hinit.foldl hclock (fun _ _ => Nat.zero_le _) halong (Nat.zero_le _) hlast

end World

/-- Tombstones expire in a run: they do for each of its calls. -/
def Expires [DecidableEq Hash] (channelHash : ProposalChannel → Hash) (helperInstanceId : Uuid)
    (calls : List (ChannelOp Responder × ℕ)) : Prop :=
  ∀ pre e, pre ++ [e] <+: calls →
    (World.run channelHash helperInstanceId pre).CallExpires channelHash e

open World in
theorem expires_of_along [DecidableEq Hash] {channelHash : ProposalChannel → Hash}
    {helperInstanceId : Uuid} {calls : List (ChannelOp Responder × ℕ)}
    (hclock : calls.Pairwise fun e later => e.2 ≤ later.2)
    (halong : Along (step channelHash) (fun w e => ¬w.Overtakes e)
      { manager := { helperInstanceId } } calls) :
    Expires channelHash helperInstanceId calls := by
  intro pre e hpre
  have hclock := hclock.sublist hpre.sublist
  obtain ⟨hpreAlong, hovertakes, -⟩ := Along.append.mp (halong.of_isPrefix hpre)
  obtain ⟨hpreClock, -, hlast⟩ := List.pairwise_append.mp hclock
  exact (ordered_run hpreClock hpreAlong fun e' he' =>
    hlast e' he' e (List.mem_singleton_self e)).callExpires le_rfl hovertakes

open World in
/-- Tombstones expire in each run that follows the given one up to some call and then checks a
channel, exactly if no confirmation of the run is finalized in front of an older tombstone. -/
theorem expires_iff_along_not_overtakes [DecidableEq Hash] (channelHash : ProposalChannel → Hash)
    (helperInstanceId : Uuid) (calls : List (ChannelOp Responder × ℕ))
    (hclock : calls.Pairwise fun e later => e.2 ≤ later.2) :
    (∀ pre, pre <+: calls → ∀ now, (∀ e ∈ pre, e.2 ≤ now) →
      ∀ op : ChannelOp Responder, op.channel.isSome →
        Expires channelHash helperInstanceId (pre ++ [(op, now)])) ↔
      Along (step channelHash) (fun w e => ¬w.Overtakes e) { manager := { helperInstanceId } }
        calls := by
  constructor
  · intro h
    induction calls using List.reverseRecOn with
    | nil => trivial
    | append_singleton calls e ih =>
      obtain ⟨hcalls, -, hlast⟩ := List.pairwise_append.mp hclock
      have halong := ih hcalls fun pre hpre => h pre (hpre.trans (List.prefix_append _ _))
      refine Along.append.mpr ⟨halong, fun hovertakes => ?_, trivial⟩
      have hordered : (run channelHash helperInstanceId calls).Ordered e.2 :=
        ordered_run hcalls halong fun e' he' => hlast e' he' e (List.mem_singleton_self e)
      obtain ⟨later, hlater, hnot⟩ := hordered.exists_not_callExpires channelHash hovertakes ""
        ⟨helperInstanceId, helperInstanceId⟩
      have hexpires := h (calls ++ [e]) List.prefix_rfl later (fun e' he' => by
        rcases List.mem_append.mp he' with he' | he'
        · exact (hlast e' he' e (List.mem_singleton_self e)).trans hlater
        · rwa [List.mem_singleton.mp he']) (.validatePermission "" ⟨helperInstanceId, helperInstanceId⟩) rfl
        (calls ++ [e]) _ List.prefix_rfl
      rw [run, List.foldl_append] at hexpires
      exact hnot hexpires
  · intro halong pre hpre now hnow op hop
    refine expires_of_along ?_ (Along.append.mpr ⟨halong.of_isPrefix hpre, ?_, trivial⟩)
    · refine List.pairwise_append.mpr ⟨hclock.sublist hpre.sublist, List.pairwise_singleton _ _,
        fun e he later hlater => ?_⟩
      rw [List.mem_singleton.mp hlater]
      exact hnow e he
    · -- A check of a channel finalizes nothing.
      rintro ⟨index, status, held, front, item, back, rfl, -⟩
      exact absurd hop (by simp [ChannelOp.channel])

open World in
theorem expires_of_supersede :
    let calls : List (ChannelOp ℕ × ℕ) :=
      [(.issue 1 (promptBinding "s" 1), 0), (.issue 2 (promptBinding "s" 2), 1)]
    ∀ pre, pre <+: calls → ∀ now, (∀ e ∈ pre, e.2 ≤ now) →
      ∀ op : ChannelOp ℕ, op.channel.isSome → Expires channelDigest 7 (pre ++ [(op, now)]) := by
  refine (expires_iff_along_not_overtakes channelDigest 7 _ (by decide)).mpr ⟨?_, ?_, trivial⟩ <;>
  · rintro ⟨index, status, held, front, item, back, hop, -⟩
    simp at hop

open World in
/-- The second channel is retired while the first is confirmed. Its tombstone is too old when it is
named again, but stands behind that of the first. -/
theorem not_expires_of_slow_confirmation :
    ¬∀ calls : List (ChannelOp ℕ × ℕ), calls.Pairwise (fun e later => e.2 ≤ later.2) →
      Expires channelDigest 7 calls := by
  intro h
  let calls : List (ChannelOp ℕ × ℕ) :=
    [(.issue 1 (promptBinding "s" 1), 0), (.beginValidation "i" ⟨7, 1⟩, 1),
      (.acceptValidation "i" 0, 2), (.claimConfirmation "i", 3),
      (.issue 2 (promptBinding "s" 2), 4), (.issue 3 (promptBinding "s" 3), 5),
      (.finalizeConfirmation 0 .confirmed, 100000)]
  have hexpires := h (calls ++ [(.validatePermission "s" ⟨7, 2⟩, 190000)]) (by decide) calls _
    List.prefix_rfl
  exact absurd (hexpires.recent trivial) (by decide +kernel)

end IntelligentTerminal.Proposals
