import IntelligentTerminal.RichTab.BrokerRuns

/-!
# The updates of an attachment are numbered upwards

Every update carries the number of its session's last update. An action that tells somebody who
was attached before gives the session a new number first, and a session that is made again under
the same identifier is a new incarnation. So the number of an incarnation never decreases, and two
updates that were sent to one attachment for one incarnation have different numbers.
-/

namespace IntelligentTerminal.RichTab

/-- An action takes the broker from `b` to `b'` and sends updates: sessions keep their incarnation
and number upwards, or are new; an attachment is told once, with a new number unless it is new. -/
structure Broker.Tells (b b' : Broker) (notifications : List (AttachmentId × BrokerUpdate)) :
    Prop where
  wf : b'.Wf
  nextSessionIncarnation : b.nextSessionIncarnation ≤ b'.nextSessionIncarnation
  nextAttachment : b.nextAttachment ≤ b'.nextAttachment
  session : ∀ sid session', b'.sessions.lookup sid = some session' →
    (∃ session, b.sessions.lookup sid = some session ∧
      session'.sessionIncarnation = session.sessionIncarnation ∧
      session.updateSequence ≤ session'.updateSequence ∧
      ∀ a ∈ session'.callbacks, a ∈ session.callbacks ∨ b.nextAttachment ≤ a) ∨
    b.nextSessionIncarnation ≤ session'.sessionIncarnation
  sends : ∀ n ∈ notifications, ∃ sid session',
    b'.sessions.lookup sid = some session' ∧ n.1 ∈ session'.callbacks ∧
    n.2.sessionIncarnation = session'.sessionIncarnation ∧
    n.2.updateSequence = session'.updateSequence ∧
    (b.nextAttachment ≤ n.1 ∨ ∀ session, b.sessions.lookup sid = some session →
      session.sessionIncarnation = session'.sessionIncarnation →
      session.updateSequence < session'.updateSequence)
  nodup : (notifications.map Prod.fst).Nodup

theorem Locked.Sound.tells {b : Broker} {out : Locked} (h : Locked.Sound b out) :
    b.Tells out.broker out.notifications where
  wf := h.wf
  nextSessionIncarnation := h.nextSessionIncarnation
  nextAttachment := h.nextAttachment
  session := by
    intro sid session' hs'
    rcases h.origin sid session' hs' with ⟨session, hs, hm, -, hcb⟩ | ⟨hnew, -⟩
    · exact .inl ⟨session, hs, hm.sessionIncarnation, hm.updateSequence, hcb⟩
    · exact .inr hnew
  sends := h.sends
  nodup := h.nodup

theorem Broker.Wf.tells_self {b : Broker} (h : b.Wf) : b.Tells b [] :=
  (Broker.sound_self h []).tells

namespace System

variable {s : System}

theorem tells_refreshed {call : RefreshCall} {session : SessionState} {r : Refreshing}
    (h : s.Inv) (hs : s.broker.sessions.lookup call.sessionId = some session)
    (hr : Refreshing.Inv s.broker session call s.broker.providers.registrations r)
    (refreshes : List RefreshCall) :
    s.broker.Tells (s.refreshed call session r refreshes).broker [] where
  wf := wf_refreshed h hs hr refreshes
  nextSessionIncarnation := le_rfl
  nextAttachment := le_rfl
  session := Broker.forall_store (g := r.nextGeneration)
    (fun _ session' hs' => .inl ⟨session', hs', rfl, le_rfl, fun _ ha => .inl ha⟩)
    (.inl ⟨session, hs, rfl, le_rfl, fun _ ha => .inl ha⟩)
  sends := fun _ hn => absurd hn List.not_mem_nil
  nodup := List.nodup_nil

section Finish

variable {index : ℕ} {run : Run} {session : SessionState} {state : ProviderState}

theorem updateSequence_finishedSession (outcome : RunOutcome) :
    (finishedSession session state run outcome).updateSequence =
      if Broker.judge session state run = .accepted then session.updateSequence + 1
      else session.updateSequence := by
  unfold finishedSession Broker.endSession
  split_ifs <;> rfl

theorem tells_finished (h : s.Inv)
    (hs : s.broker.sessions.lookup run.request.sessionId = some session)
    (hstate : session.providers.lookup run.provider.manifest.id = some state)
    (outcome : RunOutcome) :
    ∃ notifications, s.broker.Tells (s.finished index run session state outcome).broker
        notifications ∧
      (s.finished index run session state outcome).sent = s.sent ++ notifications := by
  have hle : session.updateSequence ≤
      (finishedSession session state run outcome).updateSequence := by
    rw [updateSequence_finishedSession]
    split_ifs
    · exact Nat.le_succ _
    · exact le_rfl
  refine ⟨_, ⟨wf_finished h hs hstate outcome, le_rfl, le_rfl, ?_, ?_, ?_⟩, rfl⟩
  · refine Broker.forall_store (g := s.broker.nextGeneration)
      (fun sid session' hs' => .inl ⟨session', hs', rfl, le_rfl, fun _ ha => .inl ha⟩)
      (.inl ⟨session, hs, sessionIncarnation_finishedSession outcome, hle, fun a ha => ?_⟩)
    rw [callbacks_finishedSession] at ha
    exact .inl ha
  · intro n hn
    split_ifs at hn with haccepted
    · obtain ⟨ha, hinc, hseq⟩ := Broker.mem_notificationsFor hn
      refine ⟨run.request.sessionId, finishedSession session state run outcome,
        AList.lookup_insert _, ha, hinc, hseq, .inr fun session' hs' _ => ?_⟩
      obtain rfl := Option.some.inj (hs.symm.trans hs')
      rw [updateSequence_finishedSession, if_pos haccepted]
      exact Nat.lt_succ_self _
    · exact absurd hn List.not_mem_nil
  · split_ifs
    · rw [Broker.map_fst_notificationsFor]
      have hcb : (finishedSession session state run outcome).callbacks = session.callbacks :=
        callbacks_finishedSession outcome
      exact hcb.symm ▸ h.wf.nodup _ session hs
    · exact List.nodup_nil

end Finish

theorem tells_step (h : s.Inv) (a : Action) :
    ∃ notifications, s.broker.Tells (s.step a).broker notifications ∧
      (s.step a).sent = s.sent ++ notifications := by
  rcases step_cases h.wf a with ⟨out, hout, -, heq⟩ | ⟨index, -, heq⟩ | ⟨index, outcome, -, heq⟩
  · exact ⟨out.notifications, heq.symm ▸ hout.tells, heq.symm ▸ rfl⟩
  · rw [heq]
    cases hcall : s.refreshes[index]? with
    | none =>
      rw [makeRefresh_of_none hcall]
      exact ⟨[], h.wf.tells_self, (List.append_nil _).symm⟩
    | some call =>
      rcases makeRefresh_cases hcall with ⟨heq, -⟩ | ⟨session, r, hs, -, hr, heq⟩
      · exact heq.symm ▸ ⟨[], h.wf.tells_self, (List.append_nil _).symm⟩
      · exact heq.symm ▸ ⟨[], tells_refreshed h hs hr _, (List.append_nil _).symm⟩
  · rw [heq]
    cases hrun : s.runs[index]? with
    | none =>
      rw [finishRun_of_none hrun]
      exact ⟨[], h.wf.tells_self, (List.append_nil _).symm⟩
    | some run =>
      rcases finishRun_cases hrun outcome with ⟨disposition, -, -, -, heq, -⟩ |
        ⟨session, state, hs, hstate, -, -, heq⟩
      · exact heq.symm ▸ ⟨[], h.wf.tells_self, (List.append_nil _).symm⟩
      · exact heq.symm ▸ tells_finished h hs hstate outcome

/-! ### What was sent -/

/-- What holds of the updates that were sent. -/
structure Ordered (s : System) : Prop where
  known : ∀ n ∈ s.sent, n.1 < s.broker.nextAttachment ∧
    n.2.sessionIncarnation < s.broker.nextSessionIncarnation
  reached : ∀ n ∈ s.sent, ∀ sid session, s.broker.sessions.lookup sid = some session →
    n.1 ∈ session.callbacks → n.2.sessionIncarnation = session.sessionIncarnation →
    n.2.updateSequence ≤ session.updateSequence
  pairwise : s.sent.Pairwise fun n n' => n.1 = n'.1 →
    n.2.sessionIncarnation = n'.2.sessionIncarnation → n.2.updateSequence < n'.2.updateSequence


theorem ordered_step (h : s.Inv) (ho : s.Ordered) (a : Action) : (s.step a).Ordered := by
  obtain ⟨notifications, ht, hsent⟩ := tells_step h a
  -- an older update to an attachment of a session has a smaller number, if the session moved
  have hold : ∀ n ∈ s.sent, ∀ sid session', (s.step a).broker.sessions.lookup sid = some session' →
      n.1 ∈ session'.callbacks → n.2.sessionIncarnation = session'.sessionIncarnation →
      ∃ session, s.broker.sessions.lookup sid = some session ∧
        session.sessionIncarnation = session'.sessionIncarnation ∧
        session.updateSequence ≤ session'.updateSequence ∧
        n.2.updateSequence ≤ session.updateSequence := by
    intro n hn sid session' hs' ha hinc
    obtain ⟨hknown, hknown'⟩ := ho.known n hn
    rcases ht.session sid session' hs' with ⟨session, hs, hinc', hseq, hcb⟩ | hnew
    · have ha' : n.1 ∈ session.callbacks := (hcb n.1 ha).resolve_right (not_le.mpr hknown)
      exact ⟨session, hs, hinc'.symm, hseq, ho.reached n hn sid session hs ha' (hinc.trans hinc')⟩
    · omega
  refine ⟨?_, ?_, ?_⟩
  · intro n hn
    rw [hsent] at hn
    rcases List.mem_append.mp hn with hn | hn
    · exact ⟨(ho.known n hn).1.trans_le ht.nextAttachment,
        (ho.known n hn).2.trans_le ht.nextSessionIncarnation⟩
    · obtain ⟨sid, session', hs', ha, hinc, -⟩ := ht.sends n hn
      exact ⟨ht.wf.fresh _ _ (ht.wf.attached sid session' hs' n.1 ha),
        hinc ▸ ht.wf.sessionIncarnation sid session' hs'⟩
  · intro n hn sid session' hs' ha hinc
    rw [hsent] at hn
    rcases List.mem_append.mp hn with hn | hn
    · obtain ⟨session, -, -, hseq, hle⟩ := hold n hn sid session' hs' ha hinc
      exact hle.trans hseq
    · obtain ⟨sid', session'', hs'', ha'', -, hseq, -⟩ := ht.sends n hn
      have hsid : sid = sid' := Option.some.inj ((ht.wf.attached sid session' hs' n.1 ha).symm.trans
        (ht.wf.attached sid' session'' hs'' n.1 ha''))
      subst hsid
      obtain rfl := Option.some.inj (hs'.symm.trans hs'')
      exact hseq.le
  · rw [hsent, List.pairwise_append]
    refine ⟨ho.pairwise, ?_, ?_⟩
    · exact (List.pairwise_map.mp ht.nodup).imp fun hne heq => absurd heq hne
    · intro n hn n' hn' heq hinc
      obtain ⟨sid, session', hs', ha, hinc', hseq, hlt⟩ := ht.sends n' hn'
      obtain ⟨session, hs, hinc'', -, hle⟩ :=
        hold n hn sid session' hs' (heq ▸ ha) (hinc.trans hinc')
      rcases hlt with hnew | hlt
      · exact absurd (heq ▸ (ho.known n hn).1) (not_lt.mpr hnew)
      · have hless := hlt session hs hinc''
        omega

theorem ordered_run (h : s.Inv) (ho : s.Ordered) (actions : List Action) :
    (s.run actions).Ordered := by
  induction actions generalizing s with
  | nil => exact ho
  | cons a actions ih => exact ih (inv_step h a) (ordered_step h ho a)

theorem nextSessionIncarnation_le_run (h : s.Inv) (actions : List Action) :
    s.broker.nextSessionIncarnation ≤ (s.run actions).broker.nextSessionIncarnation := by
  induction actions generalizing s with
  | nil => exact le_rfl
  | cons a actions ih =>
    obtain ⟨notifications, ht, -⟩ := tells_step h a
    exact ht.nextSessionIncarnation.trans (ih (inv_step h a))

theorem updateSequence_le_run (h : s.Inv) (actions : List Action) {sid : String}
    {session session' : SessionState} (hs : s.broker.sessions.lookup sid = some session)
    (hs' : (s.run actions).broker.sessions.lookup sid = some session')
    (hinc : session'.sessionIncarnation = session.sessionIncarnation) :
    session.updateSequence ≤ session'.updateSequence := by
  induction actions using List.reverseRecOn generalizing session' with
  | nil =>
    obtain rfl := Option.some.inj (hs.symm.trans hs')
    exact le_rfl
  | append_singleton actions a ih =>
    rw [run, List.foldl_append] at hs'
    obtain ⟨notifications, ht, -⟩ := tells_step (inv_run h actions) a
    rcases ht.session sid session' hs' with ⟨middle, hm, hinc', hseq, -⟩ | hnew
    · exact (ih hm (hinc'.symm.trans hinc)).trans hseq
    · -- the incarnation would be a new one
      have hlt := h.wf.sessionIncarnation sid session hs
      have hle := nextSessionIncarnation_le_run h actions
      omega

end System

end IntelligentTerminal.RichTab
