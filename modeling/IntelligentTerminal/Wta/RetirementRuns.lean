import IntelligentTerminal.Data.Run
import IntelligentTerminal.Wta.Retirement

/-!
# Runs of a retirement coordinator

Every call changes one operation and then drops some that are finished. So an operation with a
continuation outstanding lives, the requests name the operations that carry them, and the history
is the finished operations that still live.
-/

namespace IntelligentTerminal.Wta

/-! ### Ids -/

theorem operationIdOf_injective (processId : ℕ) (kind : String) :
    Function.Injective (operationIdOf processId kind) := by
  intro n m h
  have hdigits : Nat.toDigits 10 n = Nat.toDigits 10 m := by
    have hlist := congrArg String.toList h
    simp only [operationIdOf, String.toList_append, List.append_cancel_left_eq] at hlist
    simpa only [Nat.toString_eq_repr, Nat.toList_repr] using hlist
  have hvalue := congrArg (Nat.ofDigitChars 10 · 0) hdigits
  simpa only [Nat.ofDigitChars_ten_toDigits] using hvalue

/-- What has a continuation outstanding is not finished. -/
structure Operation.Settled (o : Operation) : Prop where
  live : o.completed = false ∨ o.expireAfterContinuations = true → 0 < o.continuationCount
  recorded : o.recordedInHistory = true ↔ o.completed = true ∧ o.continuationCount = 0

namespace RetirementCoordinator

variable {c c' c'' : RetirementCoordinator} {id k : String} {o o' : Operation}
  {request : String} {l : List String} {scopeAll : Bool} {count : ℕ}

/-- An id that was made for an operation. -/
def Issued (c : RetirementCoordinator) (id : String) : Prop :=
  ∃ n < c.nextOperationId, id = operationIdOf c.processId "operation" (n + 1)

/-- The tables of a coordinator fit together. -/
structure Coherent (c : RetirementCoordinator) : Prop where
  issued : ∀ id, (c.operations.lookup id).isSome ∨ id ∈ c.completedOperations → c.Issued id
  byRequest : ∀ request id, c.allOperationsByRequest.lookup request = some id ↔
    ∃ o, c.operations.lookup id = some o ∧ o.requestId = some request
  history : ∀ id o, c.operations.lookup id = some o →
    (id ∈ c.completedOperations ↔ o.recordedInHistory = true)
  nodup : c.completedOperations.Nodup

/-- Between two calls, each operation is settled and the history is bounded. -/
structure Sound (c : RetirementCoordinator) : Prop extends Coherent c where
  settled : ∀ id o, c.operations.lookup id = some o → o.Settled
  bounded : c.completedOperations.length ≤ completedHistoryLimit

/-! ### Erasing -/

theorem lookup_eraseLocked (c : RetirementCoordinator) (k id : String) :
    (c.eraseLocked k).operations.lookup id = if id = k then none else c.operations.lookup id := by
  rw [eraseLocked]
  cases hlookup : c.operations.lookup k with
  | none =>
    split_ifs with hid
    · rw [hid]
      exact hlookup
    · rfl
  | some o => exact Table.lookup_erase_eq _ _ _

theorem eraseLocked_fields (c : RetirementCoordinator) (k : String) :
    (c.eraseLocked k).processId = c.processId ∧
      (c.eraseLocked k).nextOperationId = c.nextOperationId ∧
      (c.eraseLocked k).completedOperations = c.completedOperations := by
  rw [eraseLocked]
  cases c.operations.lookup k with
  | none => exact ⟨rfl, rfl, rfl⟩
  | some o => exact ⟨rfl, rfl, rfl⟩

theorem Coherent.lookup_request_eraseLocked (h : Coherent c) (k request : String) :
    (c.eraseLocked k).allOperationsByRequest.lookup request =
      if c.allOperationsByRequest.lookup request = some k then none
      else c.allOperationsByRequest.lookup request := by
  rw [eraseLocked]
  cases hlookup : c.operations.lookup k with
  | none =>
    rw [if_neg]
    intro hrequest
    obtain ⟨o, ho, -⟩ := (h.byRequest request k).mp hrequest
    rw [hlookup] at ho
    cases ho
  | some o =>
    have hcarries : ∀ r, c.allOperationsByRequest.lookup r = some k ↔ o.requestId = some r := by
      intro r
      rw [h.byRequest, hlookup]
      simp only [Option.some.injEq, exists_eq_left']
    simp only
    cases hrequest : o.requestId with
    | none =>
      rw [if_neg]
      rw [hcarries, hrequest]
      exact nofun
    | some r =>
      simp only [(hcarries r).mpr hrequest, if_true, Table.lookup_erase_eq, hcarries, hrequest,
        Option.some.injEq, eq_comm]

theorem Coherent.eraseLocked (h : Coherent c) (k : String) : Coherent (c.eraseLocked k) := by
  obtain ⟨hprocess, hnext, hcompleted⟩ := eraseLocked_fields c k
  refine ⟨fun id hid => ?_, fun request id => ?_, fun id o hid => ?_, ?_⟩
  · rw [Issued, hprocess, hnext]
    refine h.issued id (hid.imp (fun hsome => ?_) fun hmem => hcompleted ▸ hmem)
    rw [lookup_eraseLocked] at hsome
    split_ifs at hsome with hk
    · cases hsome
    · exact hsome
  · rw [h.lookup_request_eraseLocked, lookup_eraseLocked]
    split_ifs with hrequest hid hid
    · exact ⟨nofun, fun ⟨_, ho, _⟩ => nomatch ho⟩
    · refine ⟨nofun, fun hcarries => ?_⟩
      rw [← h.byRequest, hrequest] at hcarries
      exact absurd (Option.some.inj hcarries).symm hid
    · refine ⟨fun hrequest' => ?_, fun ⟨_, ho, _⟩ => nomatch ho⟩
      rw [hid] at hrequest'
      exact absurd hrequest' hrequest
    · exact h.byRequest request id
  · rw [lookup_eraseLocked] at hid
    split_ifs at hid
    rw [hcompleted]
    exact h.history id o hid
  · rw [hcompleted]
    exact h.nodup

/-! ### Dropping finished operations -/

/-- Some operations without a continuation are dropped, and some are noted in the history. -/
structure Trims (c c' : RetirementCoordinator) : Prop where
  processId : c'.processId = c.processId
  nextOperationId : c'.nextOperationId = c.nextOperationId
  live : ∀ id o, c.operations.lookup id = some o →
    (∃ recorded, c'.operations.lookup id = some { o with recordedInHistory := recorded }) ∨
      c'.operations.lookup id = none ∧ o.continuationCount = 0
  gone : ∀ id, c.operations.lookup id = none → c'.operations.lookup id = none

theorem Trims.refl (c : RetirementCoordinator) : Trims c c :=
  ⟨rfl, rfl, fun _ o ho => .inl ⟨o.recordedInHistory, ho⟩, fun _ hnone => hnone⟩

theorem Trims.trans (h : Trims c c') (h' : Trims c' c'') : Trims c c'' := by
  refine ⟨h'.processId.trans h.processId, h'.nextOperationId.trans h.nextOperationId,
    fun id o ho => ?_, fun id hnone => h'.gone id (h.gone id hnone)⟩
  rcases h.live id o ho with ⟨recorded, ho'⟩ | ⟨hnone, hcount⟩
  · rcases h'.live id _ ho' with ⟨recorded', ho''⟩ | ⟨hnone, hcount⟩
    · exact .inl ⟨recorded', ho''⟩
    · exact .inr ⟨hnone, hcount⟩
  · exact .inr ⟨h'.gone id hnone, hcount⟩

theorem trims_eraseLocked (hcount : ∀ o, c.operations.lookup k = some o → o.continuationCount = 0) :
    Trims c (c.eraseLocked k) := by
  obtain ⟨hprocess, hnext, -⟩ := eraseLocked_fields c k
  refine ⟨hprocess, hnext, fun id o ho => ?_, fun id hnone => ?_⟩
  · rw [lookup_eraseLocked]
    split_ifs with hid
    · subst hid
      exact .inr ⟨rfl, hcount o ho⟩
    · exact .inl ⟨o.recordedInHistory, ho⟩
  · rw [lookup_eraseLocked, hnone, ite_self]

/-! ### The history -/

/-- The coordinator when these are the completed operations. -/
def withHistory (c : RetirementCoordinator) (l : List String) : RetirementCoordinator :=
  { c with completedOperations := l }

theorem withHistory_eraseLocked (c : RetirementCoordinator) (k : String) (l : List String) :
    (c.withHistory l).eraseLocked k = (c.eraseLocked k).withHistory l := by
  simp only [eraseLocked, withHistory]
  cases c.operations.lookup k with
  | none => rfl
  | some o => rfl

theorem trims_withHistory (c : RetirementCoordinator) (l : List String) :
    Trims c (c.withHistory l) :=
  ⟨rfl, rfl, fun _ o ho => .inl ⟨o.recordedInHistory, ho⟩, fun _ hnone => hnone⟩

theorem Coherent.drop (h : Coherent (c.withHistory (k :: l))) :
    Coherent ((c.eraseLocked k).withHistory l) := by
  have herased := h.eraseLocked k
  rw [withHistory_eraseLocked] at herased
  refine ⟨fun id hid => ?_, herased.byRequest, fun id o ho => ?_, ?_⟩
  · exact herased.issued id (hid.imp_right (List.mem_cons_of_mem k))
  · have hid : id ≠ k := by
      rintro rfl
      have hnone : (c.eraseLocked id).operations.lookup id = none := by
        rw [lookup_eraseLocked, if_pos rfl]
      rw [withHistory, hnone] at ho
      cases ho
    rw [← herased.history id o ho]
    exact ⟨List.mem_cons_of_mem k, fun hmem => (List.mem_cons.mp hmem).resolve_left hid⟩
  · exact (List.nodup_cons.mp herased.nodup).2

theorem pruneLoop_spec (h : Coherent (c.withHistory l))
    (hfinished : ∀ id o, c.operations.lookup id = some o → o.recordedInHistory = true →
      o.continuationCount = 0) :
    Coherent (c.pruneLoop l) ∧ Trims c (c.pruneLoop l) ∧
      (c.pruneLoop l).completedOperations.length ≤ completedHistoryLimit ∧
      ∀ id o, (c.pruneLoop l).operations.lookup id = some o → c.operations.lookup id = some o := by
  induction l generalizing c with
  | nil => exact ⟨h, trims_withHistory c [], Nat.zero_le _, fun _ _ ho => ho⟩
  | cons k l ih =>
    rw [pruneLoop]
    split_ifs with hlong
    · have hsome : ∀ id o, (c.eraseLocked k).operations.lookup id = some o →
          c.operations.lookup id = some o := by
        intro id o ho
        rw [lookup_eraseLocked] at ho
        split_ifs at ho
        exact ho
      obtain ⟨hcoherent, htrims, hlength, hkept⟩ :=
        ih h.drop fun id o ho => hfinished id o (hsome id o ho)
      refine ⟨hcoherent, Trims.trans (trims_eraseLocked fun o ho => ?_) htrims, hlength,
        fun id o ho => hsome id o (hkept id o ho)⟩
      exact hfinished k o ho ((h.history k o ho).mp List.mem_cons_self)
    · exact ⟨h, trims_withHistory c _, Nat.le_of_not_lt hlong, fun _ _ ho => ho⟩

/-! ### Changing one operation -/

/-- One operation is changed. -/
def put (c : RetirementCoordinator) (id : String) (o : Operation) : RetirementCoordinator :=
  { c with operations := c.operations.insert id o }

theorem lookup_put (c : RetirementCoordinator) (k id : String) (o : Operation) :
    (c.put k o).operations.lookup id = if id = k then some o else c.operations.lookup id :=
  Table.lookup_insert_eq _ _ _ _

theorem Coherent.put (h : Coherent c) (hid : c.operations.lookup id = some o)
    (hrequest : o'.requestId = o.requestId) (hrecorded : o'.recordedInHistory = o.recordedInHistory) :
    Coherent (c.put id o') := by
  refine ⟨fun k hk => ?_, fun request k => ?_, fun k p hp => ?_, h.nodup⟩
  · rw [lookup_put] at hk
    refine h.issued k (hk.imp_left fun hsome => ?_)
    split_ifs at hsome with hkid
    · rw [hkid, hid]
      rfl
    · exact hsome
  · rw [lookup_put]
    refine (h.byRequest request k).trans ?_
    split_ifs with hkid
    · rw [hkid, hid]
      simp only [Option.some.injEq, exists_eq_left', hrequest]
    · rfl
  · rw [lookup_put] at hp
    split_ifs at hp with hkid
    · cases hp
      rw [hkid, hrecorded]
      exact h.history id o hid
    · exact h.history k p hp

/-- An operation is noted in the history. -/
def record (c : RetirementCoordinator) (id : String) (o : Operation) : RetirementCoordinator :=
  { c with
    operations := c.operations.insert id { o with recordedInHistory := true }
    completedOperations := c.completedOperations ++ [id] }

theorem lookup_record (c : RetirementCoordinator) (k id : String) (o : Operation) :
    (c.record k o).operations.lookup id =
      if id = k then some { o with recordedInHistory := true } else c.operations.lookup id :=
  Table.lookup_insert_eq _ _ _ _

theorem Coherent.record (h : Coherent c) (hid : c.operations.lookup id = some o)
    (hnot : o.recordedInHistory = false) : Coherent (c.record id o) := by
  have hissued : c.Issued id := h.issued id (.inl (by rw [hid]; rfl))
  refine ⟨fun k hk => ?_, fun request k => ?_, fun k p hp => ?_, ?_⟩
  · by_cases hkid : k = id
    · rw [hkid]
      exact hissued
    · refine h.issued k (hk.imp (fun hsome => ?_) fun hmem => ?_)
      · rwa [lookup_record, if_neg hkid] at hsome
      · exact (List.mem_append.mp hmem).resolve_right fun hmem =>
          hkid (List.mem_singleton.mp hmem)
  · rw [lookup_record]
    refine (h.byRequest request k).trans ?_
    split_ifs with hkid
    · rw [hkid, hid]
      simp only [Option.some.injEq, exists_eq_left']
    · rfl
  · rw [lookup_record] at hp
    split_ifs at hp with hkid
    · cases hp
      exact iff_of_true (List.mem_append_right _ (List.mem_singleton.mpr hkid)) rfl
    · rw [← h.history k p hp, RetirementCoordinator.record, List.mem_append, List.mem_singleton]
      exact or_iff_left hkid
  · have hfresh : id ∉ c.completedOperations := by
      rw [h.history id o hid, hnot]
      exact nofun
    exact List.nodup_append.mpr ⟨h.nodup, List.nodup_singleton id, by
      rintro a ha b hb rfl
      exact hfresh (List.mem_singleton.mp hb ▸ ha)⟩

theorem trims_record (hid : c.operations.lookup id = some o) : Trims c (c.record id o) := by
  refine ⟨rfl, rfl, fun k p hp => .inl ?_, fun k hnone => ?_⟩
  · rw [lookup_record]
    split_ifs with hkid
    · rw [hkid, hid] at hp
      cases hp
      exact ⟨true, rfl⟩
    · exact ⟨p.recordedInHistory, hp⟩
  · rw [lookup_record, if_neg]
    · exact hnone
    · rintro rfl
      rw [hid] at hnone
      cases hnone

theorem finalizeCompletedLocked_spec (h : Coherent c)
    (hbounded : c.completedOperations.length ≤ completedHistoryLimit)
    (hid : c.operations.lookup id = some o)
    (hothers : ∀ k p, k ≠ id → c.operations.lookup k = some p → p.Settled)
    (hlive : o.completed = false → 0 < o.continuationCount)
    (hrecorded : o.recordedInHistory = true → o.completed = true ∧ o.continuationCount = 0) :
    Sound (c.finalizeCompletedLocked id o) ∧ Trims c (c.finalizeCompletedLocked id o) := by
  have hsettled : ∀ k p, o.Settled → c.operations.lookup k = some p → p.Settled := by
    intro k p ho hp
    by_cases hk : k = id
    · rw [hk, hid] at hp
      cases hp
      exact ho
    · exact hothers k p hk hp
  unfold finalizeCompletedLocked
  split_ifs with hwaits hexpires hrecords
  · refine ⟨⟨h, fun k p => hsettled k p ⟨?_, ?_⟩, hbounded⟩, Trims.refl c⟩
    · rintro (hnot | -)
      · exact hlive hnot
      · simp only [Bool.or_eq_true, Bool.not_eq_eq_eq_not, Bool.not_true, decide_eq_true_eq] at hwaits
        rcases hwaits with hnot | hpos
        · exact hlive hnot
        · exact Nat.pos_of_ne_zero hpos
    · refine ⟨hrecorded, fun ⟨hcompleted, hzero⟩ => ?_⟩
      simp [hcompleted, hzero] at hwaits
  all_goals
    have hdone : o.completed = true ∧ o.continuationCount = 0 := by
      simpa using hwaits
  · refine ⟨⟨h.eraseLocked id, fun k p hp => ?_, ?_⟩, trims_eraseLocked fun p hp => ?_⟩
    · rw [lookup_eraseLocked] at hp
      split_ifs at hp with hk
      exact hothers k p hk hp
    · rwa [(eraseLocked_fields c id).2.2]
    · rw [hid] at hp
      cases hp
      exact hdone.2
  · rw [Bool.not_eq_eq_eq_not, Bool.not_true] at hrecords
    have hkept : ∀ k p, (c.record id o).operations.lookup k = some p →
        p = { o with recordedInHistory := true } ∨ p.Settled := by
      intro k p hp
      rw [lookup_record] at hp
      split_ifs at hp with hkid
      · cases hp
        exact .inl rfl
      · exact .inr (hothers k p hkid hp)
    obtain ⟨hcoherent, htrims, hlength, hsub⟩ := pruneLoop_spec (c := c.record id o)
      (l := c.completedOperations ++ [id]) (h.record hid hrecords) fun k p hp hrec => by
        rcases hkept k p hp with rfl | hp
        · exact hdone.2
        · exact (hp.recorded.mp hrec).2
    refine ⟨⟨hcoherent, fun k p hp => ?_, hlength⟩, (trims_record hid).trans htrims⟩
    rcases hkept k p (hsub k p hp) with rfl | hp
    · exact ⟨fun hnot => absurd hnot (by simp [hdone.1, hexpires]), iff_of_true rfl hdone⟩
    · exact hp
  · refine ⟨⟨h, fun k p => hsettled k p ⟨?_, ?_⟩, hbounded⟩, Trims.refl c⟩
    · rintro (hnot | hexpire)
      · exact hlive hnot
      · exact absurd hexpire hexpires
    · simpa [hdone] using hrecords

/-! ### Registering -/

theorem Coherent.joinedOperation_eq_some (h : Coherent c) :
    c.joinedOperation scopeAll request = some (id, o) ↔
      (scopeAll = true ∧ request ≠ "") ∧ c.operations.lookup id = some o ∧
        o.requestId = some request := by
  rw [joinedOperation]
  split_ifs with hscope
  · rw [Bool.and_eq_true, decide_eq_true_eq] at hscope
    simp only [Option.bind_eq_some_iff, Option.map_eq_some_iff, Prod.mk.injEq]
    constructor
    · rintro ⟨k, hk, p, hp, rfl, rfl⟩
      obtain ⟨q, hq, hrequest⟩ := (h.byRequest request k).mp hk
      rw [hp] at hq
      cases hq
      exact ⟨hscope, hp, hrequest⟩
    · rintro ⟨-, ho, hrequest⟩
      exact ⟨id, (h.byRequest request id).mpr ⟨o, ho, hrequest⟩, o, ho, rfl, rfl⟩
  · rw [Bool.and_eq_true, decide_eq_true_eq] at hscope
    exact ⟨nofun, fun hall => absurd hall.1 hscope⟩

theorem lookup_join (c : RetirementCoordinator) (k id : String) (o : Operation) :
    (c.join k o).operations.lookup id = if id = k then some { o with
      recordedInHistory := false
      continuationCount := o.continuationCount + 1 } else c.operations.lookup id :=
  Table.lookup_insert_eq _ _ _ _

theorem Sound.join (h : Sound c) (hid : c.operations.lookup id = some o) : Sound (c.join id o) := by
  have hcompleted : (c.join id o).completedOperations = c.completedOperations.erase id := by
    rw [RetirementCoordinator.join]
    split_ifs with hrecorded
    · rfl
    · refine (List.erase_of_not_mem ?_).symm
      rwa [h.history id o hid]
  refine ⟨⟨fun k hk => ?_, fun request k => ?_, fun k p hp => ?_, ?_⟩, fun k p hp => ?_, ?_⟩
  · refine h.issued k (hk.imp (fun hsome => ?_) fun hmem => ?_)
    · rw [lookup_join] at hsome
      split_ifs at hsome with hkid
      · rw [hkid, hid]
        rfl
      · exact hsome
    · rw [hcompleted] at hmem
      exact List.mem_of_mem_erase hmem
  · rw [lookup_join]
    refine (h.byRequest request k).trans ?_
    split_ifs with hkid
    · rw [hkid, hid]
      simp only [Option.some.injEq, exists_eq_left']
    · rfl
  · rw [lookup_join] at hp
    rw [hcompleted]
    split_ifs at hp with hkid
    · cases hp
      rw [hkid]
      exact iff_of_false h.nodup.not_mem_erase nofun
    · rw [← h.history k p hp]
      exact List.mem_erase_of_ne hkid
  · rw [hcompleted]
    exact h.nodup.erase id
  · rw [lookup_join] at hp
    split_ifs at hp with hkid
    · cases hp
      exact ⟨fun _ => Nat.succ_pos _, iff_of_false nofun fun hzero => nomatch hzero.2⟩
    · exact h.settled k p hp
  · rw [hcompleted]
    exact List.length_erase_le.trans h.bounded

/-- The next id of an operation. -/
def nextId (c : RetirementCoordinator) : String :=
  operationIdOf c.processId "operation" (c.nextOperationId + 1)

theorem not_issued_nextId (c : RetirementCoordinator) : ¬c.Issued c.nextId := by
  rintro ⟨n, hn, heq⟩
  have hnext := operationIdOf_injective _ _ heq
  omega

theorem Coherent.lookup_nextId (h : Coherent c) : c.operations.lookup c.nextId = none := by
  by_contra hne
  exact not_issued_nextId c (h.issued _ (.inl (Option.isSome_iff_ne_none.mpr hne)))

theorem lookup_create (c : RetirementCoordinator) (scopeAll : Bool) (request id : String) :
    (c.create scopeAll request).1.operations.lookup id = if id = c.nextId then some {
      requestId := if scopeAll && request ≠ "" then some request else none
      continuationCount := 1 } else c.operations.lookup id :=
  Table.lookup_insert_eq _ _ _ _

theorem Issued.mono (h : c.Issued id) (hprocess : c'.processId = c.processId)
    (hnext : c.nextOperationId ≤ c'.nextOperationId) : c'.Issued id := by
  obtain ⟨n, hn, rfl⟩ := h
  exact ⟨n, hn.trans_le hnext, by rw [hprocess]⟩

theorem Sound.create (h : Sound c)
    (hnone : c.joinedOperation scopeAll request = none) :
    Sound (c.create scopeAll request).1 := by
  have hissued : ∀ k, c.Issued k → (c.create scopeAll request).1.Issued k :=
    fun k hk => hk.mono rfl (Nat.le_succ _)
  have hnew : (c.create scopeAll request).1.Issued c.nextId :=
    ⟨_, Nat.lt_succ_self _, rfl⟩
  refine ⟨⟨fun k hk => ?_, fun request' k => ?_, fun k p hp => ?_, h.nodup⟩, fun k p hp => ?_,
    h.bounded⟩
  · by_cases hkid : k = c.nextId
    · rw [hkid]
      exact hnew
    · refine hissued k (h.issued k (hk.imp_left fun hsome => ?_))
      rwa [lookup_create, if_neg hkid] at hsome
  · rw [lookup_create]
    by_cases hscope : (scopeAll && request ≠ "") = true
    · have hfree : ∀ k, c.allOperationsByRequest.lookup request ≠ some k := by
        intro k hk
        obtain ⟨p, hp, hrequest⟩ := (h.byRequest request k).mp hk
        have hjoined : c.joinedOperation scopeAll request = some (k, p) := by
          refine h.joinedOperation_eq_some.mpr ⟨?_, hp, hrequest⟩
          rwa [Bool.and_eq_true, decide_eq_true_eq] at hscope
        rw [hnone] at hjoined
        cases hjoined
      have hlookup : (c.create scopeAll request).1.allOperationsByRequest.lookup request' =
          if request' = request then some c.nextId
          else c.allOperationsByRequest.lookup request' := by
        simp only [RetirementCoordinator.create, hscope, if_true]
        exact Table.lookup_insert_eq _ _ _ _
      rw [hlookup, if_pos hscope]
      by_cases hrequest : request' = request <;> by_cases hkid : k = c.nextId
      · simp [hrequest, hkid]
      · rw [if_pos hrequest, if_neg hkid, hrequest, ← h.byRequest]
        exact iff_of_false (fun heq => hkid (Option.some.inj heq).symm) (hfree k)
      · rw [if_neg hrequest, if_pos hkid]
        refine iff_of_false (fun heq => ?_) ?_
        · obtain ⟨p, hp, -⟩ := (h.byRequest request' k).mp heq
          rw [hkid, h.lookup_nextId] at hp
          cases hp
        · rintro ⟨p, hp, hrequest'⟩
          cases hp
          exact hrequest (Option.some.inj hrequest').symm
      · rw [if_neg hrequest, if_neg hkid]
        exact h.byRequest request' k
    · have hlookup : (c.create scopeAll request).1.allOperationsByRequest =
          c.allOperationsByRequest := by
        simp only [RetirementCoordinator.create, if_neg hscope]
        rfl
      rw [hlookup, if_neg hscope]
      refine (h.byRequest request' k).trans ?_
      split_ifs with hkid
      · rw [hkid, h.lookup_nextId]
        refine iff_of_false (fun ⟨_, hp, _⟩ => nomatch hp) ?_
        rintro ⟨p, hp, hrequest'⟩
        cases hp
        cases hrequest'
      · rfl
  · rw [lookup_create] at hp
    by_cases hkid : k = c.nextId
    · rw [if_pos hkid] at hp
      cases hp
      rw [hkid]
      exact iff_of_false (fun hmem => not_issued_nextId c (h.issued _ (.inr hmem))) nofun
    · rw [if_neg hkid] at hp
      exact h.history k p hp
  · rw [lookup_create] at hp
    by_cases hkid : k = c.nextId
    · rw [if_pos hkid] at hp
      cases hp
      exact ⟨fun _ => Nat.one_pos, iff_of_false nofun fun hdone => nomatch hdone.1⟩
    · rw [if_neg hkid] at hp
      exact h.settled k p hp

/-! ### The other calls -/

theorem Sound.complete (h : Sound c) (hid : c.operations.lookup id = some o) (expires : Bool) :
    Sound (c.complete id expires).1 ∧
      Trims (c.put id { o with
        completed := true
        expireAfterContinuations := o.expireAfterContinuations || expires })
        (c.complete id expires).1 := by
  set o' : Operation := { o with
    completed := true
    expireAfterContinuations := o.expireAfterContinuations || expires }
  have hcomplete : (c.complete id expires).1 = (c.put id o').finalizeCompletedLocked id o' := by
    rw [RetirementCoordinator.complete, hid]
    rfl
  rw [hcomplete]
  refine finalizeCompletedLocked_spec (h.toCoherent.put hid rfl rfl) h.bounded
    ((lookup_put c id id o').trans (if_pos rfl)) (fun k p hk hp => ?_) nofun fun hrecorded => ?_
  · rw [lookup_put, if_neg hk] at hp
    exact h.settled k p hp
  · exact ⟨rfl, ((h.settled id o hid).recorded.mp hrecorded).2⟩

theorem Sound.release (h : Sound c) (hid : c.operations.lookup id = some o) :
    Sound (c.releaseContinuation id) ∧
      Trims (c.put id { o with continuationCount := o.continuationCount - 1 })
        (c.releaseContinuation id) := by
  set o' : Operation := { o with continuationCount := o.continuationCount - 1 }
  have hcoherent : Coherent (c.put id o') := h.toCoherent.put hid rfl rfl
  have hput : (c.put id o').operations.lookup id = some o' :=
    (lookup_put c id id o').trans (if_pos rfl)
  have hothers : ∀ k p, k ≠ id → (c.put id o').operations.lookup k = some p → p.Settled := by
    intro k p hk hp
    rw [lookup_put, if_neg hk] at hp
    exact h.settled k p hp
  have hrelease : c.releaseContinuation id =
      if o'.continuationCount = 0 ∧ !o'.completed then (c.put id o').eraseLocked id
      else (c.put id o').finalizeCompletedLocked id o' := by
    rw [releaseContinuation, hid]
    rfl
  rw [hrelease]
  split_ifs with hover
  · refine ⟨⟨hcoherent.eraseLocked id, fun k p hp => ?_, ?_⟩, trims_eraseLocked fun p hp => ?_⟩
    · rw [lookup_eraseLocked] at hp
      split_ifs at hp with hk
      exact hothers k p hk hp
    · rw [(eraseLocked_fields _ id).2.2]
      exact h.bounded
    · rw [hput] at hp
      cases hp
      exact hover.1
  · refine finalizeCompletedLocked_spec hcoherent h.bounded hput hothers (fun hnot => ?_)
      fun hrecorded => ?_
    · refine Nat.pos_of_ne_zero fun hzero => hover ⟨hzero, ?_⟩
      rw [hnot]
      rfl
    · obtain ⟨hcompleted, hzero⟩ := (h.settled id o hid).recorded.mp hrecorded
      exact ⟨hcompleted, by simp only [o', hzero]⟩

theorem Sound.expire (h : Sound c) (k : String) : Sound (c.expire k) := by
  refine ⟨h.toCoherent.eraseLocked k, fun id o ho => ?_, ?_⟩
  · rw [RetirementCoordinator.expire, lookup_eraseLocked] at ho
    split_ifs at ho
    exact h.settled id o ho
  · rw [RetirementCoordinator.expire, (eraseLocked_fields c k).2.2]
    exact h.bounded

theorem claimAction_eq (hid : c.operations.lookup id = some o) (action : String) :
    c.claimAction id action = (c.put id { o with claimedActions := insert action o.claimedActions },
      decide (action ∉ o.claimedActions)) := by
  rw [claimAction, hid]
  rfl

theorem Sound.claimAction (h : Sound c) (id action : String) :
    Sound (c.claimAction id action).1 := by
  cases hid : c.operations.lookup id with
  | none =>
    rw [RetirementCoordinator.claimAction, hid]
    exact h
  | some o =>
    rw [claimAction_eq hid]
    refine ⟨h.toCoherent.put hid rfl rfl, fun k p hp => ?_, h.bounded⟩
    rw [lookup_put] at hp
    split_ifs at hp with hk
    · cases hp
      exact ⟨(h.settled id o hid).live, (h.settled id o hid).recorded⟩
    · exact h.settled k p hp

theorem Sound.register (h : Sound c) (scopeAll : Bool) (request : String) :
    Sound (c.register scopeAll request).1 := by
  rw [RetirementCoordinator.register]
  cases hjoined : c.joinedOperation scopeAll request with
  | none => exact h.create hjoined
  | some found => exact h.join (h.joinedOperation_eq_some.mp hjoined).2.1

theorem Sound.step (h : Sound c) (op : RetirementOp) : Sound (op.step c) := by
  cases op with
  | createRequestId =>
    exact ⟨⟨fun id hid => (h.issued id hid).mono rfl (Nat.le_succ _), h.byRequest, h.history,
      h.nodup⟩, h.settled, h.bounded⟩
  | register scopeAll request => exact h.register scopeAll request
  | complete id expires =>
    cases hid : c.operations.lookup id with
    | none =>
      rw [RetirementOp.step, RetirementCoordinator.complete, hid]
      exact h
    | some o => exact (h.complete hid expires).1
  | releaseContinuation id =>
    cases hid : c.operations.lookup id with
    | none =>
      rw [RetirementOp.step, RetirementCoordinator.releaseContinuation, hid]
      exact h
    | some o => exact (h.release hid).1
  | expire id => exact h.expire id
  | claimAction id action => exact h.claimAction id action

theorem sound_init (processId : ℕ) : Sound { processId } := by
  refine ⟨⟨?_, fun request id => ⟨nofun, ?_⟩, nofun, List.nodup_nil⟩, nofun, Nat.zero_le _⟩
  · rintro id (hsome | hmem)
    · cases hsome
    · cases hmem
  · rintro ⟨o, ho, -⟩
    cases ho

/-! ### What a call does to one operation -/

/-- The continuations that are outstanding after a call. -/
def countAfter (c : RetirementCoordinator) (op : RetirementOp) (id : String) (count : ℕ) : ℕ :=
  (count + if op.registered c = some id then 1 else 0) - if op.released = some id then 1 else 0

/-- An operation goes on: what it carries is kept, and claims are added. -/
structure Follows (o o' : Operation) : Prop where
  requestId : o'.requestId = o.requestId
  claimedActions : o.claimedActions ⊆ o'.claimedActions

theorem Trims.follows {k : String} {p : Operation} (h : Trims (c.put k p) c')
    (hk : c.operations.lookup k = some o') (hfollows : Follows o' p)
    (hid : c.operations.lookup id = some o)
    (hcount : (if id = k then p.continuationCount else o.continuationCount) = count) :
    (∃ q, c'.operations.lookup id = some q ∧ q.continuationCount = count ∧ Follows o q) ∨
      c'.operations.lookup id = none ∧ count = 0 := by
  by_cases hidk : id = k
  · subst hidk
    rw [hid] at hk
    cases hk
    rw [if_pos rfl] at hcount
    subst hcount
    have hput : (c.put id p).operations.lookup id = some p :=
      (lookup_put c id id p).trans (if_pos rfl)
    rcases h.live id p hput with ⟨recorded, hq⟩ | hnone
    · exact .inl ⟨_, hq, rfl, hfollows.requestId, hfollows.claimedActions⟩
    · exact .inr hnone
  · rw [if_neg hidk] at hcount
    subst hcount
    have hput : (c.put k p).operations.lookup id = some o := by
      rw [lookup_put, if_neg hidk, hid]
    rcases h.live id o hput with ⟨recorded, hq⟩ | hnone
    · exact .inl ⟨_, hq, rfl, rfl, Finset.Subset.refl _⟩
    · exact .inr hnone

theorem Follows.refl (o : Operation) : Follows o o := ⟨rfl, Finset.Subset.refl _⟩

theorem Follows.trans {o'' : Operation} (h : Follows o o') (h' : Follows o' o'') : Follows o o'' :=
  ⟨h'.requestId.trans h.requestId, h.claimedActions.trans h'.claimedActions⟩

theorem follows_of_lookup_eq (hid : c.operations.lookup id = some o)
    (hsame : c'.operations.lookup id = c.operations.lookup id)
    (hcount : o.continuationCount = count) :
    (∃ q, c'.operations.lookup id = some q ∧ q.continuationCount = count ∧ Follows o q) ∨
      c'.operations.lookup id = none ∧ count = 0 :=
  .inl ⟨o, hsame.trans hid, hcount, Follows.refl o⟩

theorem Sound.step_some (h : Sound c) (hid : c.operations.lookup id = some o) (op : RetirementOp) :
    ((∃ q, (op.step c).operations.lookup id = some q ∧
        q.continuationCount = countAfter c op id o.continuationCount ∧ Follows o q) ∨
      (op.step c).operations.lookup id = none ∧ countAfter c op id o.continuationCount = 0) ∨
    op = .expire id ∧ (op.step c).operations.lookup id = none := by
  cases op with
  | createRequestId => exact .inl (follows_of_lookup_eq hid rfl rfl)
  | register scopeAll request =>
    left
    have hcount : countAfter c (.register scopeAll request) id o.continuationCount =
        o.continuationCount +
          if (c.register scopeAll request).2.operationId = id then 1 else 0 := by
      simp only [countAfter, RetirementOp.registered, RetirementOp.released, Option.some.injEq]
      rfl
    rw [hcount, RetirementOp.step]
    cases hjoined : c.joinedOperation scopeAll request with
    | none =>
      have hne : id ≠ c.nextId := by
        rintro rfl
        rw [h.lookup_nextId] at hid
        cases hid
      have hregister : c.register scopeAll request = ((c.create scopeAll request).1,
          { operationId := c.nextId, shouldPublish := true, alreadyCompleted := false }) := by
        rw [RetirementCoordinator.register, hjoined]
        rfl
      rw [hregister, if_neg hne.symm]
      exact follows_of_lookup_eq hid ((lookup_create c _ _ _).trans (if_neg hne)) rfl
    | some found =>
      obtain ⟨k, p⟩ := found
      obtain ⟨-, hk, -⟩ := h.joinedOperation_eq_some.mp hjoined
      have hregister : c.register scopeAll request = (c.join k p,
          { operationId := k, shouldPublish := false, alreadyCompleted := p.completed }) := by
        rw [RetirementCoordinator.register, hjoined]
      rw [hregister]
      by_cases hkid : k = id
      · subst hkid
        rw [hid] at hk
        cases hk
        rw [if_pos rfl]
        exact .inl ⟨_, (lookup_join c k k o).trans (if_pos rfl), rfl, rfl, Finset.Subset.refl _⟩
      · rw [if_neg hkid]
        exact follows_of_lookup_eq hid ((lookup_join c k id p).trans (if_neg (Ne.symm hkid))) rfl
  | complete k expires =>
    left
    cases hk : c.operations.lookup k with
    | none =>
      refine follows_of_lookup_eq hid ?_ rfl
      rw [RetirementOp.step, RetirementCoordinator.complete, hk]
    | some p =>
      refine (h.complete hk expires).2.follows hk ⟨rfl, Finset.Subset.refl _⟩ hid ?_
      split_ifs with hidk
      · rw [hidk, hk] at hid
        cases hid
        rfl
      · rfl
  | releaseContinuation k =>
    left
    cases hk : c.operations.lookup k with
    | none =>
      have hidk : k ≠ id := by
        rintro rfl
        rw [hid] at hk
        cases hk
      refine follows_of_lookup_eq hid ?_ ?_
      · rw [RetirementOp.step, RetirementCoordinator.releaseContinuation, hk]
      · simp only [countAfter, RetirementOp.released, Option.some.injEq, if_neg hidk]
        rfl
    | some p =>
      refine (h.release hk).2.follows hk ⟨rfl, Finset.Subset.refl _⟩ hid ?_
      simp only [countAfter, RetirementOp.released, Option.some.injEq]
      by_cases hidk : id = k
      · rw [hidk, hk] at hid
        cases hid
        rw [if_pos hidk, if_pos hidk.symm]
        rfl
      · rw [if_neg hidk, if_neg (Ne.symm hidk)]
        rfl
  | expire k =>
    have herase : (RetirementOp.step c (.expire k)).operations.lookup id =
        if id = k then none else c.operations.lookup id := lookup_eraseLocked c k id
    by_cases hidk : id = k
    · rw [if_pos hidk] at herase
      exact .inr ⟨by rw [hidk], herase⟩
    · rw [if_neg hidk] at herase
      exact .inl (follows_of_lookup_eq hid herase rfl)
  | claimAction k action =>
    left
    cases hk : c.operations.lookup k with
    | none =>
      refine follows_of_lookup_eq hid ?_ rfl
      rw [RetirementOp.step, RetirementCoordinator.claimAction, hk]
    | some p =>
      rw [RetirementOp.step, claimAction_eq hk]
      have htrims := Trims.refl (c.put k { p with claimedActions := insert action p.claimedActions })
      refine htrims.follows hk ⟨rfl, Finset.subset_insert _ _⟩ hid ?_
      split_ifs with hidk
      · rw [hidk, hk] at hid
        cases hid
        rfl
      · rfl

theorem Sound.step_none (h : Sound c) (hid : c.operations.lookup id = none) (op : RetirementOp) :
    ((op.step c).operations.lookup id = none ∧ op.registered c ≠ some id) ∨
      ¬c.Issued id ∧ op.registered c = some id ∧
        ∃ q, (op.step c).operations.lookup id = some q ∧ q.continuationCount = 1 := by
  have hput : ∀ k o p, c.operations.lookup k = some o →
      (c.put k p).operations.lookup id = none := by
    intro k o p hk
    rw [lookup_put, if_neg]
    · exact hid
    · rintro rfl
      rw [hid] at hk
      cases hk
  cases op with
  | createRequestId => exact .inl ⟨hid, nofun⟩
  | register scopeAll request =>
    rw [RetirementOp.step, RetirementOp.registered]
    cases hjoined : c.joinedOperation scopeAll request with
    | none =>
      have hregister : c.register scopeAll request = ((c.create scopeAll request).1,
          { operationId := c.nextId, shouldPublish := true, alreadyCompleted := false }) := by
        rw [RetirementCoordinator.register, hjoined]
        rfl
      rw [hregister]
      by_cases hnext : id = c.nextId
      · subst hnext
        exact .inr ⟨not_issued_nextId c, rfl, _, (lookup_create c _ _ _).trans (if_pos rfl), rfl⟩
      · refine .inl ⟨?_, fun heq => hnext (Option.some.inj heq).symm⟩
        rw [lookup_create, if_neg hnext, hid]
    | some found =>
      obtain ⟨k, p⟩ := found
      obtain ⟨-, hk, -⟩ := h.joinedOperation_eq_some.mp hjoined
      have hkid : id ≠ k := by
        rintro rfl
        rw [hid] at hk
        cases hk
      rw [RetirementCoordinator.register, hjoined]
      refine .inl ⟨?_, fun heq => hkid (Option.some.inj heq).symm⟩
      rw [lookup_join, if_neg hkid, hid]
  | complete k expires =>
    refine .inl ⟨?_, nofun⟩
    cases hk : c.operations.lookup k with
    | none => rwa [RetirementOp.step, RetirementCoordinator.complete, hk]
    | some p => exact (h.complete hk expires).2.gone id (hput k p _ hk)
  | releaseContinuation k =>
    refine .inl ⟨?_, nofun⟩
    cases hk : c.operations.lookup k with
    | none => rwa [RetirementOp.step, RetirementCoordinator.releaseContinuation, hk]
    | some p => exact (h.release hk).2.gone id (hput k p _ hk)
  | expire k =>
    refine .inl ⟨?_, nofun⟩
    rw [RetirementOp.step, RetirementCoordinator.expire, lookup_eraseLocked, hid, ite_self]
  | claimAction k action =>
    refine .inl ⟨?_, nofun⟩
    cases hk : c.operations.lookup k with
    | none => rwa [RetirementOp.step, RetirementCoordinator.claimAction, hk]
    | some p =>
      rw [RetirementOp.step, claimAction_eq hk]
      exact hput k p _ hk

end RetirementCoordinator

end IntelligentTerminal.Wta
