import IntelligentTerminal.Data.LinearProbing

/-!
# A flat set with linear probing

`til::linear_flat_set` keeps its elements in an array of slots whose size is a power of two. An
element is searched for from the slot that the topmost bits of its hash name, up to a free slot.
Every element adds `LoadFactor` to `_load`, and the array grows when `_load` is not below its size.

`size_t` has 64 bits. A shift by 64 bits or more is undefined, and ends with an error here; so does a
search that has passed all slots. Running out of memory is not considered.

Source: `src/inc/til/flat_set.h`, lines 12-204.
-/

namespace IntelligentTerminal.Til

/-! ### The functions -/

/-- The parameter `Traits`: slots of the type `T`, keys of the type `K`. -/
structure FlatSetTraits (T K : Type*) where
  default : T
  occupied : T → Bool
  equals : T → K → Bool
  hash : K → UInt64
  hashSlot : T → UInt64
  assign : T → K → T

/-- The parameters `LoadFactor` and `GrowthExponent`, with what is asserted of them. -/
structure FlatSetParameters where
  loadFactor : UInt64 := 2
  growthExponent : UInt64 := 1
  two_le_loadFactor : 2 ≤ loadFactor
  one_le_growthExponent : 1 ≤ growthExponent

def flatSetHashInteger (v : UInt64) : UInt64 := v * 6364136223846793005

/-- What ends an operation. -/
inductive FlatSetFailure where
  | badArrayNewLength
  | undefinedShift
  | endless
deriving DecidableEq

structure LinearFlatSet (T : Type*) where
  map : Option (List T) := none
  capacity : UInt64 := 0
  load : UInt64 := 0
  shift : UInt64
  mask : UInt64 := 0
deriving DecidableEq

namespace LinearFlatSet

variable {T K : Type*} (t : FlatSetTraits T K) (p : FlatSetParameters)

def initialShift : UInt64 := 64 - p.loadFactor - 1

/-- `linear_flat_set::linear_flat_set`. -/
def empty : LinearFlatSet T := { shift := initialShift p }

def size (s : LinearFlatSet T) : UInt64 := s.load / p.loadFactor

def clear (s : LinearFlatSet T) : LinearFlatSet T :=
  match s.map with
  | none => s
  | some _ => { s with map := some (List.replicate s.capacity.toNat t.default), load := 0 }

/-- The loop `for (auto i = hash;; ++i)` over `_map[i & _mask]`, for `fuel` slots. -/
def probeSlots (stop : T → Bool) (slots : List T) (mask : UInt64) : ℕ → UInt64 → Option ℕ
  | 0, _ => none
  | fuel + 1, i =>
    let j := (i &&& mask).toNat
    if slots[j]?.any stop then some j else probeSlots stop slots mask fuel (i + 1)

/-- The loop of `lookup` and `insert` ends at a free slot and at an equal one. -/
def findSlot (s : LinearFlatSet T) (slots : List T) (key : K) : Option ℕ :=
  probeSlots (fun slot => !t.occupied slot || t.equals slot key) slots s.mask s.capacity.toNat
    (t.hash key >>> s.shift)

/-- `linear_flat_set::lookup`, with the place of the slot. -/
def lookup (s : LinearFlatSet T) (key : K) : Except FlatSetFailure (Option ℕ) :=
  match s.map with
  | none => .ok none
  | some slots =>
    match findSlot t s slots key with
    | none => .error .endless
    | some j => .ok (if slots[j]?.any t.occupied then some j else none)

/-- The body of the loop in `_bumpSize`. -/
def rehashSlot (newShift newCapacity : UInt64) (newMap : List T) (oldSlot : T) :
    Except FlatSetFailure (List T) :=
  if t.occupied oldSlot then
    match probeSlots (fun slot => !t.occupied slot) newMap (newCapacity - 1) newCapacity.toNat
        (t.hashSlot oldSlot >>> newShift) with
    | none => .error .endless
    | some j => .ok (newMap.set j oldSlot)
  else .ok newMap

def bumpSize (s : LinearFlatSet T) : Except FlatSetFailure (LinearFlatSet T) :=
  if s.shift ≤ p.growthExponent then .error .badArrayNewLength
  else
    let newShift := s.shift - p.growthExponent
    if newShift ≥ 64 then .error .undefinedShift
    else do
      let newCapacity : UInt64 := 1 <<< (64 - newShift)
      let newMap ← (s.map.getD []).foldlM (rehashSlot t newShift newCapacity)
        (List.replicate newCapacity.toNat t.default)
      .ok { s with
        map := some newMap
        capacity := newCapacity
        shift := newShift
        mask := newCapacity - 1 }

/-- `linear_flat_set::insert` behind the check of the load. -/
def insertSlot (s : LinearFlatSet T) (key : K) :
    Except FlatSetFailure (ℕ × Bool × LinearFlatSet T) :=
  let slots := s.map.getD []
  match findSlot t s slots key with
  | none => .error .endless
  | some j =>
    if slots[j]?.any t.occupied then .ok (j, false, s)
    else
      .ok (j, true,
        { s with
          map := some (slots.modify j fun slot => t.assign slot key)
          load := s.load + p.loadFactor })

/-- `linear_flat_set::insert`, with the place of the slot. -/
def insert (s : LinearFlatSet T) (key : K) :
    Except FlatSetFailure (ℕ × Bool × LinearFlatSet T) := do
  let s ← if s.load ≥ s.capacity then bumpSize t p s else .ok s
  insertSlot t p s key

end LinearFlatSet

/-! ### What is expected of the traits -/

/-- A default slot is free, assigning a key makes a slot occupied and equal to the key, and equal
keys have equal hashes. Which keys are equal is the relation `r`. -/
structure FlatSetTraits.Lawful {T K : Type*} (t : FlatSetTraits T K) (r : Setoid K) : Prop where
  occupied_default : t.occupied t.default = false
  occupied_assign : ∀ slot key, t.occupied (t.assign slot key) = true
  equals_assign : ∀ slot key, t.equals (t.assign slot key) key = true
  hashSlot_eq : ∀ slot key, t.occupied slot = true → t.equals slot key = true →
    t.hashSlot slot = t.hash key
  equals_iff : ∀ slot key key', t.occupied slot = true → t.equals slot key = true →
    (t.equals slot key' = true ↔ r key key')

namespace LinearFlatSet

variable {T K : Type*} (t : FlatSetTraits T K) (p : FlatSetParameters)

/-- The states that operations lead to from an empty set, each with the keys that have been inserted
since the last `clear`. An operation that throws, and `lookup`, leave the state as it is. -/
inductive Reaches : LinearFlatSet T → List K → Prop
  | empty : Reaches (empty p) []
  | insert {s s' : LinearFlatSet T} {keys : List K} {key : K} {j : ℕ} {inserted : Bool}
      (h : Reaches s keys) (hinsert : insert t p s key = .ok (j, inserted, s')) :
      Reaches s' (key :: keys)
  | clear {s : LinearFlatSet T} {keys : List K} (h : Reaches s keys) : Reaches (clear t s) []

/-! ### A table of slots -/

variable {t p} {slots : List T} {s : LinearFlatSet T} {keys : List K} {slot : T} {j : ℕ}
  {q : T → Bool} {r : Setoid K}

/-- The slot at `j` is one of a kind. -/
def holdsAt (q : T → Bool) (slots : List T) (j : ℕ) : Bool := slots[j]?.any q

/-- The occupied slots. -/
def contents (t : FlatSetTraits T K) (slots : List T) : List T := slots.filter t.occupied

/-- A table of `2 ^ b` slots, in which every occupied one is reached from the slot that its hash
names. -/
structure IsTable (t : FlatSetTraits T K) (shift : UInt64) (b : ℕ) (slots : List T) : Prop where
  length : slots.length = 2 ^ b
  reached : ∀ j slot, slots[j]? = some slot → t.occupied slot = true →
    Reached (holdsAt t.occupied slots) (2 ^ b) (t.hashSlot slot >>> shift).toNat j

theorem probeSlots_eq {stop : T → Bool} {mask : UInt64} {b : ℕ}
    (hmask : mask.toNat = 2 ^ b - 1) (hb : b ≤ 64) (fuel : ℕ) (i : UInt64) :
    probeSlots stop slots mask fuel i =
      probe (holdsAt stop slots) (2 ^ b) fuel i.toNat := by
  induction fuel generalizing i with
  | zero => rfl
  | succ fuel ih =>
    have hindex : (i &&& mask).toNat = i.toNat % 2 ^ b := by
      rw [UInt64.toNat_and, hmask, Nat.and_two_pow_sub_one_eq_mod]
    have hnext : (i + 1).toNat % 2 ^ b = (i.toNat + 1) % 2 ^ b := by
      rw [UInt64.toNat_add]
      exact Nat.mod_mod_of_dvd _ (Nat.pow_dvd_pow 2 hb)
    rw [probeSlots, probe, ih, probe_congr hnext, hindex]
    rfl

theorem holdsAt_eq_true :
    holdsAt q slots j = true ↔ ∃ slot, slots[j]? = some slot ∧ q slot = true := by
  unfold holdsAt
  cases slots[j]? <;> simp

theorem holdsAt_of_getElem?
    (h : slots[j]? = some slot) : holdsAt q slots j = q slot := by
  rw [holdsAt, h]
  rfl

theorem mem_contents_iff :
    slot ∈ contents t slots ↔ ∃ j : ℕ, slots[j]? = some slot ∧ t.occupied slot = true := by
  rw [contents, List.mem_filter, List.mem_iff_getElem?]
  exact ⟨fun ⟨⟨j, hj⟩, hocc⟩ => ⟨j, hj, hocc⟩, fun ⟨j, hj, hocc⟩ => ⟨⟨j, hj⟩, hocc⟩⟩

theorem contents_cons_of_pos (h : t.occupied slot = true) :
    contents t (slot :: slots) = slot :: contents t slots :=
  List.filter_cons_of_pos h

theorem contents_cons_of_neg (h : ¬ t.occupied slot = true) :
    contents t (slot :: slots) = contents t slots :=
  List.filter_cons_of_neg h

theorem exists_free (h : (contents t slots).length < slots.length) :
    ∃ (j : ℕ) (slot : T), slots[j]? = some slot ∧ t.occupied slot = false := by
  by_contra hfull
  push Not at hfull
  have hall : contents t slots = slots := by
    refine List.filter_eq_self.mpr fun slot hslot => ?_
    obtain ⟨j, hj⟩ := List.mem_iff_getElem?.mp hslot
    exact (Bool.not_eq_false _).mp (hfull j slot hj)
  rw [hall] at h
  exact lt_irrefl _ h

theorem modify_eq_set (h : slots[j]? = some slot) (f : T → T) :
    slots.modify j f = slots.set j (f slot) := by
  refine List.ext_getElem? fun i => ?_
  by_cases hi : j = i
  · subst hi
    rw [List.getElem?_modify_eq, List.getElem?_set_self (List.getElem?_eq_some_iff.mp h).1, h]
    rfl
  · rw [List.getElem?_modify_ne _ _ hi, List.getElem?_set_ne hi]

theorem contents_set {old new : T} (hj : slots[j]? = some old)
    (hold : t.occupied old = false) (hnew : t.occupied new = true) :
    (contents t (slots.set j new)).Perm (new :: contents t slots) := by
  obtain ⟨hlt, hget⟩ := List.getElem?_eq_some_iff.mp hj
  have hsplit : slots = slots.take j ++ old :: slots.drop (j + 1) := by
    rw [← hget, List.getElem_cons_drop, List.take_append_drop]
  have hset : slots.set j new = slots.take j ++ new :: slots.drop (j + 1) :=
    List.set_eq_take_append_cons_drop ▸ if_pos hlt
  have hcontents : contents t slots =
      contents t (slots.take j) ++ contents t (slots.drop (j + 1)) := by
    conv_lhs => rw [hsplit]
    rw [contents, List.filter_append,
      List.filter_cons_of_neg (by rw [hold]; exact Bool.false_ne_true)]
    rfl
  rw [hcontents, hset, contents, List.filter_append, List.filter_cons_of_pos hnew]
  exact List.perm_middle

namespace IsTable

variable {shift : UInt64} {b : ℕ} {slots : List T}

theorem replicate (hdefault : t.occupied t.default = false) (shift : UInt64) (b : ℕ) :
    IsTable t shift b (List.replicate (2 ^ b) t.default) where
  length := List.length_replicate
  reached j slot hj hocc := by
    rw [List.getElem?_replicate] at hj
    split_ifs at hj
    obtain rfl := Option.some_inj.mp hj
    rw [hdefault] at hocc
    exact absurd hocc Bool.false_ne_true

theorem set (h : IsTable t shift b slots) {j : ℕ} {old new : T} (hj : slots[j]? = some old)
    (hold : t.occupied old = false)
    (hreached : Reached (holdsAt t.occupied slots) (2 ^ b) (t.hashSlot new >>> shift).toNat j) :
    IsTable t shift b (slots.set j new) := by
  have hlt : j < slots.length := (List.getElem?_eq_some_iff.mp hj).1
  have hmono (i : ℕ) (hi : holdsAt t.occupied slots i = true) :
      holdsAt t.occupied (slots.set j new) i = true := by
    obtain ⟨slot, hslot, hocc⟩ := holdsAt_eq_true.mp hi
    have hne : j ≠ i := by
      rintro rfl
      rw [hj, Option.some_inj] at hslot
      rw [hslot, hocc] at hold
      exact Bool.false_ne_true hold.symm
    exact holdsAt_eq_true.mpr ⟨slot, by rw [List.getElem?_set_ne hne, hslot], hocc⟩
  refine ⟨by rw [List.length_set, h.length], fun i slot hslot hocc => ?_⟩
  by_cases hi : j = i
  · subst hi
    rw [List.getElem?_set_self hlt, Option.some_inj] at hslot
    rw [← hslot]
    exact hreached.mono hmono
  · rw [List.getElem?_set_ne hi] at hslot
    exact (h.reached i slot hslot hocc).mono hmono

theorem exists_probeSlots (h : IsTable t shift b slots) (hb : b ≤ 64)
    (hfree : (contents t slots).length < 2 ^ b) {stop : T → Bool}
    (hstop : ∀ slot, t.occupied slot = false → stop slot = true) {mask : UInt64}
    (hmask : mask.toNat = 2 ^ b - 1) (i : UInt64) :
    ∃ j slot, probeSlots stop slots mask (2 ^ b) i = some j ∧ slots[j]? = some slot ∧
      stop slot = true ∧ Reached (holdsAt t.occupied slots) (2 ^ b) i.toNat j ∧
      ∀ (k : ℕ) (entry : T), slots[k]? = some entry → t.occupied entry = true →
        stop entry = true → Reached (holdsAt t.occupied slots) (2 ^ b) i.toNat k →
          t.occupied slot = true := by
  rw [← h.length] at hfree
  obtain ⟨k, free, hk, hkfree⟩ := exists_free hfree
  have hlt : k < 2 ^ b := h.length ▸ (List.getElem?_eq_some_iff.mp hk).1
  obtain ⟨j, hj⟩ := exists_probe hlt ((holdsAt_of_getElem? hk).trans (hstop free hkfree)) i.toNat
  obtain ⟨slot, hslot, hstopped⟩ : ∃ slot, slots[j]? = some slot ∧ stop slot = true := by
    obtain ⟨d, -, -, hstopped, -⟩ := probe_eq_some_iff.mp hj
    exact holdsAt_eq_true.mp hstopped
  refine ⟨j, slot, (probeSlots_eq hmask hb _ _).trans hj, hslot, hstopped, ?_, ?_⟩
  · refine reached_of_probe (Nat.two_pow_pos b) hj fun q hq hpass => ?_
    obtain ⟨passed, hpassed⟩ : ∃ passed, slots[q]? = some passed :=
      ⟨_, List.getElem?_eq_getElem (h.length ▸ hq)⟩
    rw [holdsAt_of_getElem? hpassed] at hpass
    refine holdsAt_eq_true.mpr ⟨passed, hpassed, ?_⟩
    by_contra hfree'
    rw [hstop passed (Bool.eq_false_iff.mpr hfree')] at hpass
    exact Bool.false_ne_true hpass.symm
  · intro k entry hentry hocc hstopEntry hreached
    have hstopAt := (holdsAt_of_getElem? hentry).trans hstopEntry
    rcases probe_of_reached hreached hstopAt hj with hjocc | rfl
    · obtain ⟨slot', hslot', hocc'⟩ := holdsAt_eq_true.mp hjocc
      rw [hslot, Option.some_inj] at hslot'
      exact hslot' ▸ hocc'
    · rw [hslot, Option.some_inj] at hentry
      exact hentry ▸ hocc

end IsTable

/-! ### Growing -/

/-- The number of distinct keys. -/
noncomputable def distinct (r : Setoid K) (keys : List K) : ℕ :=
  (Set.image (Quotient.mk r) {k | k ∈ keys}).ncard

variable {shift newShift newCapacity : UInt64} {b : ℕ} {newMap : List T}

theorem foldlM_rehashSlot (oldSlots : List T) (hcapacity : newCapacity.toNat = 2 ^ b) (hb : b ≤ 63)
    (h : IsTable t newShift b newMap)
    (hfree : (contents t newMap).length + (contents t oldSlots).length < 2 ^ b) :
    ∃ newMap', oldSlots.foldlM (rehashSlot t newShift newCapacity) newMap = .ok newMap' ∧
      IsTable t newShift b newMap' ∧
      (contents t newMap').Perm (contents t newMap ++ contents t oldSlots) := by
  have hmask : (newCapacity - 1).toNat = 2 ^ b - 1 := by
    have hpos := Nat.two_pow_pos b
    rw [UInt64.toNat_sub_of_le _ _ (UInt64.le_iff_toNat_le.mpr (by rw [hcapacity]; exact hpos)),
      hcapacity]
    rfl
  have hstopFree (slot : T) (hslot : t.occupied slot = false) :
      (fun slot => !t.occupied slot) slot = true := by
    dsimp only
    rw [hslot]
    rfl
  induction oldSlots generalizing newMap with
  | nil => exact ⟨newMap, rfl, h, by rw [contents, contents, List.filter_nil, List.append_nil]⟩
  | cons oldSlot oldSlots ih =>
    rw [List.foldlM_cons, rehashSlot]
    by_cases hocc : t.occupied oldSlot = true
    · rw [contents_cons_of_pos hocc, List.length_cons] at hfree
      obtain ⟨j, slot, hj, hslot, hstop, hreached, -⟩ :=
        h.exists_probeSlots (by omega) (by omega) hstopFree hmask (t.hashSlot oldSlot >>> newShift)
      have hslotFree : t.occupied slot = false := by simpa using hstop
      have hperm := contents_set hslot hslotFree hocc
      have htable := h.set hslot hslotFree hreached
      obtain ⟨newMap', hfold, htable', hperm'⟩ := ih htable (by
        rw [hperm.length_eq, List.length_cons]
        omega)
      rw [if_pos hocc, hcapacity, hj]
      refine ⟨newMap', hfold, htable', hperm'.trans ?_⟩
      rw [contents_cons_of_pos hocc]
      exact (hperm.append_right _).trans List.perm_middle.symm
    · rw [contents_cons_of_neg hocc] at hfree ⊢
      obtain ⟨newMap', hfold, htable', hperm'⟩ := ih h hfree
      rw [if_neg hocc]
      exact ⟨newMap', hfold, htable', hperm'⟩

theorem distinct_nil (r : Setoid K) : distinct r [] = 0 := by
  simp [distinct]

theorem distinct_cons_of_exists {key : K}
    (h : ∃ k ∈ keys, r k key) : distinct r (key :: keys) = distinct r keys := by
  obtain ⟨k, hk, hr⟩ := h
  have hmem : Quotient.mk r key ∈ Set.image (Quotient.mk r) {k | k ∈ keys} :=
    ⟨k, hk, Quotient.sound hr⟩
  have hset : {k | k ∈ key :: keys} = Set.insert key {k | k ∈ keys} := by
    ext k
    exact List.mem_cons
  rw [distinct, hset]
  exact congrArg Set.ncard ((Set.image_insert_eq).trans (Set.insert_eq_of_mem hmem))

theorem distinct_cons_of_not_exists {key : K}
    (h : ¬ ∃ k ∈ keys, r k key) : distinct r (key :: keys) = distinct r keys + 1 := by
  have hnotMem : Quotient.mk r key ∉ Set.image (Quotient.mk r) {k | k ∈ keys} := by
    rintro ⟨k, hk, hr⟩
    exact h ⟨k, hk, Quotient.exact hr⟩
  have hset : {k | k ∈ key :: keys} = Set.insert key {k | k ∈ keys} := by
    ext k
    exact List.mem_cons
  have hfinite : (Set.image (Quotient.mk r) {k | k ∈ keys}).Finite :=
    (List.finite_toSet keys).image _
  rw [distinct, hset]
  exact (congrArg Set.ncard Set.image_insert_eq).trans (Set.ncard_insert_of_notMem hnotMem hfinite)

/-- The array is one of `2 ^ b` slots, and the topmost `b` bits of a hash name one. -/
structure Layout (t : FlatSetTraits T K) (s : LinearFlatSet T) (b : ℕ) (slots : List T) : Prop where
  map : s.map = some slots
  shift : s.shift.toNat + b = 64
  shift_pos : 0 < s.shift.toNat
  capacity : s.capacity.toNat = 2 ^ b
  mask : s.mask.toNat = 2 ^ b - 1
  table : IsTable t s.shift b slots

theorem toNat_capacity {newShift : UInt64} {c : ℕ} (hshift : newShift.toNat + c = 64)
    (hpos : 0 < newShift.toNat) : ((1 : UInt64) <<< (64 - newShift)).toNat = 2 ^ c := by
  have hone : (1 : UInt64).toNat = 1 := rfl
  have h64 : (64 : UInt64).toNat = 64 := rfl
  have hcount : (64 - newShift).toNat = c := by
    rw [UInt64.toNat_sub_of_le _ _ (UInt64.le_iff_toNat_le.mpr (by omega))]
    omega
  have hlt : 2 ^ c < 2 ^ 64 := Nat.pow_lt_pow_right (by omega) (by omega)
  have hmod : c % 64 = c := Nat.mod_eq_of_lt (by omega)
  rw [UInt64.toNat_shiftLeft, hcount, hone, hmod, Nat.one_shiftLeft, Nat.mod_eq_of_lt hlt]

theorem bumpSize_cases (hdefault : t.occupied t.default = false) {b : ℕ}
    (hshift : s.shift.toNat + b = 64)
    (hfree : (contents t (s.map.getD [])).length < 2 ^ b) :
    bumpSize t p s = .error .badArrayNewLength ∨
      ∃ s' newMap, bumpSize t p s = .ok s' ∧ s'.load = s.load ∧
        Layout t s' (b + p.growthExponent.toNat) newMap ∧
        (contents t newMap).Perm (contents t (s.map.getD [])) := by
  have hgrowth : 1 ≤ p.growthExponent.toNat := UInt64.le_iff_toNat_le.mp p.one_le_growthExponent
  have h64 : (64 : UInt64).toNat = 64 := rfl
  rw [bumpSize]
  by_cases hthrows : s.shift ≤ p.growthExponent
  · exact .inl (if_pos hthrows)
  · have hlt := UInt64.lt_iff_toNat_lt.mp (UInt64.not_le.mp hthrows)
    obtain ⟨newShift, hnewShift⟩ : ∃ newShift, s.shift - p.growthExponent = newShift := ⟨_, rfl⟩
    have hnew : newShift.toNat = s.shift.toNat - p.growthExponent.toNat := by
      rw [← hnewShift]
      exact UInt64.toNat_sub_of_le _ _ (UInt64.le_iff_toNat_le.mpr hlt.le)
    have hdefined : ¬ newShift ≥ 64 := by
      rw [ge_iff_le, UInt64.le_iff_toNat_le]
      omega
    obtain ⟨c, hc⟩ : ∃ c, b + p.growthExponent.toNat = c := ⟨_, rfl⟩
    have hcapacity : ((1 : UInt64) <<< (64 - newShift)).toNat = 2 ^ c :=
      toNat_capacity (by omega) (by omega)
    have hmask : ((1 : UInt64) <<< (64 - newShift) - 1).toNat = 2 ^ c - 1 := by
      have hpos := Nat.two_pow_pos c
      rw [UInt64.toNat_sub_of_le _ _ (UInt64.le_iff_toNat_le.mpr (by rw [hcapacity]; exact hpos)),
        hcapacity]
      rfl
    have hgrows : 2 ^ b ≤ 2 ^ c := Nat.pow_le_pow_right (by omega) (by omega)
    have hempty := IsTable.replicate hdefault newShift c
    have hnothing : contents t (List.replicate (2 ^ c) t.default) = [] := by
      rw [contents, List.filter_replicate, if_neg (by rw [hdefault]; exact Bool.false_ne_true)]
    obtain ⟨newMap, hfold, htable, hperm⟩ := foldlM_rehashSlot (s.map.getD []) hcapacity
      (by omega) hempty (by rw [hnothing, List.length_nil]; omega)
    rw [hnothing, List.nil_append] at hperm
    rw [if_neg hthrows, hnewShift, hc]
    dsimp only
    rw [if_neg hdefined, hcapacity, hfold]
    exact .inr ⟨_, newMap, rfl, rfl, ⟨rfl, by dsimp only; omega, by dsimp only; omega, hcapacity,
      hmask, htable⟩, hperm⟩

/-- The array is large enough that `_load` does not reach the next size at once, and the elements are
the keys that have been inserted. -/
structure Holds (t : FlatSetTraits T K) (p : FlatSetParameters) (r : Setoid K)
    (s : LinearFlatSet T) (b : ℕ) (slots : List T) (keys : List K) : Prop
    extends Layout t s b slots where
  loadFactor_le : p.loadFactor.toNat ≤ 2 ^ b
  load : s.load.toNat = p.loadFactor.toNat * (contents t slots).length
  load_lt : s.load.toNat < 2 ^ b + p.loadFactor.toNat
  equals_iff : ∀ key, (∃ slot ∈ contents t slots, t.equals slot key = true) ↔ ∃ k ∈ keys, r k key
  length_contents : (contents t slots).length = distinct r keys

namespace Holds

variable {r : Setoid K} {s : LinearFlatSet T} {slots : List T} {keys : List K}

theorem b_pos (h : Holds t p r s b slots keys) : 0 < b := by
  have hfactor : 2 ≤ p.loadFactor.toNat := UInt64.le_iff_toNat_le.mp p.two_le_loadFactor
  have hle := h.loadFactor_le
  by_contra hzero
  obtain rfl : b = 0 := by omega
  rw [Nat.pow_zero] at hle
  omega

theorem length_lt (h : Holds t p r s b slots keys) : (contents t slots).length < 2 ^ b := by
  have hfactor : 2 ≤ p.loadFactor.toNat := UInt64.le_iff_toNat_le.mp p.two_le_loadFactor
  have hcapacity : 2 ≤ 2 ^ b := Nat.le_self_pow h.b_pos.ne' 2
  have hload := h.load
  have hlt := h.load_lt
  by_contra hfull
  have hfull' := Nat.mul_le_mul_left p.loadFactor.toNat (not_lt.mp hfull)
  obtain ⟨l, hl⟩ := Nat.exists_eq_add_of_le hfactor
  obtain ⟨n, hn⟩ := Nat.exists_eq_add_of_le hcapacity
  rw [hl, hn] at hfull' hlt
  rw [hl] at hload
  have hproduct : (2 + l) * (2 + n) = 2 + l + (2 + n) + l + n + l * n := by ring
  omega

theorem findSlot_cases (hl : t.Lawful r) (h : Holds t p r s b slots keys) (key : K) :
    ∃ j slot, findSlot t s slots key = some j ∧ slots[j]? = some slot ∧
      (t.occupied slot = true ∧ t.equals slot key = true ∧ (∃ k ∈ keys, r k key) ∨
        t.occupied slot = false ∧ (¬ ∃ k ∈ keys, r k key) ∧
          Reached (holdsAt t.occupied slots) (2 ^ b) (t.hash key >>> s.shift).toNat j) := by
  have hshift := h.shift
  have hstop (slot : T) (hslot : t.occupied slot = false) :
      (fun slot => !t.occupied slot || t.equals slot key) slot = true := by
    dsimp only
    rw [hslot]
    rfl
  obtain ⟨j, slot, hj, hslot, hstopped, hreached, hfirst⟩ := h.table.exists_probeSlots (by omega)
    h.length_lt hstop h.mask (t.hash key >>> s.shift)
  refine ⟨j, slot, by rw [findSlot, h.capacity, hj], hslot, ?_⟩
  cases hocc : t.occupied slot with
  | true =>
    have hequals : t.equals slot key = true := by simpa [hocc] using hstopped
    exact .inl ⟨rfl, hequals, (h.equals_iff key).mp ⟨slot, mem_contents_iff.mpr ⟨j, hslot, hocc⟩,
      hequals⟩⟩
  | false =>
    refine .inr ⟨rfl, fun hexists => ?_, hreached⟩
    obtain ⟨entry, hentry, hequals⟩ := (h.equals_iff key).mpr hexists
    obtain ⟨i, hi, hiocc⟩ := mem_contents_iff.mp hentry
    have hhome := h.table.reached i entry hi hiocc
    rw [hl.hashSlot_eq entry key hiocc hequals] at hhome
    have := hfirst i entry hi hiocc (by rw [hequals, Bool.or_true]) hhome
    rw [hocc] at this
    exact Bool.false_ne_true this

theorem insertSlot_cases (hl : t.Lawful r) (h : Holds t p r s b slots keys)
    (hload : s.load.toNat < 2 ^ b) (key : K) :
    ∃ j inserted s' slots' slot, insertSlot t p s key = .ok (j, inserted, s') ∧
      (inserted = true ↔ ¬ ∃ k ∈ keys, r k key) ∧ Holds t p r s' b slots' (key :: keys) ∧
      slots'[j]? = some slot ∧ t.equals slot key = true := by
  obtain ⟨j, slot, hj, hslot, ⟨hocc, hequals, hexists⟩ | ⟨hfree, hnone, hreached⟩⟩ :=
    h.findSlot_cases hl key
  · refine ⟨j, false, s, slots, slot, ?_, iff_of_false Bool.false_ne_true (not_not.mpr hexists),
      ?_, hslot, hequals⟩
    · rw [insertSlot, h.map, Option.getD_some, hj]
      dsimp only
      rw [hslot, Option.any_some, if_pos hocc]
    · refine { h with equals_iff := fun k => (h.equals_iff k).trans ?_, length_contents := ?_ }
      · rw [List.exists_mem_cons_iff]
        refine ⟨.inr, fun hcons => hcons.elim (fun hkey => ?_) id⟩
        obtain ⟨k', hk', hr⟩ := hexists
        exact ⟨k', hk', r.trans hr hkey⟩
      · rw [h.length_contents, distinct_cons_of_exists hexists]
  · have hperm := contents_set hslot hfree (hl.occupied_assign slot key)
    have hmodify := modify_eq_set hslot fun slot => t.assign slot key
    have hequals := hl.equals_assign slot key
    have hocc := hl.occupied_assign slot key
    have hcapacity : 2 ^ b ≤ 2 ^ 63 := by
      have hshift := h.shift
      have hpos := h.shift_pos
      exact Nat.pow_le_pow_right (by omega) (by omega)
    have hfactor := h.loadFactor_le
    have hsum : (s.load + p.loadFactor).toNat = s.load.toNat + p.loadFactor.toNat := by
      rw [UInt64.toNat_add]
      exact Nat.mod_eq_of_lt (by omega)
    refine ⟨j, true, { s with
        map := some (slots.modify j fun slot => t.assign slot key)
        load := s.load + p.loadFactor }, slots.set j (t.assign slot key), t.assign slot key, ?_,
      iff_of_true rfl hnone, ?_, ?_, hequals⟩
    · rw [insertSlot, h.map, Option.getD_some, hj]
      dsimp only
      rw [hslot, Option.any_some, if_neg (by rw [hfree]; exact Bool.false_ne_true)]
    · refine { map := by rw [hmodify], shift := h.shift, shift_pos := h.shift_pos,
               capacity := h.capacity, mask := h.mask, table := h.table.set hslot hfree ?_,
               loadFactor_le := h.loadFactor_le, load := ?_, load_lt := ?_, equals_iff := ?_,
               length_contents := ?_ }
      · rwa [hl.hashSlot_eq _ key hocc hequals]
      · rw [hsum, hperm.length_eq, List.length_cons, h.load]
        ring
      · dsimp only
        omega
      · intro k
        have hmem : (∃ slot' ∈ contents t (slots.set j (t.assign slot key)),
            t.equals slot' k = true) ↔
              ∃ slot' ∈ t.assign slot key :: contents t slots, t.equals slot' k = true :=
          exists_congr fun slot' => and_congr_left' hperm.mem_iff
        rw [hmem, List.exists_mem_cons_iff, List.exists_mem_cons_iff, h.equals_iff,
          hl.equals_iff _ key k hocc hequals]
      · rw [hperm.length_eq, List.length_cons, h.length_contents, distinct_cons_of_not_exists hnone]
    · exact List.getElem?_set_self (List.getElem?_eq_some_iff.mp hslot).1

end Holds

/-! ### Runs -/

variable {r : Setoid K}

theorem toNat_initialShift (hfactor : p.loadFactor < 64) :
    (initialShift p).toNat + (p.loadFactor.toNat + 1) = 64 := by
  have hlt : p.loadFactor.toNat < 64 := UInt64.lt_iff_toNat_lt.mp hfactor
  have h64 : (64 : UInt64).toNat = 64 := rfl
  have hone : (1 : UInt64).toNat = 1 := rfl
  have hsub : (64 - p.loadFactor).toNat = 64 - p.loadFactor.toNat := by
    rw [UInt64.toNat_sub_of_le _ _ (UInt64.le_iff_toNat_le.mpr (by omega)), h64]
  rw [initialShift, UInt64.toNat_sub_of_le _ _ (UInt64.le_iff_toNat_le.mpr (by omega)), hsub]
  omega

/-- The state of a run: the empty set, or an array. -/
def IsSet (t : FlatSetTraits T K) (p : FlatSetParameters) (r : Setoid K) (s : LinearFlatSet T)
    (keys : List K) : Prop :=
  s = empty p ∧ keys = [] ∨ ∃ b slots, Holds t p r s b slots keys

theorem IsSet.bumpSize (hfactor : p.loadFactor < 64) (hl : t.Lawful r) (h : IsSet t p r s keys) :
    bumpSize t p s = .error .badArrayNewLength ∨
      ∃ s' b newMap, bumpSize t p s = .ok s' ∧ Holds t p r s' b newMap keys ∧
        s'.load.toNat < 2 ^ b ∧ (contents t newMap).Perm (contents t (s.map.getD [])) := by
  have hgrowth : 1 ≤ p.growthExponent.toNat := UInt64.le_iff_toNat_le.mp p.one_le_growthExponent
  rcases h with ⟨rfl, rfl⟩ | ⟨b, slots, h⟩
  · have hnothing : contents t ((empty p : LinearFlatSet T).map.getD []) = [] := rfl
    have hroom : (contents t ((empty p : LinearFlatSet T).map.getD [])).length <
        2 ^ (p.loadFactor.toNat + 1) := by
      rw [hnothing, List.length_nil]
      exact Nat.two_pow_pos _
    have hshift : (empty p : LinearFlatSet T).shift.toNat + (p.loadFactor.toNat + 1) = 64 :=
      toNat_initialShift hfactor
    rcases bumpSize_cases (p := p) hl.occupied_default hshift hroom with hthrows | hgrows
    · exact .inl hthrows
    · obtain ⟨s', newMap, hbump, hload, hlayout, hperm⟩ := hgrows
      have hcontents : contents t newMap = [] := List.perm_nil.mp hperm
      have hzero : s'.load.toNat = 0 := by rw [hload]; rfl
      have hle : p.loadFactor.toNat ≤ 2 ^ (p.loadFactor.toNat + 1 + p.growthExponent.toNat) :=
        Nat.lt_two_pow_self.le.trans (Nat.pow_le_pow_right (by omega) (by omega))
      have hpos := Nat.two_pow_pos (p.loadFactor.toNat + 1 + p.growthExponent.toNat)
      refine .inr ⟨s', _, newMap, hbump, { hlayout with
        loadFactor_le := hle
        load := by rw [hcontents, hzero, List.length_nil, Nat.mul_zero]
        load_lt := by omega
        equals_iff := fun key => by rw [hcontents]; simp
        length_contents := by rw [hcontents, distinct_nil]; rfl }, by omega, hperm⟩
  · have hmap : s.map.getD [] = slots := by rw [h.map, Option.getD_some]
    rcases bumpSize_cases hl.occupied_default h.shift (by rw [hmap]; exact h.length_lt) with
      hthrows | hgrows
    · exact .inl hthrows
    · obtain ⟨s', newMap, hbump, hload, hlayout, hperm⟩ := hgrows
      have hperm' : (contents t newMap).Perm (contents t slots) := hmap ▸ hperm
      have hdouble : 2 ^ b + 2 ^ b ≤ 2 ^ (b + p.growthExponent.toNat) := by
        have := Nat.pow_le_pow_right (n := 2) (by omega) (Nat.add_le_add_left hgrowth b)
        rwa [Nat.pow_succ, Nat.mul_two] at this
      have hle := h.loadFactor_le
      have hlt := h.load_lt
      refine .inr ⟨s', _, newMap, hbump, { hlayout with
        loadFactor_le := by omega
        load := by rw [hload, h.load, hperm'.length_eq]
        load_lt := by rw [hload]; omega
        equals_iff := fun key => ?_
        length_contents := by rw [hperm'.length_eq, h.length_contents] },
          by rw [hload]; omega, hperm⟩
      rw [← h.equals_iff]
      exact exists_congr fun slot => and_congr_left' hperm'.mem_iff

theorem IsSet.insert (hfactor : p.loadFactor < 64) (hl : t.Lawful r) (h : IsSet t p r s keys)
    (key : K) :
    insert t p s key = .error .badArrayNewLength ∨
      ∃ j inserted s' slots' slot, insert t p s key = .ok (j, inserted, s') ∧
        (inserted = true ↔ ¬ ∃ k ∈ keys, r k key) ∧ IsSet t p r s' (key :: keys) ∧
        s'.map = some slots' ∧ slots'[j]? = some slot ∧ t.equals slot key = true := by
  rw [LinearFlatSet.insert]
  by_cases hfull : s.load ≥ s.capacity
  · rw [if_pos hfull]
    rcases h.bumpSize hfactor hl with hthrows | ⟨s', b, newMap, hbump, hholds, hload, -⟩
    · rw [hthrows]
      exact .inl rfl
    · obtain ⟨j, inserted, s'', slots', slot, hinsert, hnew, hholds', hslot, hequals⟩ :=
        hholds.insertSlot_cases hl hload key
      rw [hbump]
      exact .inr ⟨j, inserted, s'', slots', slot, hinsert, hnew, .inr ⟨b, slots', hholds'⟩,
        hholds'.map, hslot, hequals⟩
  · rw [if_neg hfull]
    rcases h with ⟨rfl, -⟩ | ⟨b, slots, hholds⟩
    · exact absurd (UInt64.le_refl 0) hfull
    · have hload : s.load.toNat < 2 ^ b := by
        rw [← hholds.capacity]
        exact UInt64.lt_iff_toNat_lt.mp (UInt64.not_le.mp hfull)
      obtain ⟨j, inserted, s'', slots', slot, hinsert, hnew, hholds', hslot, hequals⟩ :=
        hholds.insertSlot_cases hl hload key
      exact .inr ⟨j, inserted, s'', slots', slot, hinsert, hnew, .inr ⟨b, slots', hholds'⟩,
        hholds'.map, hslot, hequals⟩

theorem IsSet.clear (hl : t.Lawful r)
    (h : IsSet t p r s keys) : IsSet t p r (clear t s) [] := by
  rcases h with ⟨rfl, -⟩ | ⟨b, slots, h⟩
  · exact .inl ⟨rfl, rfl⟩
  · have hnothing : contents t (List.replicate (2 ^ b) t.default) = [] := by
      rw [contents, List.filter_replicate,
        if_neg (by rw [hl.occupied_default]; exact Bool.false_ne_true)]
    have hfactor : 2 ≤ p.loadFactor.toNat := UInt64.le_iff_toNat_le.mp p.two_le_loadFactor
    have hzero : (0 : UInt64).toNat < 2 ^ b + p.loadFactor.toNat :=
      Nat.lt_of_lt_of_le (Nat.zero_lt_of_lt hfactor) (Nat.le_add_left _ _)
    refine .inr ⟨b, List.replicate (2 ^ b) t.default, ?_⟩
    rw [LinearFlatSet.clear, h.map, h.capacity]
    exact { map := rfl
            shift := h.shift
            shift_pos := h.shift_pos
            capacity := h.capacity
            mask := h.mask
            table := .replicate hl.occupied_default _ _
            loadFactor_le := h.loadFactor_le
            load := by rw [hnothing]; rfl
            load_lt := hzero
            equals_iff := fun key => by rw [hnothing]; simp
            length_contents := by rw [hnothing, distinct_nil]; rfl }

theorem Reaches.isSet (hfactor : p.loadFactor < 64) (hl : t.Lawful r) (h : Reaches t p s keys) :
    IsSet t p r s keys := by
  induction h with
  | empty => exact .inl ⟨rfl, rfl⟩
  | insert h hinsert ih =>
    rcases ih.insert hfactor hl _ with hthrows | ⟨j, inserted, s', slots, slot, hok, -, hset, -⟩
    · rw [hthrows] at hinsert
      exact absurd hinsert (by simp)
    · rw [hok, Except.ok.injEq, Prod.mk.injEq, Prod.mk.injEq] at hinsert
      exact hinsert.2.2 ▸ hset
  | clear h ih => exact ih.clear hl

theorem IsSet.lookup (hl : t.Lawful r)
    (h : IsSet t p r s keys) (key : K) :
    ∃ found, lookup t s key = .ok found ∧ (found.isSome = true ↔ ∃ k ∈ keys, r k key) ∧
      ∀ j, found = some j → ∃ slots slot, s.map = some slots ∧ slots[j]? = some slot ∧
        t.occupied slot = true ∧ t.equals slot key = true := by
  rcases h with ⟨rfl, rfl⟩ | ⟨b, slots, h⟩
  · exact ⟨none, rfl, by simp, by simp⟩
  · obtain ⟨j, slot, hj, hslot, ⟨hocc, hequals, hexists⟩ | ⟨hfree, hnone, -⟩⟩ :=
      h.findSlot_cases hl key
    · refine ⟨some j, ?_, iff_of_true rfl hexists, ?_⟩
      · rw [LinearFlatSet.lookup, h.map]
        dsimp only
        rw [hj]
        dsimp only
        rw [hslot, Option.any_some, if_pos hocc]
      · rintro _ ⟨⟩
        exact ⟨slots, slot, h.map, hslot, hocc, hequals⟩
    · refine ⟨none, ?_, iff_of_false (by simp) hnone, by simp⟩
      rw [LinearFlatSet.lookup, h.map]
      dsimp only
      rw [hj]
      dsimp only
      rw [hslot, Option.any_some, if_neg (by rw [hfree]; exact Bool.false_ne_true)]

theorem IsSet.size (h : IsSet t p r s keys) :
    (size p s).toNat = distinct r keys := by
  have htwo : 2 ≤ p.loadFactor.toNat := UInt64.le_iff_toNat_le.mp p.two_le_loadFactor
  rcases h with ⟨rfl, rfl⟩ | ⟨b, slots, h⟩
  · rw [LinearFlatSet.size, UInt64.toNat_div, distinct_nil]
    exact Nat.zero_div _
  · rw [LinearFlatSet.size, UInt64.toNat_div, h.load, Nat.mul_div_cancel_left _ (by omega),
      h.length_contents]

/-- A flat set is the finite set of the keys that have been inserted since it was cleared: `lookup`
finds these, `insert` tells the new ones or throws, `size` is how many they are, growing keeps the
elements, and a slot is always free, so that every search ends. -/
theorem refines (hfactor : p.loadFactor < 64) (hl : t.Lawful r) {s : LinearFlatSet T}
    {keys : List K} (h : Reaches t p s keys) :
    (∀ key, ∃ found, lookup t s key = .ok found ∧
      (found.isSome = true ↔ ∃ k ∈ keys, r k key) ∧
      ∀ j, found = some j → ∃ slots slot, s.map = some slots ∧ slots[j]? = some slot ∧
        t.occupied slot = true ∧ t.equals slot key = true) ∧
    (∀ key, insert t p s key = .error .badArrayNewLength ∨
      ∃ j inserted s' slots' slot, insert t p s key = .ok (j, inserted, s') ∧
        (inserted = true ↔ ¬ ∃ k ∈ keys, r k key) ∧
        s'.map = some slots' ∧ slots'[j]? = some slot ∧ t.equals slot key = true) ∧
    (size p s).toNat = distinct r keys ∧
    (bumpSize t p s = .error .badArrayNewLength ∨
      ∃ s' slots', bumpSize t p s = .ok s' ∧ s'.map = some slots' ∧
        (contents t slots').Perm (contents t (s.map.getD []))) ∧
    (∀ slots, s.map = some slots → ∃ slot ∈ slots, t.occupied slot = false) := by
  have hset := h.isSet hfactor hl
  refine ⟨hset.lookup hl, fun key => ?_, hset.size, ?_, fun slots hslots => ?_⟩
  · rcases hset.insert hfactor hl key with hthrows |
      ⟨j, inserted, s', slots, slot, hinsert, hnew, -, hmap, hslot, hequals⟩
    · exact .inl hthrows
    · exact .inr ⟨j, inserted, s', slots, slot, hinsert, hnew, hmap, hslot, hequals⟩
  · rcases hset.bumpSize hfactor hl with hthrows | ⟨s', b, slots, hbump, hholds, -, hperm⟩
    · exact .inl hthrows
    · exact .inr ⟨s', slots, hbump, hholds.map, hperm⟩
  · rcases hset with ⟨rfl, -⟩ | ⟨b, slots', hholds⟩
    · exact absurd hslots (by simp [empty])
    · obtain rfl := Option.some_inj.mp (hholds.map.symm.trans hslots)
      obtain ⟨j, slot, hslot, hfree⟩ := exists_free (hholds.table.length ▸ hholds.length_lt)
      exact ⟨slot, List.mem_of_getElem? hslot, hfree⟩

/-! ### Sets of integers -/

def integerTraits : FlatSetTraits (Option UInt64) UInt64 where
  default := none
  occupied slot := slot.isSome
  equals slot key := slot == some key
  hash := flatSetHashInteger
  hashSlot slot := flatSetHashInteger (slot.getD 0)
  assign _ key := some key

theorem integerTraits_lawful : integerTraits.Lawful ⊥ where
  occupied_default := rfl
  occupied_assign _ _ := rfl
  equals_assign _ _ := by simp [integerTraits]
  hashSlot_eq slot key _ h := by
    obtain rfl : slot = some key := by simpa [integerTraits] using h
    rfl
  equals_iff slot key key' _ h := by
    obtain rfl : slot = some key := by simpa [integerTraits] using h
    simp [integerTraits]

def defaultParameters : FlatSetParameters where
  two_le_loadFactor := by decide
  one_le_growthExponent := by decide

/-- A set of one integer. -/
theorem refines_singleton :
    let s : LinearFlatSet (Option UInt64) :=
      { map := some (List.replicate 5 none ++ some 1 :: List.replicate 10 none)
        capacity := 16, load := 2, shift := 60, mask := 15 }
    Reaches integerTraits defaultParameters s [1] ∧
      (size defaultParameters s).toNat = distinct ⊥ [(1 : UInt64)] := by
  intro s
  have hinsert : insert integerTraits defaultParameters (empty defaultParameters) 1 =
      .ok (5, true, s) := by
    decide +kernel
  have hreaches : Reaches integerTraits defaultParameters s [1] := .insert .empty hinsert
  exact ⟨hreaches, (refines (by decide) integerTraits_lawful hreaches).2.2.1⟩

def largestLoadFactor : FlatSetParameters where
  loadFactor := -1
  two_le_loadFactor := by decide
  one_le_growthExponent := by decide

/-- Adding the largest load factor to `_load` twice is subtracting two. -/
theorem size_wraps :
    let s : LinearFlatSet (Option UInt64) :=
      { map := some [none, some 1, some 2, none]
        capacity := 4, load := -2, shift := 62, mask := 3 }
    Reaches integerTraits largestLoadFactor s [2, 1] ∧ (size largestLoadFactor s).toNat = 0 ∧
      distinct ⊥ [(2 : UInt64), 1] = 2 := by
  intro s
  have hfirst : insert integerTraits largestLoadFactor (empty largestLoadFactor) 1 = .ok (0, true,
      { map := some [some 1, none], capacity := 2, load := -1, shift := 63, mask := 1 }) := by
    decide +kernel
  have hsecond : insert integerTraits largestLoadFactor
      { map := some [some 1, none], capacity := 2, load := -1, shift := 63, mask := 1 } 2 =
        .ok (2, true, s) := by
    decide +kernel
  refine ⟨.insert (.insert .empty hfirst) hsecond, by decide +kernel, ?_⟩
  rw [distinct_cons_of_not_exists (by simp), distinct_cons_of_not_exists (by simp), distinct_nil]

end LinearFlatSet

end IntelligentTerminal.Til
