import IntelligentTerminal.Buffer.Attributes
import Mathlib

/-!
# Decoding Base64

`Base64::Decode` shifts the values of the characters into a register, and takes three bytes out of
it behind every four characters. A first loop takes four characters at a time while more than five
are left, and does not expect a `=` among them; a second one takes what is left, and ignores every
`=`. The bytes are converted by `til::u8u16`, which is the parameter `u8u16`.

The agent encodes what it copies to the clipboard by `osc52::base64_encode`.

Source: `src/terminal/parser/base64.cpp`, lines 19-158; `tools/wta/src/osc52.rs`, lines 10-40.
-/

namespace IntelligentTerminal.Vt

open Buffer (WChar)

namespace Base64

/-! ### The decoder -/

def decodeTable : List UInt8 := [
  255, 255, 255, 255, 255, 255, 255, 255, 255, 255, 255, 255, 255, 255, 255, 255,
  255, 255, 255, 255, 255, 255, 255, 255, 255, 255, 255, 255, 255, 255, 255, 255,
  255, 255, 255, 255, 255, 255, 255, 255, 255, 255, 255, 62, 255, 62, 255, 63,
  52, 53, 54, 55, 56, 57, 58, 59, 60, 61, 255, 255, 255, 255, 255, 255,
  255, 0, 1, 2, 3, 4, 5, 6, 7, 8, 9, 10, 11, 12, 13, 14,
  15, 16, 17, 18, 19, 20, 21, 22, 23, 24, 25, 255, 255, 255, 255, 63,
  255, 26, 27, 28, 29, 30, 31, 32, 33, 34, 35, 36, 37, 38, 39, 40,
  41, 42, 43, 44, 45, 46, 47, 48, 49, 50, 51, 255, 255, 255, 255, 255]

/-- `L'='`. -/
def pad : WChar := 0x3D

/-- `HRESULT_FROM_WIN32(ERROR_INVALID_DATA)`. -/
def invalidData : UInt32 := 0x8007000D

/-- The variables of `Base64::Decode`: the register, the errors, and what has been put out. -/
structure State where
  r : UInt32 := 0
  error : UInt32 := 0
  out : List UInt8 := []
deriving DecidableEq

namespace State

/-- The lambda `accumulate`. -/
def accumulate (s : State) (ch : WChar) : State :=
  let n := decodeTable.getD (ch &&& 0x7F).toNat 0
  { s with
    error := s.error ||| ((ch ||| n.toUInt16) &&& 0xFF80).toUInt32
    r := s.r <<< 6 ||| n.toUInt32 }

/-- `*out++ = gsl::narrow_cast<char>(r >> shift)`. -/
def emit (s : State) (shift : UInt32) : State :=
  { s with out := s.out ++ [(s.r >>> shift).toUInt8] }

end State

/-- The batched loop, from the position `pos` on, and the characters that it leaves. -/
def batchLoop (inEndBatched : ℕ) : ℕ → List WChar → State → List WChar × State
  | pos, ch0 :: ch1 :: ch2 :: ch3 :: rest, s =>
    if pos < inEndBatched then
      let s := (((s.accumulate ch0).accumulate ch1).accumulate ch2).accumulate ch3
      batchLoop inEndBatched (pos + 4) rest (((s.emit 16).emit 8).emit 0)
    else (ch0 :: ch1 :: ch2 :: ch3 :: rest, s)
  | _, rest, s => (rest, s)

/-- The loop over what is left, with the number of characters that are not `=`. -/
def tailLoop : List WChar → UInt8 → State → UInt8 × State
  | [], ri, s => (ri, s)
  | ch :: rest, ri, s =>
    if ch = pad then tailLoop rest ri s else tailLoop rest (ri + 1) (s.accumulate ch)

/-- The `switch` behind the loops. -/
def emitTail (ri : UInt8) (s : State) : State :=
  if ri = 2 then s.emit 4
  else if ri = 3 then (s.emit 10).emit 2
  else if ri = 4 then ((s.emit 16).emit 8).emit 0
  else { s with error := s.error ||| ri.toUInt32 }

/-- The loops and the `switch`, from the position `pos` on. -/
def run (inEndBatched pos : ℕ) (src : List WChar) (s : State) : State :=
  let (rest, s) := batchLoop inEndBatched pos src s
  let (ri, s) := tailLoop rest 0 s
  emitTail ri s

def decode (u8u16 : List UInt8 → Except UInt32 (List WChar)) (src : List WChar) :
    Except UInt32 (List WChar) :=
  let s := run (src.length - min 5 src.length) 0 src {}
  if s.error ≠ 0 then .error invalidData else u8u16 s.out

/-! ### The encoder of the agent -/

def b64 : List WChar :=
  "ABCDEFGHIJKLMNOPQRSTUVWXYZabcdefghijklmnopqrstuvwxyz0123456789+/".toList.map fun c =>
    c.toNat.toUInt16

/-- `B64[((n >> shift) & 0x3F) as usize]`. -/
def b64At (n shift : UInt32) : WChar := b64.getD ((n >>> shift) &&& 0x3F).toNat 0

def base64Encode : List UInt8 → List WChar
  | x :: y :: z :: rest =>
    let n := (x.toUInt32 <<< 16) ||| (y.toUInt32 <<< 8) ||| z.toUInt32
    b64At n 18 :: b64At n 12 :: b64At n 6 :: b64At n 0 :: base64Encode rest
  | [x, y] =>
    let n := (x.toUInt32 <<< 16) ||| (y.toUInt32 <<< 8)
    [b64At n 18, b64At n 12, b64At n 6, pad]
  | [x] =>
    let n := x.toUInt32 <<< 16
    [b64At n 18, b64At n 12, pad, pad]
  | [] => []

/-! ### The encoding -/

/-- The character for a value below 64, in the standard alphabet or in the one for URLs. -/
def alphabet (url : Bool) (i : ℕ) : WChar :=
  if i < 26 then (0x41 + i).toUInt16
  else if i < 52 then (0x61 + (i - 26)).toUInt16
  else if i < 62 then (0x30 + (i - 52)).toUInt16
  else if i = 62 then if url then 0x2D else 0x2B
  else if url then 0x5F else 0x2F

/-- The characters for the four groups of six bits of `n`. -/
def sextets (url : Bool) (n : ℕ) : List WChar :=
  [alphabet url (n / 2 ^ 18 % 64), alphabet url (n / 2 ^ 12 % 64), alphabet url (n / 2 ^ 6 % 64),
    alphabet url (n % 64)]

/-- The encoding without padding. -/
def encode (url : Bool) : List UInt8 → List WChar
  | x :: y :: z :: rest =>
    sextets url (x.toNat * 2 ^ 16 + y.toNat * 2 ^ 8 + z.toNat) ++ encode url rest
  | [x, y] => (sextets url (x.toNat * 2 ^ 16 + y.toNat * 2 ^ 8)).take 3
  | [x] => (sextets url (x.toNat * 2 ^ 16)).take 2
  | [] => []

def InAlphabet (ch : WChar) : Prop := ∃ url, ∃ i < 64, alphabet url i = ch

/-! ### One character -/

theorem alphabet_facts (url : Bool) : ∀ i < 64, decodeTable.getD (alphabet url i &&& 0x7F).toNat 0 =
    i.toUInt8 ∧ (alphabet url i ||| i.toUInt8.toUInt16) &&& 0xFF80 = 0 ∧ alphabet url i ≠ pad := by
  cases url <;> decide +kernel

theorem accumulate_alphabet (s : State) (url : Bool) {i : ℕ} (hi : i < 64) :
    ∃ r, s.accumulate (alphabet url i) = { s with r } ∧
      r.toNat = s.r.toNat % 2 ^ 26 * 64 + i := by
  obtain ⟨htable, herror, -⟩ := alphabet_facts url i hi
  refine ⟨s.r <<< 6 ||| i.toUInt8.toUInt32, ?_, ?_⟩
  · have hzero : (0 : UInt16).toUInt32 = 0 := rfl
    rw [State.accumulate, htable, herror, hzero, UInt32.or_zero]
  · have hbyte : i.toUInt8.toUInt32.toNat = i := by
      rw [UInt8.toNat_toUInt32]
      exact Nat.mod_eq_of_lt (by omega)
    have hshift : (s.r <<< 6).toNat = (s.r.toNat % 2 ^ 26) <<< 6 := by
      rw [UInt32.toNat_shiftLeft, Nat.shiftLeft_eq, Nat.shiftLeft_eq]
      change s.r.toNat * 2 ^ 6 % 2 ^ 32 = s.r.toNat % 2 ^ 26 * 2 ^ 6
      omega
    rw [UInt32.toNat_or, hbyte, hshift, ← Nat.shiftLeft_add_eq_or_of_lt (by omega),
      Nat.shiftLeft_eq]

variable {inEnd pos : ℕ} {src : List WChar} {ch : WChar} {s : State} {inEnd : ℕ}

theorem accumulate_error (ch : WChar) (h : s.error ≠ 0) :
    (s.accumulate ch).error ≠ 0 := by
  rw [State.accumulate, Ne, UInt32.or_eq_zero_iff]
  exact fun hzero => h hzero.1

theorem table_error_of_lt : ∀ i < 128,
    (∃ url, ∃ k < 64, alphabet url k = i.toUInt16) ∨
      (i.toUInt16 ||| (decodeTable.getD (i.toUInt16 &&& 0x7F).toNat 0).toUInt16) &&& 0xFF80 ≠
        0 := by
  decide +kernel

theorem accumulate_error_of_notInAlphabet (s : State) (h : ¬ InAlphabet ch) :
    (s.accumulate ch).error ≠ 0 := by
  have herror : (ch ||| (decodeTable.getD (ch &&& 0x7F).toNat 0).toUInt16) &&& 0xFF80 ≠ 0 := by
    rcases Nat.lt_or_ge ch.toNat 128 with hlt | hge
    · have htable := table_error_of_lt ch.toNat hlt
      rw [show ch.toNat.toUInt16 = ch from UInt16.ofNat_toNat] at htable
      exact htable.resolve_left h
    · intro hzero
      have hbits := congrArg UInt16.toNat hzero
      rw [UInt16.toNat_and, UInt16.toNat_or, Nat.and_or_distrib_right] at hbits
      have hhigh : ch.toNat &&& 0xFF80 = 0 := (Nat.or_eq_zero_iff.mp hbits).1
      have hall : ch.toNat &&& (0x7F ||| 0xFF80) = ch.toNat := by
        rw [show (0x7F ||| 0xFF80 : ℕ) = 2 ^ 16 - 1 from rfl]
        exact Nat.and_two_pow_sub_one_of_lt_two_pow ch.toNat_lt
      rw [Nat.and_or_distrib_left, hhigh, Nat.or_zero] at hall
      have hle : ch.toNat &&& 0x7F ≤ 127 := Nat.and_le_right
      omega
  rw [State.accumulate, Ne, UInt32.or_eq_zero_iff]
  intro hzero
  have hzero' := congrArg UInt32.toNat hzero.2
  rw [UInt16.toNat_toUInt32] at hzero'
  exact herror (UInt16.toNat_inj.mp hzero')

theorem pad_notInAlphabet : ¬ InAlphabet pad := by
  rintro ⟨url, i, hi, heq⟩
  exact (alphabet_facts url i hi).2.2 heq

/-! ### Errors -/

theorem batchLoop_error (pos : ℕ) (src : List WChar) (h : s.error ≠ 0) :
    (batchLoop inEnd pos src s).2.error ≠ 0 := by
  fun_induction batchLoop inEnd pos src s with
  | case1 pos ch0 ch1 ch2 ch3 rest s hlt s' ih =>
    exact ih (accumulate_error _ (accumulate_error _ (accumulate_error _ (accumulate_error _ h))))
  | case2 => exact h
  | case3 => exact h

theorem tailLoop_error (src : List WChar) (ri : UInt8) (h : s.error ≠ 0) :
    (tailLoop src ri s).2.error ≠ 0 := by
  fun_induction tailLoop src ri s with
  | case1 => exact h
  | case2 ri s rest ih => exact ih h
  | case3 ch rest ri s hpad ih => exact ih (accumulate_error ch h)

theorem emitTail_error (ri : UInt8) (h : s.error ≠ 0) : (emitTail ri s).error ≠ 0 := by
  unfold emitTail
  split_ifs
  · exact h
  · exact h
  · exact h
  · rw [Ne, UInt32.or_eq_zero_iff]
    exact fun hzero => h hzero.1

/-- Four characters of the batched loop. -/
def accumulateFour (s : State) (ch0 ch1 ch2 ch3 : WChar) : State :=
  (((s.accumulate ch0).accumulate ch1).accumulate ch2).accumulate ch3

theorem accumulateFour_error (s : State) {ch0 ch1 ch2 ch3 : WChar}
    (h : ∃ ch ∈ [ch0, ch1, ch2, ch3], ¬ InAlphabet ch) :
    (accumulateFour s ch0 ch1 ch2 ch3).error ≠ 0 := by
  obtain ⟨ch, hmem, hbad⟩ := h
  have hch (s : State) := accumulate_error_of_notInAlphabet s hbad
  simp only [List.mem_cons, List.not_mem_nil, or_false] at hmem
  rcases hmem with rfl | rfl | rfl | rfl
  · exact accumulate_error _ (accumulate_error _ (accumulate_error _ (hch s)))
  · exact accumulate_error _ (accumulate_error _ (hch _))
  · exact accumulate_error _ (hch _)
  · exact hch _

theorem batchLoop_cons (inEnd pos : ℕ) (ch0 ch1 ch2 ch3 : WChar) (rest : List WChar) (s : State) :
    batchLoop inEnd pos (ch0 :: ch1 :: ch2 :: ch3 :: rest) s =
      if pos < inEnd then
        batchLoop inEnd (pos + 4) rest
          ((((accumulateFour s ch0 ch1 ch2 ch3).emit 16).emit 8).emit 0)
      else (ch0 :: ch1 :: ch2 :: ch3 :: rest, s) :=
  rfl

theorem batchLoop_error_of_mem (inEnd pos : ℕ) (s : State)
    (hch : ch ∈ src) (hbad : ¬ InAlphabet ch) :
    (batchLoop inEnd pos src s).2.error ≠ 0 ∨ ch ∈ (batchLoop inEnd pos src s).1 := by
  fun_induction batchLoop inEnd pos src s with
  | case1 pos ch0 ch1 ch2 ch3 rest s hlt s' ih =>
    rcases List.mem_append.mp (show ch ∈ [ch0, ch1, ch2, ch3] ++ rest from hch) with hfour | hrest
    · exact .inl (batchLoop_error _ _ (accumulateFour_error s ⟨ch, hfour, hbad⟩))
    · exact ih hrest
  | case2 => exact .inr hch
  | case3 => exact .inr hch

theorem tailLoop_error_of_mem (ri : UInt8) (s : State)
    (hch : ch ∈ src) (hbad : ¬ InAlphabet ch) (hpad : ch ≠ pad) :
    (tailLoop src ri s).2.error ≠ 0 := by
  fun_induction tailLoop src ri s with
  | case1 => exact absurd hch List.not_mem_nil
  | case2 ri s rest ih => exact ih (List.mem_of_ne_of_mem hpad hch)
  | case3 c rest ri s hc ih =>
    rcases List.mem_cons.mp hch with rfl | hrest
    · exact tailLoop_error _ _ (accumulate_error_of_notInAlphabet s hbad)
    · exact ih hrest

theorem run_error_of_mem (pos : ℕ) (s : State)
    (hch : ch ∈ src) (hbad : ¬ InAlphabet ch) (hpad : ch ≠ pad) :
    (run inEnd pos src s).error ≠ 0 := by
  refine emitTail_error _ ?_
  rcases batchLoop_error_of_mem inEnd pos s hch hbad with herror | hrest
  · exact tailLoop_error _ _ herror
  · exact tailLoop_error_of_mem _ _ hrest hbad hpad

/-! ### Encodings -/

theorem accumulateFour_sextets (s : State) (url : Bool) {n : ℕ} (hn : n < 2 ^ 24) :
    ∃ r, accumulateFour s (alphabet url (n / 2 ^ 18 % 64)) (alphabet url (n / 2 ^ 12 % 64))
        (alphabet url (n / 2 ^ 6 % 64)) (alphabet url (n % 64)) = { s with r } ∧
      r.toNat % 2 ^ 24 = n := by
  obtain ⟨r₁, h₁, hr₁⟩ := accumulate_alphabet s url (Nat.mod_lt (n / 2 ^ 18) (by decide))
  obtain ⟨r₂, h₂, hr₂⟩ :=
    accumulate_alphabet { s with r := r₁ } url (Nat.mod_lt (n / 2 ^ 12) (by decide))
  obtain ⟨r₃, h₃, hr₃⟩ :=
    accumulate_alphabet { s with r := r₂ } url (Nat.mod_lt (n / 2 ^ 6) (by decide))
  obtain ⟨r₄, h₄, hr₄⟩ := accumulate_alphabet { s with r := r₃ } url (Nat.mod_lt n (by decide))
  refine ⟨r₄, by rw [accumulateFour, h₁, h₂, h₃, h₄], ?_⟩
  dsimp only at hr₂ hr₃ hr₄
  omega

theorem toNat_emitted (r shift : UInt32) (h : shift.toNat < 32) :
    (r >>> shift).toUInt8.toNat = r.toNat / 2 ^ shift.toNat % 256 := by
  rw [UInt32.toNat_toUInt8, UInt32.toNat_shiftRight, Nat.mod_eq_of_lt h, Nat.shiftRight_eq_div_pow]

theorem emit_three (s : State) (x y z : UInt8)
    (h : s.r.toNat % 2 ^ 24 = x.toNat * 2 ^ 16 + y.toNat * 2 ^ 8 + z.toNat) :
    ((s.emit 16).emit 8).emit 0 = { s with out := s.out ++ [x, y, z] } := by
  have hx : (s.r >>> 16).toUInt8 = x := by
    rw [← UInt8.toNat_inj, toNat_emitted _ _ (by decide)]
    have := x.toNat_lt
    have := y.toNat_lt
    have := z.toNat_lt
    change s.r.toNat / 2 ^ 16 % 256 = _
    omega
  have hy : (s.r >>> 8).toUInt8 = y := by
    rw [← UInt8.toNat_inj, toNat_emitted _ _ (by decide)]
    have := y.toNat_lt
    have := z.toNat_lt
    change s.r.toNat / 2 ^ 8 % 256 = _
    omega
  have hz : s.r.toUInt8 = z := by
    rw [← UInt8.toNat_inj, UInt32.toNat_toUInt8]
    have := z.toNat_lt
    omega
  simp [State.emit, hx, hy, hz]

theorem emit_two (s : State) (x y : UInt8)
    (h : s.r.toNat % 2 ^ 18 = (x.toNat * 2 ^ 16 + y.toNat * 2 ^ 8) / 2 ^ 6) :
    (s.emit 10).emit 2 = { s with out := s.out ++ [x, y] } := by
  have hx : (s.r >>> 10).toUInt8 = x := by
    rw [← UInt8.toNat_inj, toNat_emitted _ _ (by decide)]
    have := x.toNat_lt
    have := y.toNat_lt
    change s.r.toNat / 2 ^ 10 % 256 = _
    omega
  have hy : (s.r >>> 2).toUInt8 = y := by
    rw [← UInt8.toNat_inj, toNat_emitted _ _ (by decide)]
    have := y.toNat_lt
    change s.r.toNat / 2 ^ 2 % 256 = _
    omega
  simp [State.emit, hx, hy]

theorem emit_one (s : State) (x : UInt8) (h : s.r.toNat % 2 ^ 12 = x.toNat * 2 ^ 16 / 2 ^ 12) :
    s.emit 4 = { s with out := s.out ++ [x] } := by
  have hx : (s.r >>> 4).toUInt8 = x := by
    rw [← UInt8.toNat_inj, toNat_emitted _ _ (by decide)]
    have := x.toNat_lt
    change s.r.toNat / 2 ^ 4 % 256 = _
    omega
  simp [State.emit, hx]

theorem batchLoop_of_not_lt (src : List WChar) (s : State) (h : ¬ pos < inEnd) :
    batchLoop inEnd pos src s = (src, s) := by
  fun_cases batchLoop inEnd pos src s
  · contradiction
  · rfl
  · rfl

theorem pos_lt_inEnd (pos n : ℕ) : pos < pos + n - min 5 (pos + n) ↔ 5 < n := by
  omega

theorem run_error_of_pad (h : pos < inEnd) (s : State)
    (hlen : 4 ≤ src.length) (hpad : pad ∈ src.take 4) : (run inEnd pos src s).error ≠ 0 := by
  obtain ⟨ch0, ch1, ch2, ch3, rest, rfl⟩ :
      ∃ ch0 ch1 ch2 ch3 rest, src = ch0 :: ch1 :: ch2 :: ch3 :: rest := by
    rcases src with _ | ⟨ch0, _ | ⟨ch1, _ | ⟨ch2, _ | ⟨ch3, rest⟩⟩⟩⟩
    · simp at hlen
    · simp at hlen
    · simp at hlen
    · simp at hlen
    · exact ⟨ch0, ch1, ch2, ch3, rest, rfl⟩
  have herror : (batchLoop inEnd pos (ch0 :: ch1 :: ch2 :: ch3 :: rest) s).2.error ≠ 0 := by
    rw [batchLoop_cons, if_pos h]
    exact batchLoop_error _ _ (accumulateFour_error s ⟨pad, hpad, pad_notInAlphabet⟩)
  exact emitTail_error _ (tailLoop_error _ _ herror)

theorem pad_mem_take {a : List WChar} {k : ℕ} (ha : a.length < 4) (hk : 0 < k) :
    pad ∈ (a ++ List.replicate k pad).take 4 := by
  rw [List.take_append, List.take_replicate]
  exact List.mem_append_right _ (List.mem_replicate.mpr ⟨by omega, rfl⟩)

theorem tailLoop_alphabet (url : Bool) {i : ℕ} (hi : i < 64) (rest : List WChar) (ri : UInt8)
    (s : State) : tailLoop (alphabet url i :: rest) ri s =
      tailLoop rest (ri + 1) (s.accumulate (alphabet url i)) := by
  rw [tailLoop, if_neg (alphabet_facts url i hi).2.2]

theorem tailLoop_padding (k : ℕ) (ri : UInt8) (s : State) :
    tailLoop (List.replicate k pad) ri s = (ri, s) := by
  induction k with
  | zero => rfl
  | succ k ih => rw [List.replicate_succ, tailLoop, if_pos rfl, ih]

theorem length_encode_ne_one (url : Bool) (b : List UInt8) : (encode url b).length ≠ 1 := by
  fun_cases encode url b with
  | case1 => simp [sextets]
  | case2 => simp [sextets]
  | case3 => simp [sextets]
  | case4 => simp

theorem run_tail_three (url : Bool) (x y z : UInt8) (k : ℕ) (s : State)
    (h : ¬ pos < inEnd) : ∃ r,
      run inEnd pos (sextets url (x.toNat * 2 ^ 16 + y.toNat * 2 ^ 8 + z.toNat) ++
        List.replicate k pad) s = { s with r, out := s.out ++ [x, y, z] } := by
  have hn : x.toNat * 2 ^ 16 + y.toNat * 2 ^ 8 + z.toNat < 2 ^ 24 := by
    have := x.toNat_lt
    have := y.toNat_lt
    have := z.toNat_lt
    omega
  obtain ⟨r, hfour, hr⟩ := accumulateFour_sextets s url hn
  refine ⟨r, ?_⟩
  rw [run, batchLoop_of_not_lt _ _ h]
  simp only [sextets, List.cons_append, List.nil_append]
  rw [tailLoop_alphabet url (Nat.mod_lt _ (by decide)),
    tailLoop_alphabet url (Nat.mod_lt _ (by decide)),
    tailLoop_alphabet url (Nat.mod_lt _ (by decide)),
    tailLoop_alphabet url (Nat.mod_lt _ (by decide)), tailLoop_padding]
  change ((((accumulateFour s _ _ _ _).emit 16).emit 8).emit 0) = _
  rw [hfour, emit_three _ x y z hr]

theorem run_tail_two (url : Bool) (x y : UInt8) (k : ℕ) (s : State)
    (h : ¬ pos < inEnd) : ∃ r,
      run inEnd pos ((sextets url (x.toNat * 2 ^ 16 + y.toNat * 2 ^ 8)).take 3 ++
        List.replicate k pad) s = { s with r, out := s.out ++ [x, y] } := by
  obtain ⟨n, hn⟩ : ∃ n, n = x.toNat * 2 ^ 16 + y.toNat * 2 ^ 8 := ⟨_, rfl⟩
  have hlt : n < 2 ^ 24 := by
    have := x.toNat_lt
    have := y.toNat_lt
    omega
  obtain ⟨r₁, h₁, hr₁⟩ := accumulate_alphabet s url (Nat.mod_lt (n / 2 ^ 18) (by decide))
  obtain ⟨r₂, h₂, hr₂⟩ :=
    accumulate_alphabet { s with r := r₁ } url (Nat.mod_lt (n / 2 ^ 12) (by decide))
  obtain ⟨r₃, h₃, hr₃⟩ :=
    accumulate_alphabet { s with r := r₂ } url (Nat.mod_lt (n / 2 ^ 6) (by decide))
  dsimp only at hr₂ hr₃
  refine ⟨r₃, ?_⟩
  rw [run, batchLoop_of_not_lt _ _ h, ← hn]
  simp only [sextets, List.take_succ_cons, List.take_zero, List.cons_append, List.nil_append]
  rw [tailLoop_alphabet url (Nat.mod_lt _ (by decide)),
    tailLoop_alphabet url (Nat.mod_lt _ (by decide)),
    tailLoop_alphabet url (Nat.mod_lt _ (by decide)), tailLoop_padding, h₁, h₂, h₃]
  change (State.emit { s with r := r₃ } 10).emit 2 = _
  rw [emit_two _ x y (by dsimp only; omega)]

theorem run_tail_one (url : Bool) (x : UInt8) (k : ℕ) (s : State)
    (h : ¬ pos < inEnd) : ∃ r,
      run inEnd pos ((sextets url (x.toNat * 2 ^ 16)).take 2 ++ List.replicate k pad) s =
        { s with r, out := s.out ++ [x] } := by
  obtain ⟨n, hn⟩ : ∃ n, n = x.toNat * 2 ^ 16 := ⟨_, rfl⟩
  have hlt : n < 2 ^ 24 := by
    have := x.toNat_lt
    omega
  obtain ⟨r₁, h₁, hr₁⟩ := accumulate_alphabet s url (Nat.mod_lt (n / 2 ^ 18) (by decide))
  obtain ⟨r₂, h₂, hr₂⟩ :=
    accumulate_alphabet { s with r := r₁ } url (Nat.mod_lt (n / 2 ^ 12) (by decide))
  dsimp only at hr₂
  refine ⟨r₂, ?_⟩
  rw [run, batchLoop_of_not_lt _ _ h, ← hn]
  simp only [sextets, List.take_succ_cons, List.take_zero, List.cons_append, List.nil_append]
  rw [tailLoop_alphabet url (Nat.mod_lt _ (by decide)),
    tailLoop_alphabet url (Nat.mod_lt _ (by decide)), tailLoop_padding, h₁, h₂]
  change State.emit { s with r := r₂ } 4 = _
  rw [emit_one _ x (by dsimp only; omega)]

theorem run_tail_zero (k : ℕ) (s : State) (h : ¬ pos < inEnd) :
    run inEnd pos (List.replicate k pad) s = { s with error := s.error ||| 0 } := by
  rw [run, batchLoop_of_not_lt _ _ h]
  dsimp only
  rw [tailLoop_padding]
  rfl

/-! ### Padding -/

theorem run_batched (url : Bool) (x y z : UInt8) (rest : List WChar) (s : State)
    (h : pos < inEnd) : ∃ r,
      run inEnd pos (sextets url (x.toNat * 2 ^ 16 + y.toNat * 2 ^ 8 + z.toNat) ++ rest) s =
        run inEnd (pos + 4) rest { s with r, out := s.out ++ [x, y, z] } := by
  have hn : x.toNat * 2 ^ 16 + y.toNat * 2 ^ 8 + z.toNat < 2 ^ 24 := by
    have := x.toNat_lt
    have := y.toNat_lt
    have := z.toNat_lt
    omega
  obtain ⟨r, hfour, hr⟩ := accumulateFour_sextets s url hn
  refine ⟨r, ?_⟩
  simp only [run, sextets, List.cons_append, List.nil_append]
  rw [batchLoop_cons, if_pos h, hfour, emit_three _ x y z hr]

theorem run_encode (url : Bool) (b : List UInt8) (k pos : ℕ) (s : State) (herr : s.error = 0) :
    let src := encode url b ++ List.replicate k pad
    let s' := run (pos + src.length - min 5 (pos + src.length)) pos src s
    (s'.error = 0 ↔ (encode url b).length % 4 + k ≤ 5) ∧ (s'.error = 0 → s'.out = s.out ++ b) := by
  intro src s'
  have hguard := pos_lt_inEnd pos src.length
  have hsrc : src.length = (encode url b).length + k := by
    rw [List.length_append, List.length_replicate]
  induction b using encode.induct generalizing pos s with
  | case1 x y z rest ih =>
    have hlen : (encode url (x :: y :: z :: rest)).length = 4 + (encode url rest).length := by
      rw [encode, List.length_append]
      rfl
    rw [hlen] at hsrc ⊢
    rcases Nat.lt_or_ge 5 src.length with hlt | hge
    · obtain ⟨r, hrun⟩ := run_batched url x y z (encode url rest ++ List.replicate k pad) s
        (hguard.mpr hlt)
      have hend : pos + 4 + (encode url rest ++ List.replicate k pad).length =
          pos + src.length := by
        rw [List.length_append, List.length_replicate]
        omega
      obtain ⟨hok, hout⟩ := ih (pos + 4) { s with r, out := s.out ++ [x, y, z] } herr
        (pos_lt_inEnd _ _) (by rw [List.length_append, List.length_replicate])
      rw [hend, ← hrun, ← List.append_assoc, ← encode] at hok hout
      refine ⟨by rw [hok]; omega, fun hzero => ?_⟩
      rw [hout hzero, List.append_assoc]
      rfl
    · have hrest : encode url rest = [] := by
        have := length_encode_ne_one url rest
        exact List.eq_nil_of_length_eq_zero (by omega)
      have hempty : rest = [] := by
        fun_cases encode url rest with
        | case4 => rfl
        | _ => simp [encode, sextets] at hrest
      have hencode : src = sextets url (x.toNat * 2 ^ 16 + y.toNat * 2 ^ 8 + z.toNat) ++
          List.replicate k pad := by
        rw [show src = encode url (x :: y :: z :: rest) ++ List.replicate k pad from rfl, encode,
          hrest, List.append_nil]
      obtain ⟨r, hrun⟩ := run_tail_three url x y z k s (mt hguard.mp (by omega))
      rw [← hencode] at hrun
      rw [hrest] at hsrc ⊢
      rw [hempty, show s' = _ from hrun]
      refine ⟨⟨fun _ => ?_, fun _ => herr⟩, fun _ => rfl⟩
      simp only [List.length_nil] at hsrc ⊢
      omega
  | case2 x y =>
    have hlen : (encode url [x, y]).length = 3 := rfl
    rcases Nat.lt_or_ge 5 src.length with hlt | hge
    · have herror : s'.error ≠ 0 := run_error_of_pad (hguard.mpr hlt) s (by omega)
        (pad_mem_take (by omega) (by omega))
      exact ⟨⟨fun hzero => absurd hzero herror, by omega⟩, fun hzero => absurd hzero herror⟩
    · obtain ⟨r, hrun⟩ := run_tail_two url x y k s (mt hguard.mp (by omega))
      rw [show s' = _ from hrun]
      exact ⟨⟨fun _ => by omega, fun _ => herr⟩, fun _ => rfl⟩
  | case3 x =>
    have hlen : (encode url [x]).length = 2 := rfl
    rcases Nat.lt_or_ge 5 src.length with hlt | hge
    · have herror : s'.error ≠ 0 := run_error_of_pad (hguard.mpr hlt) s (by omega)
        (pad_mem_take (by omega) (by omega))
      exact ⟨⟨fun hzero => absurd hzero herror, by omega⟩, fun hzero => absurd hzero herror⟩
    · obtain ⟨r, hrun⟩ := run_tail_one url x k s (mt hguard.mp (by omega))
      rw [show s' = _ from hrun]
      exact ⟨⟨fun _ => by omega, fun _ => herr⟩, fun _ => rfl⟩
  | case4 =>
    have hlen : (encode url []).length = 0 := rfl
    rcases Nat.lt_or_ge 5 src.length with hlt | hge
    · have herror : s'.error ≠ 0 := run_error_of_pad (hguard.mpr hlt) s (by omega)
        (pad_mem_take (by omega) (by omega))
      exact ⟨⟨fun hzero => absurd hzero herror, by omega⟩, fun hzero => absurd hzero herror⟩
    · have hrun := run_tail_zero k s (mt hguard.mp (show ¬ 5 < src.length by omega))
      have herror : s'.error = 0 := by
        rw [show s' = _ from hrun, herr]
        rfl
      refine ⟨⟨fun _ => by omega, fun _ => herror⟩, fun _ => ?_⟩
      rw [show s' = _ from hrun, List.append_nil]

/-! ### The encoder of the agent -/

theorem b64_getD : ∀ i < 64, b64.getD i 0 = alphabet false i := by
  decide +kernel

theorem b64At_eq (n shift : UInt32) (h : shift.toNat < 32) :
    b64At n shift = alphabet false (n.toNat / 2 ^ shift.toNat % 64) := by
  have hgroup : ((n >>> shift) &&& 0x3F).toNat = n.toNat / 2 ^ shift.toNat % 64 := by
    rw [UInt32.toNat_and, UInt32.toNat_shiftRight, Nat.mod_eq_of_lt h, Nat.shiftRight_eq_div_pow]
    exact Nat.and_two_pow_sub_one_eq_mod _ 6
  rw [b64At, hgroup]
  exact b64_getD _ (Nat.mod_lt _ (by decide))

theorem sextets_eq (n : UInt32) :
    sextets false n.toNat = [b64At n 18, b64At n 12, b64At n 6, b64At n 0] := by
  rw [b64At_eq n 18 (by decide), b64At_eq n 12 (by decide), b64At_eq n 6 (by decide),
    b64At_eq n 0 (by decide), sextets, show (0 : UInt32).toNat = 0 from rfl, pow_zero, Nat.div_one]
  rfl

theorem toNat_join_two (x y : UInt8) : ((x.toUInt32 <<< 16) ||| (y.toUInt32 <<< 8)).toNat =
    x.toNat * 2 ^ 16 + y.toNat * 2 ^ 8 := by
  have hx := x.toNat_lt
  have hy := y.toNat_lt
  have hhigh : (x.toUInt32 <<< 16).toNat = x.toNat <<< 16 := by
    rw [UInt32.toNat_shiftLeft, UInt8.toNat_toUInt32, Nat.shiftLeft_eq, Nat.shiftLeft_eq]
    change x.toNat * 2 ^ 16 % 2 ^ 32 = _
    omega
  have hlow : (y.toUInt32 <<< 8).toNat = y.toNat * 2 ^ 8 := by
    rw [UInt32.toNat_shiftLeft, UInt8.toNat_toUInt32, Nat.shiftLeft_eq]
    change y.toNat * 2 ^ 8 % 2 ^ 32 = _
    omega
  rw [UInt32.toNat_or, hhigh, hlow, ← Nat.shiftLeft_add_eq_or_of_lt (by omega), Nat.shiftLeft_eq]

theorem toNat_join_three (x y z : UInt8) :
    ((x.toUInt32 <<< 16) ||| (y.toUInt32 <<< 8) ||| z.toUInt32).toNat =
      x.toNat * 2 ^ 16 + y.toNat * 2 ^ 8 + z.toNat := by
  have hz := z.toNat_lt
  have hhigh : x.toNat * 2 ^ 16 + y.toNat * 2 ^ 8 = (x.toNat * 2 ^ 8 + y.toNat) <<< 8 := by
    rw [Nat.shiftLeft_eq]
    omega
  rw [UInt32.toNat_or, toNat_join_two, UInt8.toNat_toUInt32, hhigh,
    ← Nat.shiftLeft_add_eq_or_of_lt (by omega)]

theorem toNat_join_one (x : UInt8) : (x.toUInt32 <<< 16).toNat = x.toNat * 2 ^ 16 := by
  have hx := x.toNat_lt
  rw [UInt32.toNat_shiftLeft, UInt8.toNat_toUInt32, Nat.shiftLeft_eq]
  change x.toNat * 2 ^ 16 % 2 ^ 32 = _
  omega

theorem base64Encode_eq (b : List UInt8) : ∃ k, (encode false b).length % 4 + k ≤ 4 ∧
    base64Encode b = encode false b ++ List.replicate k pad := by
  induction b using encode.induct with
  | case1 x y z rest ih =>
    obtain ⟨k, hk, heq⟩ := ih
    refine ⟨k, ?_, ?_⟩
    · rw [encode, List.length_append, sextets]
      simpa only [List.length_cons, List.length_nil, Nat.add_mod_left] using hk
    · rw [base64Encode, encode, ← toNat_join_three, sextets_eq, heq]
      rfl
  | case2 x y =>
    refine ⟨1, Nat.le_refl 4, ?_⟩
    rw [base64Encode, encode, ← toNat_join_two, sextets_eq]
    rfl
  | case3 x =>
    refine ⟨2, Nat.le_refl 4, ?_⟩
    rw [base64Encode, encode, ← toNat_join_one, sextets_eq]
    rfl
  | case4 => exact ⟨0, Nat.zero_le 4, rfl⟩

/-! ### Decoding -/

/-- The UTF-8 form. -/
def utf8 (s : List Char) : List UInt8 := s.flatMap String.utf8EncodeChar

/-- The UTF-16 form. -/
def utf16 (s : List Char) : List WChar :=
  s.flatMap fun c =>
    if c.toNat < 0x10000 then [c.toNat.toUInt16]
    else
      [(0xD800 + (c.toNat - 0x10000) / 0x400).toUInt16,
        (0xDC00 + (c.toNat - 0x10000) % 0x400).toUInt16]

theorem decode_of_error (u8u16 : List UInt8 → Except UInt32 (List WChar))
    (h : (run (src.length - min 5 src.length) 0 src {}).error ≠ 0) :
    decode u8u16 src = .error invalidData :=
  if_pos h

theorem decode_encode {u8u16 : List UInt8 → Except UInt32 (List WChar)} {s : List Char}
    (hs : u8u16 (utf8 s) = .ok (utf16 s)) (url : Bool) (k : ℕ) :
    decode u8u16 (encode url (utf8 s) ++ List.replicate k pad) = .ok (utf16 s) ↔
      (encode url (utf8 s)).length % 4 + k ≤ 5 := by
  obtain ⟨hok, hout⟩ := run_encode url (utf8 s) k 0 {} rfl
  rw [← hok]
  simp only [Nat.zero_add] at hout ⊢
  rw [decode]
  constructor
  · intro hdecode
    by_contra herror
    rw [if_pos herror] at hdecode
    cases hdecode
  · intro hzero
    rw [if_neg (not_not_intro hzero), hout hzero]
    exact hs

/-- Decoding gives back what has been encoded exactly as long as no `=` is read by the batched loop;
the agent's own padding is decoded, and any other character is rejected. -/
theorem decode_encode_iff (u8u16 : List UInt8 → Except UInt32 (List WChar)) :
    (∀ s, u8u16 (utf8 s) = .ok (utf16 s) →
      (∀ url k, decode u8u16 (encode url (utf8 s) ++ List.replicate k pad) = .ok (utf16 s) ↔
        (encode url (utf8 s)).length % 4 + k ≤ 5) ∧
      decode u8u16 (base64Encode (utf8 s)) = .ok (utf16 s)) ∧
    ∀ src ch, ch ∈ src → ¬ InAlphabet ch → ch ≠ pad → decode u8u16 src = .error invalidData := by
  refine ⟨fun s hs => ⟨decode_encode hs, ?_⟩, fun src ch hch hbad hpad => ?_⟩
  · obtain ⟨k, hk, heq⟩ := base64Encode_eq (utf8 s)
    rw [heq]
    exact (decode_encode hs false k).mpr (by omega)
  · exact decode_of_error u8u16 (run_error_of_mem 0 {} hch hbad hpad)

/-- `til::u8u16` on valid UTF-8. -/
def u8u16OfValid (b : List UInt8) : Except UInt32 (List WChar) :=
  b.toByteArray.utf8Decode?.elim (.error 0x8000FFFF) fun s => .ok (utf16 s.toList)

theorem u8u16OfValid_utf8 (s : List Char) : u8u16OfValid (utf8 s) = .ok (utf16 s) := by
  change (List.utf8Encode s).utf8Decode?.elim _ _ = _
  rw [List.utf8Decode?_utf8Encode]
  rfl

/-- The euro sign is encoded as `4oKs`, and five `=` behind it are ignored; a blank is rejected. -/
theorem decode_euro :
    encode false (utf8 ['€']) = "4oKs".toList.map (fun c => c.toNat.toUInt16) ∧
      decode u8u16OfValid (encode false (utf8 ['€']) ++ List.replicate 5 pad) =
        .ok (utf16 ['€']) ∧
      decode u8u16OfValid [0x20] = .error invalidData := by
  obtain ⟨hencoded, hrejected⟩ := decode_encode_iff u8u16OfValid
  refine ⟨by decide +kernel, ?_, ?_⟩
  · exact ((hencoded ['€'] (u8u16OfValid_utf8 _)).1 false 5).mpr (by decide)
  · exact hrejected [0x20] 0x20 (by decide) (by rw [InAlphabet]; decide +kernel) (by decide)

/-- `YQ====` is rejected, although `YQ` is the encoding of `a`. -/
theorem decode_four_pads :
    u8u16OfValid (utf8 ['a']) = .ok (utf16 ['a']) ∧
      encode false (utf8 ['a']) = "YQ".toList.map (fun c => c.toNat.toUInt16) ∧
      decode u8u16OfValid (encode false (utf8 ['a']) ++ List.replicate 4 pad) =
        .error invalidData := by
  exact ⟨u8u16OfValid_utf8 _, by decide +kernel, decode_of_error _ (by decide +kernel)⟩

end Base64

end IntelligentTerminal.Vt
