import IntelligentTerminal.Data.SplitOn

/-!
# Characters and lines in UTF-8 bytes

A text is a list of characters and its bytes are their encodings behind each other. The first byte
of a character is the only one that is not a continuation byte, and an ASCII byte stands for its own
character only. So a text can be split at a newline, and cut between two characters, on its bytes.
-/

namespace IntelligentTerminal

/-- The bytes of a text. -/
def utf8Bytes (text : List Char) : List UInt8 := text.flatMap String.utf8EncodeChar

/-- Whether a byte continues a character. -/
def isContinuation (b : UInt8) : Bool := b &&& 0xC0 == 0x80

section Bytes

theorem isContinuation_or (x : UInt8) : isContinuation (x &&& 0x3f ||| 0x80) = true := by
  obtain ⟨x⟩ := x
  revert x
  decide

theorem isContinuation_eq_false {b : UInt8} (h : b < 0x80 ∨ 0xC0 ≤ b) :
    isContinuation b = false := by
  obtain ⟨b⟩ := b
  revert b
  decide

theorem le_of_isContinuation {b : UInt8} (h : isContinuation b = true) : ¬ b < 0x80 := by
  obtain ⟨b⟩ := b
  revert b
  decide

private theorem le_or (x y : UInt8) : 0xC0 ≤ (x &&& y ||| 0xc0) ∧ 0xC0 ≤ (x &&& y ||| 0xe0) ∧
    0xC0 ≤ (x &&& y ||| 0xf0) := by
  generalize x &&& y = z
  obtain ⟨z⟩ := z
  revert z
  decide

end Bytes

theorem exists_utf8EncodeChar (c : Char) : ∃ lead tail, String.utf8EncodeChar c = lead :: tail ∧
    isContinuation lead = false ∧ (∀ b ∈ tail, isContinuation b = true) ∧
    (lead < 0x80 → tail = [] ∧ lead.toNat = c.toNat) := by
  have hlead {b : UInt8} (hb : 0xC0 ≤ b) : ¬ b < 0x80 := by
    simp only [UInt8.lt_iff_toNat_lt, UInt8.le_iff_toNat_le] at hb ⊢
    simp only [UInt8.reduceToNat] at hb ⊢
    omega
  have hle := fun x y => le_or x y
  obtain hc | hc | hc | hc := c.utf8Size_eq
  · have hval : c.val ≤ 0x7f := Char.utf8Size_eq_one_iff.mp hc
    have hsmall : c.val.toUInt8.toNat = c.toNat := by
      have := UInt32.le_iff_toNat_le.mp hval
      simp only [UInt32.reduceToNat] at this
      rw [UInt32.toNat_toUInt8, Nat.mod_eq_of_lt (by omega)]
      rfl
    refine ⟨_, _, String.utf8EncodeChar_eq_singleton hc, isContinuation_eq_false (.inl ?_), by simp,
      fun _ => ⟨rfl, hsmall⟩⟩
    have := UInt32.le_iff_toNat_le.mp hval
    simp only [UInt32.reduceToNat] at this
    rw [UInt8.lt_iff_toNat_lt, hsmall]
    simp only [UInt8.reduceToNat]
    exact Nat.lt_of_le_of_lt this (by decide)
  · refine ⟨_, _, String.utf8EncodeChar_eq_cons_cons hc, isContinuation_eq_false (.inr (hle _ _).1),
      by simp [isContinuation_or], fun h => absurd h (hlead (hle _ _).1)⟩
  · refine ⟨_, _, String.utf8EncodeChar_eq_cons_cons_cons hc,
      isContinuation_eq_false (.inr (hle _ _).2.1), by simp [isContinuation_or],
      fun h => absurd h (hlead (hle _ _).2.1)⟩
  · refine ⟨_, _, String.utf8EncodeChar_eq_cons_cons_cons_cons hc,
      isContinuation_eq_false (.inr (hle _ _).2.2), by simp [isContinuation_or],
      fun h => absurd h (hlead (hle _ _).2.2)⟩

theorem utf8EncodeChar_of_ascii_mem {b : UInt8} {c : Char} (hb : b < 0x80)
    (hmem : b ∈ String.utf8EncodeChar c) : String.utf8EncodeChar c = [b] ∧ b.toNat = c.toNat := by
  obtain ⟨lead, tail, henc, -, htail, hascii⟩ := exists_utf8EncodeChar c
  obtain rfl | hin := List.mem_cons.mp (henc ▸ hmem)
  · obtain ⟨rfl, hnat⟩ := hascii hb
    exact ⟨henc, hnat⟩
  · exact absurd hb (le_of_isContinuation (htail b hin))

section Text

@[simp] theorem utf8Bytes_nil : utf8Bytes [] = [] := rfl

@[simp] theorem utf8Bytes_cons (c : Char) (text : List Char) :
    utf8Bytes (c :: text) = String.utf8EncodeChar c ++ utf8Bytes text := rfl

@[simp] theorem utf8Bytes_append (a b : List Char) :
    utf8Bytes (a ++ b) = utf8Bytes a ++ utf8Bytes b := List.flatMap_append

@[simp] theorem utf8Bytes_eq_nil {text : List Char} : utf8Bytes text = [] ↔ text = [] := by
  cases text with
  | nil => simp
  | cons c text =>
    obtain ⟨lead, tail, henc, -⟩ := exists_utf8EncodeChar c
    simp [henc]

theorem length_le_length_utf8Bytes (text : List Char) : text.length ≤ (utf8Bytes text).length := by
  induction text with
  | nil => exact Nat.le_refl 0
  | cons c text ih =>
    obtain ⟨lead, tail, henc, -⟩ := exists_utf8EncodeChar c
    simp only [utf8Bytes_cons, henc, List.length_append, List.length_cons]
    omega

theorem takeWhile_isContinuation_utf8Bytes (text : List Char) :
    (utf8Bytes text).takeWhile isContinuation = [] := by
  cases text with
  | nil => rfl
  | cons c text =>
    obtain ⟨lead, tail, henc, hlead, -⟩ := exists_utf8EncodeChar c
    simp [henc, hlead]

theorem getLast?_utf8Bytes_concat {b : UInt8} (hb : b < 0x80) (text : List Char) (c : Char) :
    (utf8Bytes (text ++ [c])).getLast? = some b ↔ String.utf8EncodeChar c = [b] := by
  obtain ⟨lead, tail, henc, -⟩ := exists_utf8EncodeChar c
  have hne : String.utf8EncodeChar c ≠ [] := by simp [henc]
  rw [utf8Bytes_append, utf8Bytes_cons, utf8Bytes_nil, List.append_nil,
    List.getLast?_append_of_ne_nil _ hne]
  constructor
  · exact fun hlast => (utf8EncodeChar_of_ascii_mem hb (List.mem_of_getLast? hlast)).1
  · intro hall
    rw [hall, List.getLast?_singleton]

theorem utf8EncodeChar_eq_ascii_iff {b : UInt8} (hb : b < 0x80) {c a : Char}
    (ha : String.utf8EncodeChar a = [b]) : String.utf8EncodeChar c = [b] ↔ c = a := by
  have hnat {d : Char} (hd : String.utf8EncodeChar d = [b]) : b.toNat = d.toNat :=
    (utf8EncodeChar_of_ascii_mem hb (by rw [hd]; exact List.mem_singleton_self b)).2
  constructor
  · exact fun hc => Char.toNat_inj.mp ((hnat hc).symm.trans (hnat ha))
  · rintro rfl
    exact ha

theorem utf8EncodeChar_newline : String.utf8EncodeChar '\n' = [0x0A] := by decide

theorem utf8EncodeChar_return : String.utf8EncodeChar '\r' = [0x0D] := by decide

theorem newline_mem_utf8EncodeChar {c : Char} : 0x0A ∈ String.utf8EncodeChar c ↔ c = '\n' := by
  rw [← utf8EncodeChar_eq_ascii_iff (by decide) utf8EncodeChar_newline]
  constructor
  · exact fun hmem => (utf8EncodeChar_of_ascii_mem (by decide) hmem).1
  · intro hall
    rw [hall]
    exact List.mem_singleton_self _

theorem count_newline_utf8Bytes (text : List Char) :
    (utf8Bytes text).count 0x0A = text.count '\n' := by
  induction text with
  | nil => rfl
  | cons c text ih =>
    rw [utf8Bytes_cons, List.count_append, ih, List.count_cons, Nat.add_comm]
    congr 1
    by_cases hc : c = '\n'
    · subst hc
      rfl
    · rw [if_neg (by simpa using hc), List.count_eq_zero, newline_mem_utf8EncodeChar]
      exact hc

end Text

/-! ### Lines -/

section Lines

variable {α : Type*}

/-- A list without one `a` at its end. -/
def dropTrailing [DecidableEq α] (a : α) (l : List α) : List α :=
  if l.getLast? = some a then l.dropLast else l

/-- The lines behind each other, with a separator in front of each but the first. -/
def joinLines (sep : α) : List (List α) → List α
  | [] => []
  | line :: lines => line ++ lines.flatMap (sep :: ·)

theorem joinLines_append (sep : α) {a b : List (List α)} (ha : a ≠ []) (hb : b ≠ []) :
    joinLines sep (a ++ b) = joinLines sep a ++ sep :: joinLines sep b := by
  obtain ⟨first, a, rfl⟩ := List.exists_cons_of_ne_nil ha
  obtain ⟨second, b, rfl⟩ := List.exists_cons_of_ne_nil hb
  simp [joinLines]

theorem joinLines_eq_intercalate (sep : α) (lines : List (List α)) :
    joinLines sep lines = [sep].intercalate lines := by
  induction lines with
  | nil => rfl
  | cons line lines ih =>
    cases lines with
    | nil => simp [joinLines]
    | cons next lines =>
      rw [List.intercalate_cons_cons, ← ih]
      simp [joinLines]

theorem count_joinLines [DecidableEq α] {sep : α} {lines : List (List α)}
    (h : ∀ line ∈ lines, sep ∉ line) : (joinLines sep lines).count sep = lines.length - 1 := by
  cases lines with
  | nil => rfl
  | cons line lines =>
    have hsplit := List.splitOn_intercalate sep h (List.cons_ne_nil line lines)
    have hlength := length_splitOn sep ([sep].intercalate (line :: lines))
    rw [hsplit] at hlength
    rw [joinLines_eq_intercalate, hlength]
    omega

theorem not_mem_of_mem_splitOn [DecidableEq α] {a : α} {l piece : List α}
    (h : piece ∈ l.splitOn a) : a ∉ piece := by
  induction l generalizing piece with
  | nil =>
    obtain rfl : piece = [] := by simpa using h
    simp
  | cons b l ih =>
    rw [List.splitOn_cons_eq_if_modifyHead] at h
    obtain ⟨first, rest, hsplit⟩ := List.exists_cons_of_ne_nil (List.splitOn_ne_nil a l)
    split_ifs at h with hb
    · obtain rfl | hin := List.mem_cons.mp h
      · simp
      · exact ih hin
    · rw [hsplit, List.modifyHead_cons] at h
      obtain rfl | hin := List.mem_cons.mp h
      · have hfirst : a ∉ first := ih (hsplit ▸ List.mem_cons_self)
        simpa [hfirst] using fun hab => hb (by simp [hab])
      · exact ih (hsplit ▸ List.mem_cons_of_mem _ hin)

theorem dropTrailing_subset [DecidableEq α] (a : α) (l : List α) : dropTrailing a l ⊆ l := by
  rw [dropTrailing]
  split_ifs
  · exact List.dropLast_subset l
  · exact List.Subset.refl l

end Lines

theorem utf8Bytes_joinLines (lines : List (List Char)) :
    utf8Bytes (joinLines '\n' lines) = joinLines 0x0A (lines.map utf8Bytes) := by
  cases lines with
  | nil => rfl
  | cons line lines =>
    have hrest : utf8Bytes (lines.flatMap ('\n' :: ·)) =
        (lines.map utf8Bytes).flatMap (0x0A :: ·) := by
      induction lines with
      | nil => rfl
      | cons next lines ih =>
        simp [ih, utf8EncodeChar_newline]
    simp [joinLines, hrest]

theorem dropTrailing_utf8Bytes (line : List Char) :
    dropTrailing 0x0D (utf8Bytes line) = utf8Bytes (dropTrailing '\r' line) := by
  obtain rfl | ⟨line, c, rfl⟩ := line.eq_nil_or_concat
  · rfl
  simp only [List.concat_eq_append, dropTrailing, getLast?_utf8Bytes_concat (b := 0x0D) (by decide),
    utf8EncodeChar_eq_ascii_iff (by decide) utf8EncodeChar_return, List.getLast?_concat,
    Option.some.injEq]
  split_ifs with hc
  · rw [hc, utf8Bytes_append, utf8Bytes_cons, utf8EncodeChar_return, utf8Bytes_nil,
      List.append_nil, List.dropLast_concat, List.dropLast_concat]
  · rfl

end IntelligentTerminal
