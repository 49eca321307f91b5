import IntelligentTerminal.Editor.Attachments

/-!
# The draft as a document

A token is one piece of the draft, as a character is. A document is a list of pieces; its text, and
the ranges of its tokens, follow from it. What `PendingAttachments` computes with ranges of bytes at
an insertion is then what happens to the pieces: something comes between two of them.
-/

namespace IntelligentTerminal.Editor

open Data

/-- A token that `insert_image` makes. -/
structure Token (env : Env) where
  image : PastedImage
  text : List Char
  shape : ∃ imageId, text = imageToken env image imageId

/-- A piece of a draft. -/
inductive Piece (env : Env)
  | char (ch : Char)
  | token (t : Token env)

/-- A draft, piece by piece. -/
abbrev Document (env : Env) := List (Piece env)

section Pieces

variable {env : Env}

theorem Token.text_ne (t : Token env) : t.text ≠ [] :=
  t.shape.elim fun imageId htext => htext ▸ imageToken_ne env t.image imageId

theorem Token.len_pos (t : Token env) : 0 < len t.text :=
  Nat.pos_of_ne_zero (mt (width_eq_zero Char.utf8Size_pos).mp t.text_ne)

def Piece.text : Piece env → List Char
  | .char ch => [ch]
  | .token t => t.text

/-- The bytes of a piece. -/
def Piece.size (p : Piece env) : ℕ := len p.text

namespace Document

def text (d : Document env) : List Char := d.flatMap Piece.text

/-- The bytes of a document. -/
def size (d : Document env) : ℕ := width Piece.size d

/-- A document without tokens. -/
def ofText (s : List Char) : Document env := s.map .char

/-- The images of a document that begins at the position `start`. -/
def images (start : ℕ) : Document env → List PendingImage
  | [] => []
  | .char ch :: d => images (start + ch.utf8Size) d
  | .token t :: d =>
    ⟨t.image, ⟨start, start + len t.text⟩, t.text⟩ :: images (start + len t.text) d

/-- The text of a document without its tokens. -/
def plain : Document env → List Char
  | [] => []
  | .char ch :: d => ch :: plain d
  | .token _ :: d => plain d

variable (a b d m : Document env) {start : ℕ}

@[simp] theorem text_nil : text ([] : Document env) = [] := rfl

@[simp] theorem text_append : text (a ++ b) = text a ++ text b := List.flatMap_append

@[simp] theorem text_cons (p : Piece env) : text (p :: d) = p.text ++ text d := List.flatMap_cons

@[simp] theorem size_nil : size ([] : Document env) = 0 := rfl

@[simp] theorem size_append : size (a ++ b) = size a + size b := width_append _ _ _

@[simp] theorem size_cons (p : Piece env) : size (p :: d) = p.size + size d := width_cons _ _ _

@[simp] theorem len_text : len d.text = size d := width_flatMap _ _ _

@[simp] theorem text_ofText (s : List Char) : text (ofText s : Document env) = s := by
  induction s with
  | nil => rfl
  | cons ch s ih => exact congrArg (ch :: ·) ih

@[simp] theorem size_ofText (s : List Char) : size (ofText s : Document env) = len s := by
  rw [← len_text, text_ofText]

theorem plain_append : plain (a ++ b) = plain a ++ plain b := by
  induction a with
  | nil => rfl
  | cons p a ih =>
    cases p with
    | char ch => exact congrArg (ch :: ·) ih
    | token t => exact ih

theorem images_append (start : ℕ) :
    images start (a ++ b) = images start a ++ images (start + size a) b := by
  induction a generalizing start with
  | nil => rfl
  | cons p a ih =>
    cases p with
    | char ch =>
      rw [List.cons_append, images, images, ih, size_cons, ← Nat.add_assoc]
      rfl
    | token t =>
      rw [List.cons_append, images, images, ih, List.cons_append, size_cons, ← Nat.add_assoc]
      rfl

@[simp] theorem images_ofText (start : ℕ) (s : List Char) :
    images start (ofText s : Document env) = [] := by
  induction s generalizing start with
  | nil => rfl
  | cons ch s ih => exact ih _

theorem mem_images {p : PendingImage} (h : p ∈ images start d) :
    start ≤ p.tokenRange.start ∧ p.tokenRange.start < p.tokenRange.stop ∧
      p.tokenRange.stop ≤ start + size d := by
  induction d generalizing start with
  | nil => exact absurd h List.not_mem_nil
  | cons q d ih =>
    cases q with
    | char ch =>
      have := ih h
      have hsize : (Piece.char ch : Piece env).size = ch.utf8Size := rfl
      rw [size_cons, hsize]
      omega
    | token t =>
      have hsize : (Piece.token t).size = len t.text := rfl
      rw [size_cons, hsize]
      have hpos := t.len_pos
      obtain rfl | h := List.mem_cons.mp h
      · dsimp only
        omega
      · have := ih h
        omega

/-- A range that is shifted. -/
def shift (byteLen : ℕ) (p : PendingImage) : PendingImage :=
  { p with tokenRange := ⟨p.tokenRange.start + byteLen, p.tokenRange.stop + byteLen⟩ }

theorem images_shift (start byteLen : ℕ) :
    images (start + byteLen) d = (images start d).map (shift byteLen) := by
  induction d generalizing start with
  | nil => rfl
  | cons q d ih =>
    cases q with
    | char ch =>
      rw [images, images, ← ih, Nat.add_right_comm]
    | token t =>
      rw [images, images, List.map_cons, ← ih, Nat.add_right_comm]
      rfl

theorem images_start_inj {p q : PendingImage} (hp : p ∈ images start d)
    (hq : q ∈ images start d) (h : p.tokenRange.start = q.tokenRange.start) : p = q := by
  induction d generalizing start with
  | nil => exact absurd hp List.not_mem_nil
  | cons piece d ih =>
    cases piece with
    | char ch => exact ih hp hq
    | token t =>
      have hpos := t.len_pos
      obtain rfl | hp := List.mem_cons.mp hp <;> obtain rfl | hq := List.mem_cons.mp hq
      · rfl
      · have := mem_images d hq
        dsimp only at h
        omega
      · have := mem_images d hp
        dsimp only at h
        omega
      · exact ih hp hq

theorem images_pairwise (start : ℕ) :
    (images start d).Pairwise fun p q => p.tokenRange.stop ≤ q.tokenRange.start := by
  induction d generalizing start with
  | nil => exact .nil
  | cons q d ih =>
    cases q with
    | char ch => exact ih _
    | token t => exact .cons (fun p hp => (mem_images d hp).1) (ih _)

end Document

open Document

variable {a b d m : Document env} {p : PendingImage}

/-! ### Insertions -/

theorem onTextInserted_images (a b : Document env) (nextImageId byteLen : ℕ) :
    (PendingAttachments.mk (images 0 (a ++ b)) nextImageId).onTextInserted (size a) byteLen =
      ⟨images 0 a ++ images (size a + byteLen) b, nextImageId⟩ := by
  rw [PendingAttachments.onTextInserted, images_append, Nat.zero_add]
  dsimp only
  rw [List.map_append, images_shift]
  congr 2
  · refine (List.map_congr_left fun p hp => ?_).trans (List.map_id _)
    have := mem_images a hp
    exact if_neg (by omega)
  · refine List.map_congr_left fun p hp => ?_
    exact if_pos (mem_images b hp).1

theorem sortByStart_images {images' : List PendingImage} (h : images'.Perm (images 0 d)) :
    PendingAttachments.sortByStart images' = images 0 d := by
  let le (p q : PendingImage) : Bool := decide (p.tokenRange.start ≤ q.tokenRange.start)
  have hsorted : (PendingAttachments.sortByStart images').Pairwise fun p q => le p q = true :=
    List.pairwise_mergeSort (fun p q r hpq hqr => by simp_all only [le, decide_eq_true_eq]; omega)
      (fun p q => by simp only [le, Bool.or_eq_true, decide_eq_true_eq]; omega) images'
  have hperm : (PendingAttachments.sortByStart images').Perm (images 0 d) :=
    (List.mergeSort_perm images' le).trans h
  have hstrict := images_pairwise d 0
  have himages : (images 0 d).Pairwise fun p q => le p q = true := by
    refine hstrict.imp_of_mem fun {p q} hp hq hpq => ?_
    have := mem_images d hp
    exact decide_eq_true (by omega)
  refine List.Perm.eq_of_pairwise (fun p q hp hq hpq hqp => ?_) hsorted himages hperm
  simp only [le, decide_eq_true_eq] at hpq hqp
  exact images_start_inj d (hperm.subset hp) hq (by omega)

/-! ### Images -/

theorem insertImage_images (a b : Document env) (nextImageId : ℕ) (image : PastedImage) :
    ∃ t : Token env, t.image = image ∧
      (PendingAttachments.mk (images 0 (a ++ b)) nextImageId).insertImage env (text (a ++ b))
        (size a) image = some (⟨images 0 (a ++ [.token t] ++ b), nextImageId + 1⟩,
          text (a ++ [.token t] ++ b), size (a ++ [.token t])) := by
  let t : Token env := ⟨image, imageToken env image (nextImageId + 1), _, rfl⟩
  refine ⟨t, rfl, ?_⟩
  have hinserted : replaceRange (text (a ++ b)) ⟨size a, size a⟩ t.text =
      some (text (a ++ [.token t] ++ b)) := by
    rw [text_append, ← len_text a, replaceRange_insert]
    simp [Piece.text]
  have hsize : size (a ++ [.token t]) = size a + len t.text := by
    rw [size_append, size_cons, size_nil, Nat.add_zero]
    rfl
  have hsorted : PendingAttachments.sortByStart
      (images 0 a ++ images (size a + len t.text) b ++
        [⟨image, ⟨size a, size a + len t.text⟩, t.text⟩]) =
      images 0 (a ++ [.token t] ++ b) := by
    refine sortByStart_images ?_
    rw [images_append, images_append, Nat.zero_add, Nat.zero_add, hsize, List.append_assoc,
      List.append_assoc]
    exact List.perm_append_comm.append_left _
  rw [PendingAttachments.insertImage, onTextInserted_images]
  dsimp only
  rw [show imageToken env image (nextImageId + 1) = t.text from rfl, hinserted, hsorted, hsize]
  rfl

theorem exists_token_of_mem_images {start : ℕ} (h : p ∈ images start d) :
    ∃ a t b, d = a ++ .token t :: b ∧
      p = ⟨t.image, ⟨start + size a, start + size a + len t.text⟩, t.text⟩ := by
  induction d generalizing start with
  | nil => exact absurd h List.not_mem_nil
  | cons q d ih =>
    cases q with
    | char ch =>
      obtain ⟨a, t, b, rfl, rfl⟩ := ih h
      refine ⟨.char ch :: a, t, b, rfl, ?_⟩
      rw [size_cons, ← Nat.add_assoc]
      rfl
    | token t =>
      obtain rfl | h := List.mem_cons.mp h
      · exact ⟨[], t, d, rfl, rfl⟩
      · obtain ⟨a, t', b, rfl, rfl⟩ := ih h
        refine ⟨.token t :: a, t', b, rfl, ?_⟩
        rw [size_cons, ← Nat.add_assoc]
        rfl

theorem get_images (h : p ∈ images 0 d) :
    get d.text p.tokenRange = some p.token ∧
      ∃ imageId, p.token = imageToken env p.image imageId := by
  obtain ⟨a, t, b, rfl, rfl⟩ := exists_token_of_mem_images h
  refine ⟨?_, t.shape⟩
  have hstop : size a + len t.text = len (text a ++ t.text) := by
    rw [← len_text a, len, len, len, width_append]
  rw [text_append, text_cons, Nat.zero_add, hstop, ← len_text a, ← List.append_assoc]
  exact get_append _ _ _

theorem submissionText_images (d : Document env) (nextImageId : ℕ) :
    (PendingAttachments.mk (images 0 d) nextImageId).submissionText d.text = some d.plain := by
  have hfold (tail : List Char) : (images 0 d).reverse.foldlM
      (fun input pending => replaceRange input pending.tokenRange []) (text d ++ tail) =
        some (plain d ++ tail) := by
    -- The last token is removed first, and what is behind it is not touched any more.
    induction d using List.reverseRecOn generalizing tail with
    | nil => rfl
    | append_singleton d p ih =>
      cases p with
      | char ch =>
        have htext : text (d ++ [.char ch]) ++ tail = text d ++ (ch :: tail) := by simp [Piece.text]
        rw [images_append, images, images, List.append_nil, htext, ih, plain_append,
          List.append_assoc]
        rfl
      | token t =>
        have htext : text (d ++ [.token t]) ++ tail = text d ++ t.text ++ tail := by
          simp [Piece.text]
        have hstop : size d + len t.text = len (text d ++ t.text) := by
          rw [← len_text d, len, len, len, width_append]
        have hremoved : replaceRange (text (d ++ [.token t]) ++ tail)
            ⟨size d, size d + len t.text⟩ [] = some (text d ++ tail) := by
          rw [htext, hstop, ← len_text d, replaceRange_append, List.append_nil]
        rw [images_append, images, images, Nat.zero_add, List.reverse_append,
          List.reverse_singleton, List.singleton_append, List.foldlM_cons, hremoved, plain_append,
          plain, plain, List.append_nil]
        exact ih tail
  have h := hfold []
  rwa [List.append_nil, List.append_nil] at h

end Pieces

end IntelligentTerminal.Editor
