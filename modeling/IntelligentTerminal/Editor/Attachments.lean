import IntelligentTerminal.Editor.Text

/-!
# Attached images

An image that is pasted into the prompt leaves a token in the text, and its attachment knows the
range of the token. `PendingAttachments` shifts these ranges when the text is edited.

The record of what has been inserted for an image is an addition of the model, and nothing reads it.

Source: `tools/wta/src/app/attachments.rs`; `tools/wta/src/clipboard_image.rs`, lines 27-35.
-/

namespace IntelligentTerminal.Editor

open Data

structure PastedImage where
  dataBase64 : List Char := []
  mimeType : List Char := []
  label : List Char := []

/-- `struct PendingImage`; `token` is the text that has been inserted for the image. -/
structure PendingImage where
  image : PastedImage
  tokenRange : Range
  token : List Char

structure PendingAttachments where
  images : List PendingImage := []
  nextImageId : ℕ := 0

/-- `str::eq_ignore_ascii_case`. -/
def eqIgnoreAsciiCase (s t : List Char) : Bool := s.map Char.toLower == t.map Char.toLower

/-- The extension in `image_display_name`. -/
def imageExtension (image : PastedImage) : List Char :=
  if image.mimeType = "image/jpeg".toList then "jpg".toList
  else if image.mimeType = "image/gif".toList then "gif".toList
  else if image.mimeType = "image/webp".toList then "webp".toList
  else if image.mimeType = "image/bmp".toList then "bmp".toList
  else "png".toList

def imageDisplayName (env : Env) (image : PastedImage) (imageId : ℕ) : List Char :=
  if env.hasExtension image.label then image.label
  else if eqIgnoreAsciiCase image.label "image".toList ||
      eqIgnoreAsciiCase image.label "screenshot".toList then
    "image-".toList ++ (toString imageId).toList ++ ['.'] ++ imageExtension image
  else image.label ++ ['.'] ++ imageExtension image

/-- `token` in `insert_image`. -/
def imageToken (env : Env) (image : PastedImage) (imageId : ℕ) : List Char :=
  "[image: ".toList ++ imageDisplayName env image imageId ++ [']']

theorem imageToken_ne (env : Env) (image : PastedImage) (imageId : ℕ) :
    imageToken env image imageId ≠ [] := by
  unfold imageToken
  exact List.append_ne_nil_of_right_ne_nil _ (List.cons_ne_nil _ _)

namespace PendingAttachments

def onTextInserted (a : PendingAttachments) (position byteLen : ℕ) : PendingAttachments :=
  { a with
    images := a.images.map fun pending =>
      if position ≤ pending.tokenRange.start then
        { pending with
          tokenRange := ⟨pending.tokenRange.start + byteLen, pending.tokenRange.stop + byteLen⟩ }
      else pending }

def onTextDeleted (a : PendingAttachments) (range : Range) : PendingAttachments :=
  let byteLen := range.stop - range.start
  let kept := a.images.filter fun pending =>
    pending.tokenRange.stop ≤ range.start || range.stop ≤ pending.tokenRange.start
  { a with
    images := kept.map fun pending =>
      if range.stop ≤ pending.tokenRange.start then
        { pending with
          tokenRange := ⟨pending.tokenRange.start - byteLen, pending.tokenRange.stop - byteLen⟩ }
      else pending }

/-- `sort_by_key` with the start of the token, which is a stable sort. -/
def sortByStart (images : List PendingImage) : List PendingImage :=
  images.mergeSort fun p q => p.tokenRange.start ≤ q.tokenRange.start

/-- `PendingAttachments::insert_image`, with the text and the cursor that it changes. -/
def insertImage (env : Env) (a : PendingAttachments) (input : List Char) (cursorPos : ℕ)
    (image : PastedImage) : Option (PendingAttachments × List Char × ℕ) := do
  let a := { a with nextImageId := a.nextImageId + 1 }
  let token := imageToken env image a.nextImageId
  let a := a.onTextInserted cursorPos (len token)
  let input ← replaceRange input ⟨cursorPos, cursorPos⟩ token
  let tokenRange : Range := ⟨cursorPos, cursorPos + len token⟩
  let pending : PendingImage := { image, tokenRange, token }
  some ({ a with images := sortByStart (a.images ++ [pending]) }, input, tokenRange.stop)

def clear (a : PendingAttachments) : PendingAttachments := { a with images := [] }

def submissionText (a : PendingAttachments) (input : List Char) : Option (List Char) :=
  a.images.reverse.foldlM (fun input pending => replaceRange input pending.tokenRange []) input

/-- `PendingAttachments::take_images`: what it returns and what it leaves. -/
def takeImages (a : PendingAttachments) : List PastedImage × PendingAttachments :=
  (a.images.map (·.image), { a with images := [] })

end PendingAttachments

end IntelligentTerminal.Editor
