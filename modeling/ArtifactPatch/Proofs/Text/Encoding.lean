/-
  ArtifactPatch.Proofs.Text.Encoding
  ──────────────────────────────────
  **UTF-8 AND BACK.**

  Decoding is the inverse of encoding on the bytes that are UTF-8, and defined
  on no others.
-/
import ArtifactPatch.Text.Basic

namespace ArtifactPatch.Text

/-- What was encoded is decoded. -/
theorem decode?_encode (t : Text) : decode? (encode t) = some t := by
  have hvalid : (encode t).IsValidUTF8 := (String.ofList t).isValidUTF8
  unfold decode? String.fromUTF8?
  rw [dif_pos hvalid]
  show some (String.ofList t).toList = some t
  rw [String.toList_ofList]

/-- Bytes that can be decoded are the encoding of their text. -/
theorem encode_of_decode? {bytes : ByteArray} {t : Text} (h : decode? bytes = some t) :
    encode t = bytes := by
  unfold decode? String.fromUTF8? at h
  split at h
  next hvalid =>
    obtain rfl := Option.some.inj h
    unfold encode
    rw [String.ofList_toList]
    rfl
  next => cases h

end ArtifactPatch.Text
