/-
  ArtifactPatch.LineEnding
  ────────────────────────
  **LINE ENDINGS OF AN ARTIFACT.**

  Only a text in which every newline follows a carriage return, and which has
  at least one newline, counts as CRLF.  It is matched with plain newlines and
  written back with its own; all other texts are matched and written as they
  were read, so bytes outside a replaced site never change.
-/
import ArtifactPatch.Text.Basic

namespace ArtifactPatch

/-! ## §1. Conventions. -/

/-- How the lines of a text end. -/
inductive LineEnding where
  | lf
  | crlf
  /-- Newlines with and without a carriage return. -/
  | mixed
  deriving Repr, DecidableEq

namespace LineEnding

/-- Newlines that follow a carriage return. -/
def pairCount (t : Text) : Nat :=
  Text.occurrences ['\r', '\n'] t

/-- The convention of a text. -/
def detect (t : Text) : LineEnding :=
  let pairs := pairCount t
  if pairs = 0 then .lf
  else if pairs = t.count '\n' then .crlf
  else .mixed

/-- The convention of some bytes.  Line breaks are single bytes in UTF-8 and in
nothing else, so the bytes are looked at one by one. -/
def detectBytes (bytes : ByteArray) : LineEnding :=
  detect (bytes.data.toList.map fun b => Char.ofNat b.toNat)

/-- A text as the matcher sees it. -/
def normalize (e : LineEnding) (t : Text) : Text :=
  match e with
  | .crlf => Text.replaceAll ['\r', '\n'] ['\n'] t
  | .lf | .mixed => t

/-- A text of the matcher as it stands on disk. -/
def apply (e : LineEnding) (t : Text) : Text :=
  match e with
  | .crlf => Text.replaceAll ['\n'] ['\r', '\n'] t
  | .lf | .mixed => t

/-- The name of a convention. -/
def name : LineEnding → String
  | .lf => "LF"
  | .crlf => "CRLF"
  | .mixed => "mixed"

end LineEnding

/-! ## §2. Artifact texts. -/

/-- A text for the matcher and the convention to write it with. -/
structure ArtifactText where
  content : Text
  lineEnding : LineEnding
  deriving Repr, DecidableEq

namespace ArtifactText

/-- Take a text as it stands on disk. -/
def ofRaw (raw : Text) : ArtifactText :=
  let e := LineEnding.detect raw
  ⟨e.normalize raw, e⟩

/-- The text as it stands on disk. -/
def toRaw (t : ArtifactText) : Text :=
  t.lineEnding.apply t.content

/-- Other content in the same convention. -/
def withContent (t : ArtifactText) (content : Text) : ArtifactText :=
  { t with content := content }

end ArtifactText

end ArtifactPatch
