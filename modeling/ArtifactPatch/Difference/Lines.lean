/-
  ArtifactPatch.Difference.Lines
  ──────────────────────────────
  **LINES OF A TEXT.**

  A line ends with a newline, a carriage return, or both together, and keeps
  its end.  Only the last line of a text may have none.
-/
import ArtifactPatch.Text.Basic

namespace ArtifactPatch.Text

/-- The lines of a text with their ends. -/
def lines (t : Text) : List Text :=
  go [] t
where
  /-- `line` is what the current line has so far, in reverse. -/
  go (line : Text) : Text → List Text
    | [] => if line.isEmpty then [] else [line.reverse]
    | '\r' :: '\n' :: rest => ('\n' :: '\r' :: line).reverse :: go [] rest
    | c :: rest =>
        if c = '\r' || c = '\n' then (c :: line).reverse :: go [] rest
        else go (c :: line) rest

/-- Whether a text ends as a line does. -/
def endsLine (t : Text) : Bool :=
  t.getLast?.any fun c => c = '\r' || c = '\n'

end ArtifactPatch.Text
