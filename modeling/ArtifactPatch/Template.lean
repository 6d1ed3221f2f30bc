/-
  ArtifactPatch.Template
  ──────────────────────
  **REPLACEMENT TEMPLATES.**

  A template is written like a pattern, but any segments will do: it may be
  empty, and placeholders may touch.  Rendering puts a captured text in place
  of each placeholder.
-/
import ArtifactPatch.Pattern.Match

namespace ArtifactPatch

/-- A compiled template. -/
structure Template where
  segments : List Segment
  deriving Repr, DecidableEq

namespace Template

/-- Compile a source. -/
def compile (source : String) : Except RuleError Template :=
  (Segment.parse source).map Template.mk

/-- The source, in the notation it was read from. -/
def source (t : Template) : String :=
  String.ofList (Segment.render t.segments)

/-- The placeholder names, increasing and each once. -/
def placeholders (t : Template) : List String :=
  Segment.placeholders t.segments

/-- Fill in the captures; the first placeholder without one is an error. -/
def render (t : Template) (captures : Captures) : Except RuleError Text :=
  go t.segments
where
  go : List Segment → Except RuleError Text
    | [] => .ok []
    | .literal text :: rest => (go rest).map (text ++ ·)
    | .placeholder name :: rest =>
        match captures.lookup name with
        | none => .error (.unboundPlaceholder name)
        | some bound => (go rest).map (bound ++ ·)

end Template

end ArtifactPatch
