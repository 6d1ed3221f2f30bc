/-
  ArtifactPatch.Pattern.Basic
  ───────────────────────────
  **PATTERNS.**

  A pattern is a non-empty list of segments in which every placeholder has
  clear token boundaries: no two placeholders touch, and no placeholder
  touches literal text that could continue its identifier token.  Identifier
  tokens are those of JavaScript restricted to ASCII: a letter, `_` or `$`,
  then letters, digits, `_` and `$`.
-/
import ArtifactPatch.Pattern.Segment

namespace ArtifactPatch

/-! ## §1. Identifier characters. -/

/-- First character of an identifier token. -/
def isIdentStart (c : Char) : Bool :=
  ('a' ≤ c && c ≤ 'z') || ('A' ≤ c && c ≤ 'Z') || c == '_' || c == '$'

/-- Character of an identifier token. -/
def isIdentChar (c : Char) : Bool :=
  isIdentStart c || ('0' ≤ c && c ≤ '9')

/-- Whether a text begins with an identifier character. -/
def beginsWithIdentChar (t : Text) : Bool :=
  t.head?.any isIdentChar

/-- Whether a text ends with an identifier character. -/
def endsWithIdentChar (t : Text) : Bool :=
  t.getLast?.any isIdentChar

/-! ## §2. Boundaries. -/

/-- The first pair of neighbours whose boundary is unclear. -/
def Segment.boundaryError? : List Segment → Option RuleError
  | .placeholder first :: .placeholder second :: _ =>
      some (.adjacentPlaceholders first second)
  | .placeholder name :: .literal lit :: rest =>
      if beginsWithIdentChar lit then
        some (.ambiguousBoundary name (String.ofList lit))
      else boundaryError? (.literal lit :: rest)
  | .literal lit :: .placeholder name :: rest =>
      if endsWithIdentChar lit then
        some (.ambiguousBoundary name (String.ofList lit))
      else boundaryError? (.placeholder name :: rest)
  | _ :: rest => boundaryError? rest
  | [] => none

/-! ## §3. Patterns. -/

/-- A compiled pattern. -/
structure Pattern where
  segments : List Segment
  segments_ne_nil : segments ≠ []
  boundaries_clear : Segment.boundaryError? segments = none
  deriving Repr, DecidableEq

namespace Pattern

/-- A pattern from segments, unless they are empty or a boundary is unclear. -/
def ofSegments (segments : List Segment) : Except RuleError Pattern :=
  if hne : segments = [] then .error .emptyPattern
  else match hb : Segment.boundaryError? segments with
    | some e => .error e
    | none => .ok ⟨segments, hne, hb⟩

/-- Compile a source. -/
def compile (source : String) : Except RuleError Pattern :=
  (Segment.parse source).bind ofSegments

/-- The source, in the notation it was read from. -/
def source (p : Pattern) : String :=
  String.ofList (Segment.render p.segments)

/-- The placeholder names, increasing and each once. -/
def placeholders (p : Pattern) : List String :=
  Segment.placeholders p.segments

/-- A pattern without placeholders. -/
def isLiteral (p : Pattern) : Bool :=
  p.placeholders.isEmpty

/-- Whether every match begins with an identifier character. -/
def beginsWithIdent (p : Pattern) : Bool :=
  match p.segments.head? with
  | some (.literal lit) => beginsWithIdentChar lit
  | some (.placeholder _) => true
  | none => false

/-- Whether the pattern ends in literal text that ends with an identifier
character. -/
def endsWithIdentLiteral (p : Pattern) : Bool :=
  match p.segments.getLast? with
  | some (.literal lit) => endsWithIdentChar lit
  | _ => false

end Pattern

end ArtifactPatch
