/-
  ArtifactPatch.Pattern.Segment
  ─────────────────────────────
  **THE NOTATION OF PATTERNS AND TEMPLATES.**

  A pattern source is a run of literal text and placeholders.  `$NAME`, with
  an upper-case letter followed by upper-case letters, digits or underscores
  (the longest such name), is a placeholder; `$$` is a literal dollar sign;
  any other dollar sign is refused at its byte position.  `render` writes
  segments back in the same notation.
-/
import ArtifactPatch.Text.Quoted
import ArtifactPatch.Text.Basic

namespace ArtifactPatch

/-! ## §1. Errors of rules. -/

/-- Why a pattern, a template or a rule is refused, or a match cannot be replaced. -/
inductive RuleError where
  | emptyPattern
  /-- A dollar sign that starts neither `$$` nor `$NAME`. -/
  | invalidPlaceholder (position : Nat) (source : String)
  | adjacentPlaceholders (first second : String)
  /-- A placeholder next to literal text that would continue its token. -/
  | ambiguousBoundary (name neighbor : String)
  /-- Template and pattern use different placeholders. -/
  | placeholderMismatch (rule : String) (missing extra : List String)
  | noOp (rule : String)
  | unboundPlaceholder (name : String)
  deriving Repr, DecidableEq

/-- The wording of each refusal. -/
def RuleError.message : RuleError → String
  | .emptyPattern => "pattern is empty"
  | .invalidPlaceholder position source =>
      "invalid placeholder at byte " ++ toString position ++ " of `" ++ source
        ++ "`: expected `$$` or `$NAME` with an uppercase name"
  | .adjacentPlaceholders first second =>
      "placeholders $" ++ first ++ " and $" ++ second
        ++ " are adjacent; their token boundary is ambiguous"
  | .ambiguousBoundary name neighbor =>
      "placeholder $" ++ name ++ " touches identifier text `" ++ neighbor
        ++ "`; its token boundary is ambiguous"
  | .placeholderMismatch rule missing extra =>
      "rule '" ++ rule
        ++ "' rewrite template must bind the pattern's placeholders exactly (missing: "
        ++ Text.quoteList missing ++ ", extra: " ++ Text.quoteList extra ++ ")"
  | .noOp rule =>
      "rule '" ++ rule ++ "' rewrite template is identical to its pattern"
  | .unboundPlaceholder name => "placeholder $" ++ name ++ " not bound in match"

/-! ## §2. Segments. -/

/-- A stretch of a pattern or template. -/
inductive Segment where
  | literal (text : Text)
  | placeholder (name : String)
  deriving Repr, DecidableEq

namespace Segment

/-- First character of a placeholder name. -/
def isNameStart (c : Char) : Bool :=
  'A' ≤ c && c ≤ 'Z'

/-- Character of a placeholder name. -/
def isNameChar (c : Char) : Bool :=
  ('A' ≤ c && c ≤ 'Z') || ('0' ≤ c && c ≤ '9') || c == '_'

/-- Put a literal character in front of segments, joining it to a literal that
already stands there. -/
def consChar (c : Char) : List Segment → List Segment
  | .literal text :: rest => .literal (c :: text) :: rest
  | segments => .literal [c] :: segments

/-- Read a source that begins at a byte position into segments, or give the
byte position of the first dollar sign that starts no form. -/
def parse? (position : Nat) (source : Text) : Except Nat (List Segment) :=
  match source with
  | [] => .ok []
  | c :: rest =>
      if c ≠ '$' then (parse? (position + c.utf8Size) rest).map (consChar c)
      else match rest with
        | [] => .error position
        | d :: rest =>
            if d = '$' then (parse? (position + 2) rest).map (consChar '$')
            else if isNameStart d then
              let name := d :: rest.takeWhile isNameChar
              (parse? (position + 1 + name.length) (rest.dropWhile isNameChar)).map
                (.placeholder (String.ofList name) :: ·)
            else .error position
termination_by source.length
decreasing_by
  · simp only [List.length_cons]; omega
  · simp only [List.length_cons]; omega
  · have := (List.dropWhile_suffix isNameChar (l := rest)).length_le
    simp only [List.length_cons]; omega

/-- One segment in the notation of sources. -/
def renderOne : Segment → Text
  | .literal text => text.flatMap fun c => if c = '$' then ['$', '$'] else [c]
  | .placeholder name => '$' :: name.toList

/-- Segments in the notation of sources. -/
def render (segments : List Segment) : Text :=
  segments.flatMap renderOne

/-- Read a source, naming it in the refusal. -/
def parse (source : String) : Except RuleError (List Segment) :=
  (parse? 0 source.toList).mapError (RuleError.invalidPlaceholder · source)

/-! ## §3. Placeholder names. -/

/-- Insert a name into an increasing list without repetitions. -/
def insertName (name : String) : List String → List String
  | [] => [name]
  | m :: rest =>
      if name = m then m :: rest
      else if name < m then name :: m :: rest
      else m :: insertName name rest

/-- The placeholder names of some segments, increasing and each once. -/
def placeholders : List Segment → List String
  | [] => []
  | .literal _ :: rest => placeholders rest
  | .placeholder name :: rest => insertName name (placeholders rest)

end Segment

end ArtifactPatch
