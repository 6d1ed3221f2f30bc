/-
  ArtifactPatch.Pattern.Match
  ───────────────────────────
  **MATCHES OF A PATTERN IN A TEXT.**

  At each position there is at most one match: literals stand as they are, a
  placeholder takes one whole identifier token, and a placeholder that comes
  back takes the same token again.  A match neither begins nor ends inside an
  identifier.  `Pattern.matches` scans from the left and goes on behind each
  match, so the matches it lists do not overlap.
-/
import ArtifactPatch.Pattern.Basic

namespace ArtifactPatch

/-! ## §1. Captures and matches. -/

/-- The token bound to each placeholder, in the order of first use. -/
abbrev Captures := List (String × Text)

/-- A stretch `[start, stop)` of a text, in bytes, that a pattern matches. -/
structure Match where
  start : Nat
  stop : Nat
  text : Text
  captures : Captures
  deriving Repr, DecidableEq

namespace Pattern

/-! ## §2. Reading segments off a text. -/

/-- The identifier token at the front of a text, and what follows it. -/
def token? : Text → Option (Text × Text)
  | [] => none
  | c :: cs =>
      if isIdentStart c then
        some (c :: cs.takeWhile isIdentChar, cs.dropWhile isIdentChar)
      else none

/-- Read segments off the front of a text; answers the captures and what is
left of the text. -/
def readSegments : List Segment → Captures → Text → Option (Captures × Text)
  | [], captures, t => some (captures, t)
  | .literal lit :: segments, captures, t =>
      (Text.after? lit t).bind (readSegments segments captures)
  | .placeholder name :: segments, captures, t =>
      (token? t).bind fun (tok, rest) =>
        match captures.lookup name with
        | some bound =>
            if bound = tok then readSegments segments captures rest else none
        | none => readSegments segments (captures ++ [(name, tok)]) rest

/-- The match at the front of `t`, given the character before it: its captures
and its number of characters. -/
def matchFront? (p : Pattern) (before : Option Char) (t : Text) :
    Option (Captures × Nat) :=
  if p.beginsWithIdent && before.any isIdentChar then none
  else match readSegments p.segments [] t with
    | none => none
    | some (captures, rest) =>
        if p.endsWithIdentLiteral && beginsWithIdentChar rest then none
        else some (captures, t.length - rest.length)

/-! ## §3. The scan. -/

/-- Matches from the left.  `before` is the character in front of the text,
`offset` the byte position of the text, and `skip` the number of its
characters that still belong to the last match. -/
def scan (p : Pattern) : (before : Option Char) → (offset skip : Nat) → Text → List Match
  | _, _, _, [] => []
  | _, offset, skip + 1, c :: cs => p.scan (some c) (offset + c.utf8Size) skip cs
  | before, offset, 0, c :: cs =>
      match p.matchFront? before (c :: cs) with
      | none => p.scan (some c) (offset + c.utf8Size) 0 cs
      | some (captures, length) =>
          let text := (c :: cs).take length
          ⟨offset, offset + Text.byteLen text, text, captures⟩
            :: p.scan (some c) (offset + c.utf8Size) (length - 1) cs

/-- All matches in a text: leftmost first, none overlapping. -/
def «matches» (p : Pattern) (content : Text) : List Match :=
  p.scan none 0 0 content

/-- Number of matches. -/
def count (p : Pattern) (content : Text) : Nat :=
  (p.matches content).length

end Pattern

end ArtifactPatch
