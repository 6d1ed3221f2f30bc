/-
  ArtifactPatch.Version.Basic
  ───────────────────────────
  **SEMANTIC VERSIONS.**

  A version is `MAJOR.MINOR.PATCH`, then perhaps a pre-release behind `-` and
  build metadata behind `+`.  Numbers have no leading zeros and fit into 64
  bits; a pre-release is a list of identifiers between dots.  Build metadata
  is read and forgotten, because no comparison looks at it.
-/
import ArtifactPatch.Text.Quoted
import ArtifactPatch.WaitCondition

namespace ArtifactPatch

/-! ## §1. Errors. -/

/-- The parts of a version. -/
inductive VersionPart where
  | major
  | minor
  | patch
  | preRelease
  | build
  deriving Repr, DecidableEq

/-- The name of a part. -/
def VersionPart.name : VersionPart → String
  | .major => "major version number"
  | .minor => "minor version number"
  | .patch => "patch version number"
  | .preRelease => "pre-release identifier"
  | .build => "build metadata"

/-- Why a text is no version or no requirement. -/
inductive VersionError where
  | empty
  | unexpectedEnd (part : VersionPart)
  | unexpectedChar (part : VersionPart) (c : Char)
  | unexpectedCharAfter (part : VersionPart) (c : Char)
  | expectedComma (part : VersionPart) (c : Char)
  | leadingZero (part : VersionPart)
  | overflow (part : VersionPart)
  | emptySegment (part : VersionPart)
  /-- A wildcard next to other comparators. -/
  | wildcardNotAlone (wildcard : Char)
  | unexpectedAfterWildcard
  | tooManyComparators
  deriving Repr, DecidableEq

/-- The wording of each error. -/
def VersionError.message : VersionError → String
  | .empty => "empty string, expected a semver version"
  | .unexpectedEnd part => "unexpected end of input while parsing " ++ part.name
  | .unexpectedChar part c =>
      "unexpected character " ++ Text.quoteChar c ++ " while parsing " ++ part.name
  | .unexpectedCharAfter part c =>
      "unexpected character " ++ Text.quoteChar c ++ " after " ++ part.name
  | .expectedComma part c =>
      "expected comma after " ++ part.name ++ ", found " ++ Text.quoteChar c
  | .leadingZero part => "invalid leading zero in " ++ part.name
  | .overflow part => "value of " ++ part.name ++ " exceeds u64::MAX"
  | .emptySegment part => "empty identifier segment in " ++ part.name
  | .wildcardNotAlone wildcard =>
      "wildcard req (" ++ wildcard.toString
        ++ ") must be the only comparator in the version req"
  | .unexpectedAfterWildcard => "unexpected character after wildcard in version req"
  | .tooManyComparators => "excessive number of version comparators"

/-! ## §2. Numbers and identifiers. -/

/-- A reader of the front of a text: a value and what is left. -/
abbrev VersionReader (α : Type) := Text → Except VersionError (α × Text)

namespace VersionReader

/-- A number: digits up to the first other character.  A digit behind a zero
is refused before anything else, and the value as soon as it leaves 64 bits. -/
def number (part : VersionPart) : VersionReader Nat := fun t =>
  go none t
where
  go (value : Option Nat) : Text → Except VersionError (Nat × Text)
    | [] => finish value []
    | c :: rest =>
        if c.isDigit then
          if value = some 0 then .error (.leadingZero part)
          else
            let n := 10 * value.getD 0 + (c.toNat - '0'.toNat)
            if n ≤ maxCount then go (some n) rest else .error (.overflow part)
        else finish value (c :: rest)
  finish (value : Option Nat) (rest : Text) : Except VersionError (Nat × Text) :=
    match value, rest with
    | some n, rest => .ok (n, rest)
    | none, c :: _ => .error (.unexpectedChar part c)
    | none, [] => .error (.unexpectedEnd part)

/-- The dot behind a number. -/
def dot (part : VersionPart) : VersionReader Unit
  | '.' :: rest => .ok ((), rest)
  | c :: _ => .error (.unexpectedCharAfter part c)
  | [] => .error (.unexpectedEnd part)

/-- Characters of an identifier. -/
def isIdentifierChar (c : Char) : Bool :=
  c.isAlphanum || c == '-'

/-- Identifiers between dots.  An empty one is refused, and so is a number with
a leading zero in a pre-release. -/
def identifiers (part : VersionPart) (t : Text) : Except VersionError (List Text × Text) :=
  let segment := t.takeWhile isIdentifierChar
  if segment.isEmpty then .error (.emptySegment part)
  else if part = .preRelease && segment.all Char.isDigit && segment.length > 1
      && segment.head? = some '0' then .error (.leadingZero part)
  else
    match _h : t.dropWhile isIdentifierChar with
    | '.' :: rest => (identifiers part rest).map fun (more, rest) => (segment :: more, rest)
    | rest => .ok ([segment], rest)
termination_by t.length
decreasing_by
  have := (List.dropWhile_suffix isIdentifierChar (l := t)).length_le
  simp [_h] at this; omega

/-- Identifiers behind a mark, if the mark stands there. -/
def marked (mark : Char) (part : VersionPart) (t : Text) :
    Except VersionError (Option (List Text) × Text) :=
  match t with
  | [] => .ok (none, [])
  | c :: rest =>
      if c = mark then (identifiers part rest).map fun (ids, rest) => (some ids, rest)
      else .ok (none, c :: rest)

end VersionReader

/-! ## §3. Versions. -/

/-- A version without its build metadata. -/
structure Version where
  major : Nat
  minor : Nat
  patch : Nat
  preRelease : List Text
  deriving Repr, DecidableEq

namespace Version

open VersionReader in
/-- Read a version. -/
def parse (t : Text) : Except VersionError Version := do
  if t.isEmpty then throw .empty
  let (major, t) ← number .major t
  let ((), t) ← dot .major t
  let (minor, t) ← number .minor t
  let ((), t) ← dot .minor t
  let (patch, t) ← number .patch t
  let (pre, t) ← marked '-' .preRelease t
  let (build, t) ← marked '+' .build t
  match t with
  | [] => return ⟨major, minor, patch, pre.getD []⟩
  | c :: _ =>
      let last : VersionPart :=
        if build.isSome then .build else if pre.isSome then .preRelease else .patch
      throw (.unexpectedCharAfter last c)

/-! ## §4. The order of pre-releases. -/

/-- Two identifiers: numbers by value and before words, words by character. -/
def compareIdentifier (a b : Text) : Ordering :=
  match a.all Char.isDigit, b.all Char.isDigit with
  | true, true => (compare a.length b.length).then (compareOfLessAndEq a b)
  | true, false => .lt
  | false, true => .gt
  | false, false => compareOfLessAndEq a b

/-- Two lists of identifiers, the shorter first where it begins the other. -/
def compareIdentifiers : List Text → List Text → Ordering
  | [], [] => .eq
  | [], _ :: _ => .lt
  | _ :: _, [] => .gt
  | a :: as, b :: bs => (compareIdentifier a b).then (compareIdentifiers as bs)

/-- Two pre-releases; a release comes after all of its pre-releases. -/
def comparePreRelease (a b : List Text) : Ordering :=
  match a.isEmpty, b.isEmpty with
  | true, true => .eq
  | true, false => .gt
  | false, true => .lt
  | false, false => compareIdentifiers a b

end Version

end ArtifactPatch
