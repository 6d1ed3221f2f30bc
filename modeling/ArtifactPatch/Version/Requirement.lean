/-
  ArtifactPatch.Version.Requirement
  ─────────────────────────────────
  **VERSION REQUIREMENTS.**

  A requirement is a list of comparators between commas, all of which must
  hold; a wildcard alone admits every release.  A comparator without an
  operator means `^`, or any version under it where it ends in a wildcard.  A
  pre-release is admitted only where some comparator names a pre-release of
  the same three numbers.
-/
import ArtifactPatch.Version.Basic

namespace ArtifactPatch

/-! ## §1. Comparators. -/

/-- The operators of comparators. -/
inductive VersionOp where
  | exact
  | greater
  | greaterEq
  | less
  | lessEq
  | tilde
  | caret
  /-- Any version under the numbers that are given. -/
  | wildcard
  deriving Repr, DecidableEq

/-- A comparator; numbers that are not given are open. -/
structure Comparator where
  op : VersionOp
  major : Nat
  minor : Option Nat
  patch : Option Nat
  preRelease : List Text
  deriving Repr, DecidableEq

/-- A list of comparators. -/
structure Requirement where
  comparators : List Comparator
  deriving Repr, DecidableEq

namespace Requirement

/-! ## §2. Reading. -/

/-- Only the space itself may stand around comparators. -/
def skipSpaces (t : Text) : Text :=
  t.dropWhile (· == ' ')

/-- A wildcard at the front of a text. -/
def wildcard? : Text → Option (Char × Text)
  | c :: rest => if c = '*' ∨ c = 'x' ∨ c = 'X' then some (c, rest) else none
  | [] => none

/-- The operator at the front of a text, if any. -/
def readOperator : Text → Option VersionOp × Text
  | '=' :: rest => (some .exact, rest)
  | '>' :: '=' :: rest => (some .greaterEq, rest)
  | '>' :: rest => (some .greater, rest)
  | '<' :: '=' :: rest => (some .lessEq, rest)
  | '<' :: rest => (some .less, rest)
  | '~' :: rest => (some .tilde, rest)
  | '^' :: rest => (some .caret, rest)
  | t => (none, t)

/-- A further number of a comparator. -/
inductive Component where
  /-- Nothing follows. -/
  | absent
  | wildcard
  | number (n : Nat)
  deriving Repr, DecidableEq

/-- The number of a component, if it is one. -/
def Component.number? : Component → Option Nat
  | .number n => some n
  | _ => none

/-- A dot and what stands behind it; `closed` says that a wildcard came before,
behind which only a wildcard may follow. -/
def readComponent (part : VersionPart) (closed : Bool) (t : Text) :
    Except VersionError (Component × Text) :=
  match t with
  | '.' :: rest =>
      match wildcard? rest with
      | some (_, rest) => .ok (.wildcard, rest)
      | none =>
          if closed then .error .unexpectedAfterWildcard
          else (VersionReader.number part rest).map fun (n, rest) => (.number n, rest)
  | _ => .ok (.absent, t)

/-- A comparator, the last part of it that was read, and what is left. -/
def readComparator (t : Text) : Except VersionError (Comparator × VersionPart × Text) := do
  let (op, t) := readOperator t
  let (major, t) ← VersionReader.number .major (skipSpaces t)
  let (minor, t) ← readComponent .minor false t
  let (patch, t) ← readComponent .patch (minor = .wildcard) t
  let complete := patch.number?.isSome
  let (pre, t) ← if complete then VersionReader.marked '-' .preRelease t else pure (none, t)
  let (build, t) ← if complete then VersionReader.marked '+' .build t else pure (none, t)
  let open_ := minor = .wildcard || patch = .wildcard
  let last : VersionPart :=
    if build.isSome then .build
    else if pre.isSome then .preRelease
    else if patch ≠ .absent then .patch
    else if minor ≠ .absent then .minor
    else .major
  return (⟨op.getD (if open_ then .wildcard else .caret), major, minor.number?,
    patch.number?, pre.getD []⟩, last, skipSpaces t)

/-- Most comparators of a requirement. -/
def maxComparators : Nat := 32

/-- Comparators between commas, at most `room` of them. -/
def readComparators (t : Text) : (room : Nat) → Except VersionError (List Comparator)
  | 0 => .error .tooManyComparators
  | room + 1 =>
      match readComparator t with
      | .error e =>
          match wildcard? t with
          | some (c, rest) =>
              match skipSpaces rest with
              | [] | ',' :: _ => .error (.wildcardNotAlone c)
              | _ => .error e
          | none => .error e
      | .ok (first, _, []) => .ok [first]
      | .ok (first, _, ',' :: rest) =>
          (readComparators (skipSpaces rest) room).map (first :: ·)
      | .ok (_, last, c :: _) => .error (.expectedComma last c)

/-- Read a requirement. -/
def parse (t : Text) : Except VersionError Requirement :=
  let t := skipSpaces t
  match wildcard? t with
  | some (c, rest) =>
      match skipSpaces rest with
      | [] => .ok ⟨[]⟩
      | ',' :: _ => .error (.wildcardNotAlone c)
      | _ => .error .unexpectedAfterWildcard
  | none => (readComparators t maxComparators).map Requirement.mk

end Requirement

/-! ## §3. Matching. -/

namespace Comparator

/-- An open number agrees with every number. -/
def agrees (given : Option Nat) (n : Nat) : Bool :=
  given.all (· == n)

/-- The numbers that are given are those of the version, and the pre-release is
the same. -/
def isExactly (c : Comparator) (v : Version) : Bool :=
  c.major == v.major && agrees c.minor v.minor && agrees c.patch v.patch
    && v.preRelease == c.preRelease

/-- The version lies on one side of the comparator: the first number that
differs decides, and where an open number comes first it does not. -/
def isBeyond (side : Ordering) (c : Comparator) (v : Version) : Bool :=
  if v.major ≠ c.major then compare v.major c.major = side
  else match c.minor with
    | none => false
    | some minor =>
        if v.minor ≠ minor then compare v.minor minor = side
        else match c.patch with
          | none => false
          | some patch =>
              if v.patch ≠ patch then compare v.patch patch = side
              else Version.comparePreRelease v.preRelease c.preRelease = side

/-- The pre-release is not before that of the comparator. -/
def notBefore (c : Comparator) (v : Version) : Bool :=
  Version.comparePreRelease v.preRelease c.preRelease ≠ .lt

/-- Up to the next minor version, or the next major one where no minor is given. -/
def matchesTilde (c : Comparator) (v : Version) : Bool :=
  c.major == v.major && agrees c.minor v.minor
    && match c.patch with
      | some patch => if v.patch ≠ patch then v.patch > patch else c.notBefore v
      | none => c.notBefore v

/-- Up to the next change of the first number that is not zero. -/
def matchesCaret (c : Comparator) (v : Version) : Bool :=
  c.major == v.major
    && match c.minor, c.patch with
      | none, _ => true
      | some minor, none => if c.major > 0 then v.minor ≥ minor else v.minor == minor
      | some minor, some patch =>
          if c.major > 0 then
            if v.minor ≠ minor then v.minor > minor
            else if v.patch ≠ patch then v.patch > patch
            else c.notBefore v
          else if minor > 0 then
            if v.minor ≠ minor then false
            else if v.patch ≠ patch then v.patch > patch
            else c.notBefore v
          else v.minor == minor && v.patch == patch && c.notBefore v

/-- Whether a version satisfies a comparator. -/
def admits (c : Comparator) (v : Version) : Bool :=
  match c.op with
  | .exact | .wildcard => c.isExactly v
  | .greater => c.isBeyond .gt v
  | .greaterEq => c.isExactly v || c.isBeyond .gt v
  | .less => c.isBeyond .lt v
  | .lessEq => c.isExactly v || c.isBeyond .lt v
  | .tilde => c.matchesTilde v
  | .caret => c.matchesCaret v

/-- The comparator names a pre-release of the same three numbers. -/
def namesPreReleaseOf (c : Comparator) (v : Version) : Bool :=
  c.major == v.major && c.minor == some v.minor && c.patch == some v.patch
    && !c.preRelease.isEmpty

end Comparator

/-- Whether a version satisfies a requirement. -/
def Requirement.admits (r : Requirement) (v : Version) : Bool :=
  r.comparators.all (·.admits v)
    && (v.preRelease.isEmpty || r.comparators.any (·.namesPreReleaseOf v))

end ArtifactPatch
