/-
  ArtifactPatch.Edit
  ──────────────────
  **EDITS: THE SPLICE.**

  An edit replaces the bytes `[start, stop)` of a text and says what it
  expects to find there.  A batch is checked against the text as it stands,
  each edit on its own and then every pair of neighbours for overlap; only
  then is anything spliced, from the last edit to the first, so that no splice
  moves the bytes of a later one.
-/
import ArtifactPatch.Text.Basic
import ArtifactPatch.Text.Quoted
import ArtifactPatch.Hash.Xxh3

namespace ArtifactPatch

/-! ## §1. Expected text. -/

/-- What an edit expects to replace. -/
inductive Expected where
  | exact (text : Text)
  | hash (value : UInt64)
  deriving Repr, DecidableEq

namespace Expected

/-- Longest text, in bytes, that is kept as it is; longer ones are hashed. -/
def exactLimit : Nat := 1024

/-- Expect this text. -/
def ofText (t : Text) : Expected :=
  if Text.byteLen t > exactLimit then .hash (Hash.xxh3 (Text.encode t)) else .exact t

/-- Whether a text is as expected. -/
def admits : Expected → Text → Bool
  | .exact expected, t => t = expected
  | .hash value, t => Hash.xxh3 (Text.encode t) = value

end Expected

/-! ## §2. Edits. -/

/-- Replace the bytes `[start, stop)`. -/
structure Edit where
  start : Nat
  stop : Nat
  new : Text
  expected : Expected
  deriving Repr, DecidableEq

/-- Why a batch of edits is refused. -/
inductive EditError where
  | unexpectedText (start stop : Nat) (found : Text)
  | invalidRange (start stop length : Nat)
  | overlap (firstStart firstStop secondStart secondStop : Nat)
  deriving Repr, DecidableEq

/-- The wording of each refusal. -/
def EditError.message : EditError → String
  | .unexpectedText start _ found =>
      "before-text verification failed at byte " ++ toString start ++ ": found "
        ++ Text.quote found
  | .invalidRange start stop length =>
      "invalid byte range [" ++ toString start ++ ", " ++ toString stop
        ++ ") in text of length " ++ toString length
  | .overlap firstStart firstStop secondStart secondStop =>
      "edits overlap: [" ++ toString firstStart ++ ", " ++ toString firstStop
        ++ ") and [" ++ toString secondStart ++ ", " ++ toString secondStop ++ ")"

namespace Edit

/-- The range must be cut out of the text, and hold what is expected. -/
def check (content : Text) (e : Edit) : Except EditError Unit :=
  match Text.slice? e.start e.stop content with
  | none => .error (.invalidRange e.start e.stop (Text.byteLen content))
  | some found =>
      if e.expected.admits found then .ok ()
      else .error (.unexpectedText e.start e.stop found)

/-- Put the new text in place of the range; a range that is no cut of the text
changes nothing. -/
def splice (content : Text) (e : Edit) : Text :=
  match Text.cutAt e.start content with
  | none => content
  | some (head, rest) =>
      match Text.cutAt (e.stop - e.start) rest with
      | none => content
      | some (_, tail) => head ++ e.new ++ tail

/-! ## §3. Batches. -/

/-- Last start first; edits that start together keep their order. -/
def lastFirst (edits : List Edit) : List Edit :=
  edits.mergeSort fun a b => b.start ≤ a.start

/-- The first overlap between neighbours of a list that is ordered last start
first. -/
def overlap? : List Edit → Option EditError
  | later :: earlier :: rest =>
      if earlier.stop > later.start then
        some (.overlap earlier.start earlier.stop later.start later.stop)
      else overlap? (earlier :: rest)
  | _ => none

/-- Check a whole batch, then splice it. -/
def applyAll (content : Text) (edits : List Edit) : Except EditError Text := do
  let ordered := lastFirst edits
  ordered.forM (check content)
  match overlap? ordered with
  | some e => throw e
  | none => return ordered.foldl splice content

/-- A batch of one. -/
def applyOne (content : Text) (e : Edit) : Except EditError Text :=
  applyAll content [e]

end Edit

end ArtifactPatch
