/-
  ArtifactPatch.Expectation
  ─────────────────────────
  **POST-CONDITIONS OF AN ARTIFACT.**

  An expectation asks for a number of hits of a marker, of a literal text, or
  of a shape, which is a pattern.  A report lists what was found for each.
-/
import ArtifactPatch.Pattern.Match
import ArtifactPatch.Store.Basic

namespace ArtifactPatch

/-! ## §1. Expectations. -/

/-- What the text of an artifact must contain. -/
inductive Expectation where
  | marker (text : Text) (min : Nat)
  | literal (text : Text)
  | shape (pattern : Pattern) (min : Nat)
  deriving Repr, DecidableEq

namespace Expectation

/-- Number of hits in a text; an empty marker or literal has none. -/
def count (content : Text) : Expectation → Nat
  | .marker text _ | .literal text => Text.occurrences text content
  | .shape pattern _ => pattern.count content

/-- Number of hits that is asked for. -/
def required : Expectation → Nat
  | .marker _ min | .shape _ min => min
  | .literal _ => 1

/-- The wording of an expectation. -/
def describe : Expectation → String
  | .marker text min => "marker " ++ Text.quote text ++ " at least " ++ toString min ++ "x"
  | .literal text => "literal " ++ Text.quote text
  | .shape pattern min =>
      "shape " ++ Text.quoteString pattern.source ++ " at least " ++ toString min ++ "x"

end Expectation

/-! ## §2. Reports. -/

/-- What was found for an expectation. -/
structure Finding where
  expectation : Expectation
  found : Nat
  deriving Repr, DecidableEq

namespace Finding

/-- Enough was found. -/
def passed (f : Finding) : Bool :=
  f.expectation.required ≤ f.found

/-- An expectation and its hits in a text. -/
def ofText (content : Text) (e : Expectation) : Finding :=
  ⟨e, e.count content⟩

end Finding

/-- The findings for an artifact. -/
structure Report where
  artifact : String
  findings : List Finding
  deriving Repr, DecidableEq

namespace Report

/-- Every expectation passed. -/
def passed (r : Report) : Bool :=
  r.findings.all Finding.passed

/-- The findings that did not pass. -/
def failures (r : Report) : List Finding :=
  r.findings.filter (!·.passed)

/-- A line for each finding. -/
def describe (r : Report) : String :=
  "\n".intercalate (r.findings.map fun f =>
    r.artifact ++ ": " ++ f.expectation.describe ++ " (found " ++ toString f.found ++ ") "
      ++ (if f.passed then "ok" else "FAILED"))

end Report

/-- Check a text against expectations. -/
def Expectation.checkAll (artifact : String) (content : Text) (es : List Expectation) : Report :=
  ⟨artifact, es.map (Finding.ofText content)⟩

/-- Read an artifact and check its text. -/
def Store.verify (s : Store) (name : String) (es : List Expectation) :
    Attempt StoreError Report := do
  let text ← s.read name
  return Expectation.checkAll name text.content es

end ArtifactPatch
