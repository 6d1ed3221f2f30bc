/-
  ArtifactPatch.Patch.Outcome
  ───────────────────────────
  **WHAT BECOMES OF A PATCH.**

  Every rule of a patch leaves an outcome: how often it matched, how that
  compares with its bounds, and what it replaces.  Failures are sorted into a
  few kinds, each with a label and an exit code.
-/
import ArtifactPatch.Rule
import ArtifactPatch.Expectation

namespace ArtifactPatch

/-! ## §1. Outcomes of rules. -/

/-- What a rule did to the text it saw. -/
structure RuleOutcome where
  rule : String
  occurrences : Nat
  status : RuleStatus
  replacements : List Replacement
  deriving Repr, DecidableEq

namespace RuleOutcome

/-- The number of matches was within the bounds. -/
def isOk (o : RuleOutcome) : Bool :=
  o.status.isOk

/-- The outcome of a rule that fell short, in words. -/
def describeFailure (o : RuleOutcome) : String :=
  "rule '" ++ o.rule ++ "' matched " ++ toString o.occurrences ++ " time(s), "
    ++ o.status.describe

end RuleOutcome

/-! ## §2. Kinds of failure. -/

/-- The kinds of failure that a user can tell apart. -/
inductive FailureKind where
  | notFound
  | patternMismatch
  | ambiguousMatch
  | noBackup
  | verificationFailed
  | other
  deriving Repr, DecidableEq

namespace FailureKind

/-- The exit code of a failure. -/
def exitCode : FailureKind → Nat
  | .other => 1
  | .notFound => 2
  | .patternMismatch | .ambiguousMatch => 3
  | .noBackup => 4
  | .verificationFailed => 5

/-- The label of a failure. -/
def label : FailureKind → String
  | .notFound => "not found"
  | .patternMismatch => "pattern mismatch"
  | .ambiguousMatch => "ambiguous match"
  | .noBackup => "no backup"
  | .verificationFailed => "verification failed"
  | .other => "error"

/-- The kind of a failure of the store. -/
def ofStore : StoreError → FailureKind
  | .notFound .. => .notFound
  | .noBackup .. => .noBackup
  | _ => .other

end FailureKind

/-! ## §3. Errors of patches. -/

/-- Why a patch or its restoration fails. -/
inductive PatchError where
  | store (e : StoreError)
  | rule (e : RuleError)
  | edit (e : EditError)
  | mismatch (artifact : String) (failures : List RuleOutcome)
  | verificationFailed (artifact : String) (report : Report)
  | notPatched (artifact : String) (report : Report)
  deriving Repr, DecidableEq

namespace PatchError

/-- The wording of each failure. -/
def message : PatchError → String
  | .store e => e.message
  | .rule e => e.message
  | .edit e => "splice failed: " ++ e.message
  | .mismatch artifact failures =>
      "pattern mismatch in '" ++ artifact ++ "': "
        ++ "; ".intercalate (failures.map RuleOutcome.describeFailure)
  | .verificationFailed artifact _ =>
      "verification failed for '" ++ artifact
        ++ "': artifact is in an inconsistent state and needs a manual restore"
  | .notPatched artifact _ =>
      "verification failed for '" ++ artifact
        ++ "': artifact is not patched and has no backup"

/-- The failure and what lies behind it, outermost first. -/
def chain (e : PatchError) : List String :=
  match e with
  | .store e => e.chain
  | .edit inner => [e.message, inner.message]
  | _ => [e.message]

/-- The kind of a failure.  A mismatch is ambiguous when every failing rule
matched too often. -/
def kind : PatchError → FailureKind
  | .store e => .ofStore e
  | .mismatch _ failures =>
      if !failures.isEmpty && failures.all (·.status.isAboveMaximum) then .ambiguousMatch
      else .patternMismatch
  | .verificationFailed .. | .notPatched .. => .verificationFailed
  | .rule _ | .edit _ => .other

end PatchError

end ArtifactPatch
