/-
  ArtifactPatch.Command.Script
  ────────────────────────────
  **WHAT COMMANDS SAY, AND HOW THEY END.**

  A script talks on two channels while it works on the disk.  It ends with an
  exit code or with an error; the error is reported, with a hint where there
  is one, and decides the exit code.
-/
import ArtifactPatch.Command.Style
import ArtifactPatch.Package.Locate
import ArtifactPatch.Patch.Apply
import ArtifactPatch.Patch.Restore
import ArtifactPatch.Profile.Load
import ArtifactPatch.Version.Gate

namespace ArtifactPatch

/-! ## §1. Errors. -/

/-- Why a command gives up. -/
inductive CommandError where
  | profile (e : ProfileError)
  | package (e : PackageError)
  | store (e : StoreError)
  | patch (e : PatchError)
  | rule (e : RuleError)
  | gate (e : GateError)
  /-- The package may not be patched. -/
  | gateClosed (g : VersionGate)
  | disk (e : OsError)
  deriving Repr, DecidableEq

namespace CommandError

/-- The error and what lies behind it, outermost first. -/
def chain : CommandError → List String
  | .profile e => e.chain
  | .package e => e.chain
  | .store e => e.chain
  | .patch e => e.chain
  | .rule e => [e.message]
  | .gate e => [e.message]
  | .gateClosed g => [g.describe ++ "; pass --ignore-version to patch anyway"]
  | .disk e => [e.message]

/-- The outermost wording. -/
def message (e : CommandError) : String :=
  e.chain.head?.getD ""

/-- The kind of an error. -/
def kind : CommandError → FailureKind
  | .patch e => e.kind
  | .store e => .ofStore e
  | .package (.notFound ..) | .package (.noDirectory _) => .notFound
  | _ => .other

/-- What to do about an error of some kind. -/
def hintFor? : FailureKind → Option String
  | .notFound => some
      "Pass --package-dir or set SDK_PATCHER_PACKAGE_DIR to point at the installed package"
  | .patternMismatch => some ("Nothing was written. The SDK build may have changed, "
      ++ "or the artifact is already patched")
  | .ambiguousMatch => some
      "Nothing was written. The pattern matched more sites than the profile allows"
  | .noBackup => some "Nothing to restore from"
  | .verificationFailed => some "Run `sdk-patcher restore` to return to the original artifacts"
  | .other => none

/-- What to do about an error. -/
def hint? : CommandError → Option String
  | .patch (.notPatched ..) => some "Run `sdk-patcher apply` to patch the artifacts"
  | e => hintFor? e.kind

/-- The report of an error. -/
def report (e : CommandError) : List Span :=
  [.strong .red ("✗ " ++ e.kind.label ++ ":"), .plain (" " ++ ": ".intercalate e.chain ++ "\n")]
    ++ match e.hint? with
      | some hint => [.plain "  ", .dimmed hint, .plain "\n"]
      | none => []

end CommandError

/-! ## §2. Scripts. -/

/-- What was said on the two channels. -/
structure Transcript where
  out : List Span
  err : List Span
  deriving Repr, DecidableEq

/-- How a command ended. -/
structure CommandOutcome where
  code : Nat
  transcript : Transcript
  deriving Repr, DecidableEq

/-- A command at work. -/
abbrev Script (α : Type) := ExceptT CommandError (StateT Transcript Procedure) α

namespace Script

/-- Say something. -/
def print (spans : List Span) : Script Unit :=
  modify fun t => { t with out := t.out ++ spans }

/-- Say a line. -/
def say (spans : List Span) : Script Unit :=
  print (spans ++ [.plain "\n"])

/-- Say a plain line. -/
def sayText (text : String) : Script Unit :=
  say [.plain text]

/-- Complain in a line. -/
def complain (spans : List Span) : Script Unit :=
  modify fun t => { t with err := t.err ++ spans ++ [.plain "\n"] }

/-- An attempt whose failure is that of the command. -/
def attempt {ε α : Type} (asError : ε → CommandError) (a : Attempt ε α) : Script α :=
  ExceptT.mk (do return (← StateT.lift a.run).mapError asError)

/-- The result of an attempt, failed or not. -/
def outcomeOf {ε α : Type} (a : Attempt ε α) : Script (Except ε α) :=
  ExceptT.mk (do return .ok (← StateT.lift a.run))

/-- A procedure that does not fail. -/
def lift {α : Type} (p : Procedure α) : Script α :=
  ExceptT.mk (do return .ok (← StateT.lift p))

/-- A computed value, or an error. -/
def ofExcept {ε α : Type} (asError : ε → CommandError) (r : Except ε α) : Script α :=
  ExceptT.mk (pure (r.mapError asError))

/-- Carry a script out to its end. -/
def finish (s : Script Nat) : Procedure CommandOutcome := do
  match ← s.run.run ⟨[], []⟩ with
  | (.ok code, t) => return ⟨code, t⟩
  | (.error e, t) => return ⟨e.kind.exitCode, { t with err := t.err ++ e.report }⟩

end Script

end ArtifactPatch
