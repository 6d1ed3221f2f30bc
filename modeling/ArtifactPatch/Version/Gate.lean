/-
  ArtifactPatch.Version.Gate
  ──────────────────────────
  **THE VERSION GATE.**

  A profile may require a range of package versions.  Without a requirement
  every package passes; with one, a package that declares no version does not.
-/
import ArtifactPatch.Version.Requirement
import ArtifactPatch.Text.Blank

namespace ArtifactPatch

/-! ## §1. Verdicts. -/

/-- The verdict on a package. -/
inductive VersionGate where
  | unconstrained
  | satisfied (version requirement : String)
  | unknown (requirement : String)
  | rejected (version requirement : String)
  deriving Repr, DecidableEq

namespace VersionGate

/-- The package may be patched. -/
def allows : VersionGate → Bool
  | .unconstrained | .satisfied .. => true
  | .unknown _ | .rejected .. => false

/-- The wording of each verdict. -/
def describe : VersionGate → String
  | .unconstrained => "no version constraint"
  | .satisfied version requirement => "version " ++ version ++ " satisfies " ++ requirement
  | .unknown requirement =>
      "package declares no version; profile requires " ++ requirement
  | .rejected version requirement =>
      "version " ++ version ++ " does not satisfy " ++ requirement

end VersionGate

/-- Why there is no verdict. -/
inductive GateError where
  | invalidVersion (value : String) (reason : VersionError)
  | invalidRequirement (value : String) (reason : VersionError)
  deriving Repr, DecidableEq

/-- The wording of each error. -/
def GateError.message : GateError → String
  | .invalidVersion value reason =>
      "invalid version '" ++ value ++ "': " ++ reason.message
  | .invalidRequirement value reason =>
      "invalid version requirement '" ++ value ++ "': " ++ reason.message

/-! ## §2. The check. -/

/-- Compare a declared version with a requirement.  A blank requirement counts
as none; the requirement is read before the version. -/
def VersionGate.check (version requirement : Option String) : Except GateError VersionGate :=
  match requirement.map Text.trimString with
  | none | some "" => .ok .unconstrained
  | some required => do
      let r ← (Requirement.parse required.toList).mapError (.invalidRequirement required)
      match version with
      | none => return .unknown required
      | some declared =>
          let v ← (Version.parse (Text.trim declared.toList)).mapError
            (.invalidVersion declared)
          if r.admits v then return .satisfied declared required
          else return .rejected declared required

end ArtifactPatch
