/-
  ArtifactPatch.Store.Guard
  ─────────────────────────
  **KEEPING PATHS INSIDE THE PACKAGE.**

  Artifact paths come from profiles.  A path such as `../../etc/hosts`, or a
  link that leads out of the package, must never become the target of a write,
  so every path is resolved free of links and then has to lie at or below the
  root, name by name.
-/
import ArtifactPatch.Disk.Procedure

namespace ArtifactPatch

/-! ## §1. Refusals. -/

/-- Why a path is refused. -/
inductive GuardError where
  | outsideRoot (location root : Location)
  | unresolved (e : OsError)
  deriving Repr, DecidableEq

/-- The wording of each refusal. -/
def GuardError.message : GuardError → String
  | .outsideRoot location root =>
      "path is outside package root: " ++ location.text ++ " (root: " ++ root.text ++ ")"
  | .unresolved e => "failed to canonicalize path: " ++ e.message

/-- The refusal and what lies behind it, outermost first. -/
def GuardError.chain (e : GuardError) : List String :=
  match e with
  | .outsideRoot .. => [e.message]
  | .unresolved os => [e.message, os.message]

/-! ## §2. The guard. -/

/-- A package root, free of links. -/
structure Guard where
  root : Location
  deriving Repr, DecidableEq

namespace Guard

/-- Resolve the root. -/
def create (path : String) : Attempt GuardError Guard := do
  return ⟨← Attempt.call (.canonicalize (.ofText path)) .unresolved⟩

/-- A location must lie within the root. -/
def checkLocation (g : Guard) (l : Location) : Except GuardError Location :=
  if Location.isWithin g.root l then .ok l else .error (.outsideRoot l g.root)

/-- Resolve a route, which must exist, and check where it leads. -/
def checkRoute (g : Guard) (r : Route) : Attempt GuardError Location := do
  let l ← Attempt.call (.canonicalize r) .unresolved
  Attempt.ofExcept (g.checkLocation l)

/-- Check a path; a relative one starts at the root. -/
def checkPath (g : Guard) (path : String) : Attempt GuardError Location :=
  g.checkRoute (.ofText (PathText.join g.root.text path))

/-- Check a location once more, right before it is written. -/
def recheck (g : Guard) (l : Location) : Attempt GuardError Location :=
  g.checkRoute (.ofLocation l)

end Guard

end ArtifactPatch
