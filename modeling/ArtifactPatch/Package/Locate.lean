/-
  ArtifactPatch.Package.Locate
  ────────────────────────────
  **FINDING AN INSTALLED PACKAGE.**

  A directory that was chosen by hand is taken as it is.  Otherwise the package
  is looked for in the `node_modules` of the starting directory and of each
  directory above it, then in the extra search directories; the first place
  that holds a manifest wins.
-/
import ArtifactPatch.Package.Manifest
import ArtifactPatch.Disk.Procedure

namespace ArtifactPatch

/-! ## §1. Searches. -/

/-- Where to look for a package. -/
structure PackageSearch where
  package : String
  /-- A directory chosen by hand. -/
  chosen : Option String
  /-- The starting directory. -/
  start : Option String
  /-- Extra search directories. -/
  extra : List String
  deriving Repr, DecidableEq

/-- A package that was found. -/
structure PackageRoot where
  name : String
  directory : String
  version : Option String
  deriving Repr, DecidableEq

/-- Why a package is not found. -/
inductive PackageError where
  | notFound (package : String) (searched : List String)
  | noDirectory (path : String)
  | unreadable (path : String) (reason : OsError)
  | badManifest (path : String)
  deriving Repr, DecidableEq

namespace PackageError

/-- What lies behind an error, if anything. -/
def reason? : PackageError → Option String
  | .unreadable _ reason => some reason.message
  | .badManifest _ => some "no JSON object with a name and a version"
  | .notFound .. | .noDirectory _ => none

/-- The wording of each error. -/
def message (e : PackageError) : String :=
  (match e with
    | .notFound package searched =>
        "package '" ++ package ++ "' not found (searched " ++ toString searched.length
          ++ " location(s))"
    | .noDirectory path => "package directory " ++ path ++ " does not exist"
    | .unreadable path _ => "failed to read " ++ path ++ ": "
    | .badManifest path => "invalid package manifest " ++ path ++ ": ") ++ e.reason?.getD ""

/-- The error and what lies behind it, outermost first. -/
def chain (e : PackageError) : List String :=
  e.message :: e.reason?.toList

end PackageError

namespace PackageSearch

/-- The places to look at, in order. -/
def candidates (s : PackageSearch) : List String :=
  (s.start.toList.flatMap PathText.ancestors).map
      (fun dir => PathText.join (PathText.join dir "node_modules") s.package)
    ++ s.extra.map (PathText.join · s.package)

/-- The manifest of a directory. -/
def manifestPath (directory : String) : String :=
  PathText.join directory "package.json"

/-! ## §2. Finding. -/

/-- Whether a directory holds a manifest. -/
def hasManifest (directory : String) : Procedure Bool :=
  Disk.isFile (.ofText (manifestPath directory))

/-- The package in a directory, with the version of its manifest if there is
one. -/
def load (s : PackageSearch) (directory : String) : Attempt PackageError PackageRoot := do
  if !(← Attempt.lift (hasManifest directory)) then
    return ⟨s.package, directory, none⟩
  let path := manifestPath directory
  let source ← Attempt.mapError (.unreadable path) (Disk.readText (.ofText path))
  match Manifest.parse? source with
  | some manifest => return ⟨s.package, directory, manifest.version⟩
  | none => throw (.badManifest path)

/-- The first directory that holds a manifest. -/
def firstWithManifest : List String → Procedure (Option String)
  | [] => return none
  | directory :: rest => do
      if ← hasManifest directory then return some directory
      firstWithManifest rest

/-- Find the package. -/
def locate (s : PackageSearch) : Attempt PackageError PackageRoot := do
  match s.chosen with
  | some directory =>
      if ← Attempt.lift (Disk.isDirectory (.ofText directory)) then s.load directory
      else throw (.noDirectory directory)
  | none =>
      match ← Attempt.lift (firstWithManifest s.candidates) with
      | some directory => s.load directory
      | none => throw (.notFound s.package s.candidates)

end PackageSearch

end ArtifactPatch
