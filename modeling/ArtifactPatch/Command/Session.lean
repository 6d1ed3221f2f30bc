/-
  ArtifactPatch.Command.Session
  ─────────────────────────────
  **A SESSION WITH A PACKAGE.**

  The commands that touch artifacts first load the profile, find the package
  and open its store.  Verification reads every artifact that has expectations
  and fails with the first report that does not pass.
-/
import ArtifactPatch.Command.Args
import ArtifactPatch.Command.Script

namespace ArtifactPatch

/-! ## §1. Surroundings. -/

/-- What a command learns from the environment. -/
structure Surroundings where
  /-- The value of SDK_PATCHER_PACKAGE_DIR. -/
  packageDir : Option String
  /-- The value of NODE_PATH. -/
  nodePath : Option String
  /-- The working directory, as a path. -/
  workingDirectory : Option String
  deriving Repr, DecidableEq

namespace Surroundings

/-- The search for a package: a directory among the options goes before one in
the environment, which does not count when it is empty. -/
def search (s : Surroundings) (package : String) (chosen : Option String) : PackageSearch where
  package := package
  chosen := chosen.or (s.packageDir.filter (!·.isEmpty))
  start := s.workingDirectory
  extra := s.nodePath.toList.flatMap fun path =>
    (Text.splitOn ':' path.toList).map String.ofList

end Surroundings

/-! ## §2. Sessions. -/

/-- A profile, the package it is about, and the package's store. -/
structure Session where
  profile : Profile
  package : PackageRoot
  store : Store

/-- The sign of something that is well, or not. -/
def checkMark (good : Bool) : Span :=
  if good then .coloured .green "✓" else .coloured .red "✗"

namespace Session

open Script

/-- Start a session. -/
def start (s : Surroundings) (o : SharedOptions) : Script Session := do
  let profile ← attempt .profile (Profile.load o.profile)
  let package ← attempt .package (s.search profile.package o.packageDir).locate
  let store ← attempt .store (Store.create package.directory profile.artifacts)
  return ⟨profile, package, store⟩

/-- Say what the session is about. -/
def sayHeader (s : Session) : Script Unit := do
  sayText ("Package: " ++ s.package.directory)
  sayText ("Version: " ++ s.package.version.getD "unknown")
  sayText ("Profile: " ++ s.profile.name)
  sayText ""

/-- The verdict on the package's version. -/
def gate (s : Session) : Except GateError VersionGate :=
  VersionGate.check s.package.version s.profile.versionRange

/-- The artifacts that have rules, with their rules. -/
def ruleSets (s : Session) : Except RuleError (List (String × List Rule)) := do
  let sets ← s.profile.artifacts.mapM fun a => do
    return (a.name, ← s.profile.rulesFor a.name)
  return sets.filter (!·.2.isEmpty)

/-! ## §3. Verification. -/

/-- Check one artifact and say what was found; answers a report that did not
pass. -/
def verifyArtifact (s : Session) (name : String) : Script (Option Report) := do
  let expectations ← ofExcept .rule (s.profile.expectationsFor name)
  if expectations.isEmpty then return none
  let report ← attempt .store (s.store.verify name expectations)
  for f in report.findings do
    say [checkMark f.passed, .plain (" " ++ name ++ ": " ++ f.expectation.describe
      ++ " (found " ++ toString f.found ++ ")")]
  return if report.passed then none else some report

/-- The failure that a report means.  Without a backup nothing was ever written
to the artifact. -/
def failureOf (s : Session) (report : Report) : Script PatchError := do
  if ← attempt .store (s.store.hasBackup report.artifact) then
    return .verificationFailed report.artifact report
  else return .notPatched report.artifact report

/-- Check some artifacts; `failed` is the first failure so far. -/
def verifyArtifacts (s : Session) (failed : Option PatchError) :
    List Artifact → Script (Option PatchError)
  | [] => return failed
  | a :: rest => do
      match failed, ← s.verifyArtifact a.name with
      | none, some report => s.verifyArtifacts (some (← s.failureOf report)) rest
      | failed, _ => s.verifyArtifacts failed rest

/-- Check every artifact. -/
def verifyAll (s : Session) : Script Nat := do
  match ← s.verifyArtifacts none s.profile.artifacts with
  | some e => throw (.patch e)
  | none => return 0

end Session

end ArtifactPatch
