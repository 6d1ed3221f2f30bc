/-
  ArtifactPatch.Command.Profiles
  ──────────────────────────────
  **THE LIST OF PROFILES.**

  The active profile is shown in full.  Below it stand the profiles in the
  `patches` directory of the working directory: the regular files right in it
  whose names end in `.toml`, in the order of their names.
-/
import ArtifactPatch.Command.Session

namespace ArtifactPatch

open Script

/-! ## §1. The active profile. -/

/-- A rule in the list, with its description. -/
def RuleEntry.display (e : RuleEntry) : List Span :=
  let max := match e.max with
    | some n => toString n
    | none => "any"
  [.plain "    ", .coloured .cyan e.id, .plain (" [" ++ e.artifact ++ "] sites "
    ++ toString e.min ++ ".." ++ max ++ "\n")]
    ++ match e.description with
      | some d => [.plain "      ", .dimmed d, .plain "\n"]
      | none => []

/-- An expectation in the list. -/
def ExpectationEntry.display (e : ExpectationEntry) : List Span :=
  let shown : Span := match e.demand.compile with
    | .ok compiled => .plain compiled.describe
    | .error reason => .coloured .red reason.message
  [.plain ("    " ++ e.artifact ++ ": "), shown, .plain "\n"]

/-- A profile in full; `source` says where it comes from. -/
def Profile.display (p : Profile) (source : String) : List Span :=
  [.bold p.name, .plain " ", .dimmed ("(" ++ source ++ ")"), .plain "\n"]
    ++ (match p.description with
      | some d => [.plain ("  " ++ d ++ "\n")]
      | none => [])
    ++ [.plain ("  package: " ++ p.package ++ "\n"),
      .plain ("  versions: " ++ p.versionRange.getD "any" ++ "\n"),
      .plain "  artifacts:\n"]
    ++ p.artifacts.map (fun a => .plain ("    " ++ a.name ++ " -> " ++ a.path ++ "\n"))
    ++ [.plain "  rules:\n"]
    ++ p.rules.flatMap RuleEntry.display
    ++ (if p.expectations.isEmpty then []
      else .plain "  expectations:\n" :: p.expectations.flatMap ExpectationEntry.display)
    ++ [.plain "\n"]

/-! ## §2. The patches directory. -/

/-- Whether the name of a file is that of a profile: the extension `toml`
behind a name that is not empty. -/
def isProfileName (name : String) : Bool :=
  let suffix := ".toml".toList
  suffix.isSuffixOf name.toList && suffix.length < name.length

/-- The paths of the profiles in the patches directory. -/
def profilePaths (s : Surroundings) : Script (List String) := do
  match s.workingDirectory with
  | none => return []
  | some here =>
      let directory := PathText.join here "patches"
      if !(← Script.lift (Disk.isDirectory (.ofText directory))) then return []
      let found : List (String × NodeKind) ←
        attempt id (Attempt.call (.list (.ofText directory)) .disk)
      let names := found.filterMap fun (name, kind) =>
        if kind = .file && isProfileName name then some name else none
      return (names.mergeSort fun a b => !(b < a)).map (PathText.join directory)

/-- Say what a profile is like, in a line. -/
def sayProfile (path : String) : Script Unit := do
  match ← outcomeOf (Profile.loadFile path) with
  | .ok p =>
      say [.plain "  ", checkMark true, .plain (" " ++ p.name ++ " ("
        ++ toString p.rules.length ++ " rule(s)) "), .dimmed path]
  | .error e => say [.plain "  ", checkMark false, .plain (" " ++ path ++ ": " ++ e.message)]

/-- Show the active profile and list the others. -/
def listProfiles (s : Surroundings) (o : SharedOptions) : Script Nat := do
  let active ← attempt .profile (Profile.load o.profile)
  print (active.display (o.profile.getD "built-in"))
  let paths ← profilePaths s
  if !paths.isEmpty then
    say [.bold "Profiles in ./patches:"]
    for path in paths do
      sayProfile path
  return 0

end ArtifactPatch
