/-
  ArtifactPatch.Command.Apply
  ───────────────────────────
  **THE COMMANDS THAT WRITE: APPLY AND RESTORE.**

  Applying plans every artifact before it writes any of them: one plan that
  falls short, and nothing is written.  Restoring tries every artifact, also
  after one has failed.
-/
import ArtifactPatch.Command.Session
import ArtifactPatch.Difference.Compact
import ArtifactPatch.Difference.Lines

namespace ArtifactPatch

open Script

/-! ## §1. Showing a replaced site. -/

/-- A line of a difference.  A line without an end is given one, and an empty
line after it. -/
def lineChange (kind : ChangeKind) (line : Text) : List Span :=
  let ended := Text.endsLine line
  let text := String.ofList line ++ (if ended then "" else "\n")
  (match kind with
    | .delete => Span.coloured .red ("-" ++ text)
    | .insert => .coloured .green ("+" ++ text)
    | .keep => .plain (" " ++ text)) :: (if ended then [] else [.plain "\n"])

/-- One side of a change, character by character; what the other side does not
have stands out. -/
def sideChange (own : ChangeKind) (c : Colour) (changes : List (ChangeKind × Char)) :
    List Span :=
  changes.filterMap fun (kind, ch) =>
    if kind = .keep then some (.plain ch.toString)
    else if kind = own then some (.strong c ch.toString)
    else none

/-- What a replacement changes: line by line where it has lines, otherwise
character by character. -/
def Replacement.display (r : Replacement) : List Span :=
  if r.found.contains '\n' || r.replacement.contains '\n' then
    (Difference.changes (Text.lines r.found) (Text.lines r.replacement)).flatMap
      fun (kind, line) => lineChange kind line
  else
    let changes := Difference.changes r.found r.replacement
    [.coloured .red "-"] ++ sideChange .delete .red changes ++ [.plain "\n"]
      ++ [.coloured .green "+"] ++ sideChange .insert .green changes ++ [.plain "\n"]

/-- The sites that a rule changes, each under a heading. -/
def RuleOutcome.displaySites (o : RuleOutcome) : List Span :=
  o.replacements.zipIdx.flatMap fun (r, i) =>
    [.dimmed ("@@ " ++ o.rule ++ " #" ++ toString (i + 1) ++ " at byte " ++ toString r.start
      ++ " @@"), .plain "\n"] ++ r.display

/-! ## §2. Reports. -/

/-- What a rule found, in a line. -/
def RuleOutcome.display (dryRun : Bool) (o : RuleOutcome) : List Span :=
  let found :=
    if o.isOk then
      (if dryRun then "would rewrite " else "matched ") ++ toString o.occurrences ++ " site(s)"
    else toString o.occurrences ++ " site(s), " ++ o.status.describe
  [.plain "  ", checkMark o.isOk, .plain (" " ++ o.rule ++ ": " ++ found ++ "\n")]

/-- What the rules of an artifact found. -/
def Plan.display (dryRun showSites : Bool) (p : Plan) : List Span :=
  [.bold p.artifact, .plain "\n"] ++ p.outcomes.flatMap (RuleOutcome.display dryRun)
    ++ (if showSites then p.outcomes.flatMap RuleOutcome.displaySites else [])

/-- What became of the backup. -/
def BackupOutcome.describe : BackupOutcome → String
  | .created slot => "backup created at " ++ slot.text
  | .alreadyPresent slot => "existing backup kept at " ++ slot.text

/-- What was done to an artifact. -/
def Plan.displayApplied (p : Plan) : List Span :=
  [checkMark true, .plain (" " ++ p.artifact ++ ": patched " ++ toString p.totalOccurrences
      ++ " site(s); "),
    .dimmed ((p.backup.map BackupOutcome.describe).getD "")]

/-! ## §3. Applying. -/

namespace Session

/-- Plan the artifacts and show the plans; answers the first mismatch. -/
def planAll (s : Session) (dryRun showSites : Bool) :
    List (String × List Rule) → Script (Option PatchError)
  | [] => return none
  | (name, rules) :: rest => do
      let plan ← attempt .patch (s.store.plan name rules)
      print (plan.display dryRun showSites)
      let later ← s.planAll dryRun showSites rest
      return if plan.isComplete then later else some (.mismatch name plan.failures)

/-- Apply the rules to the artifacts, one after the other. -/
def applyAll (s : Session) : List (String × List Rule) → Script Unit
  | [] => return ()
  | (name, rules) :: rest => do
      let applied ← attempt .patch (s.store.applyRules name rules)
      say applied.displayApplied
      s.applyAll rest

/-- A closed gate ends the command, unless it is to be ignored. -/
def passGate (s : Session) (ignoreVersion : Bool) : Script Unit := do
  let gate ← ofExcept .gate s.gate
  if !gate.allows then
    if !ignoreVersion then throw (.gateClosed gate)
    say [.coloured .yellow "⊘", .plain (" " ++ gate.describe ++ " (ignored)")]

/-- Patch the package. -/
def apply (s : Session) (dryRun showSites ignoreVersion : Bool) : Script Nat := do
  s.sayHeader
  s.passGate ignoreVersion
  let sets ← ofExcept .rule s.ruleSets
  let mismatch ← s.planAll dryRun showSites sets
  sayText ""
  if let some e := mismatch then throw (.patch e)
  if dryRun then
    say [.coloured .cyan "[DRY RUN - no files were modified]"]
    return 0
  s.applyAll sets
  sayText ""
  s.verifyAll

/-! ## §4. Restoring. -/

/-- How the restoration of the artifacts went. -/
structure RestoreTally where
  firstFailure : Option FailureKind
  /-- Number of artifacts without a backup. -/
  missing : Nat

/-- Restore an artifact and say how it went. -/
def restoreArtifact (s : Session) (keepBackup : Bool) (t : RestoreTally) (name : String) :
    Script RestoreTally := do
  match ← outcomeOf (s.store.takeBack name keepBackup) with
  | .ok (.restored detail kept) => do
      say [checkMark true, .plain (" " ++ detail.artifact ++ ": restored "
        ++ toString detail.size ++ " bytes (xxh3 " ++ Hash.hex detail.hash ++ ")"
        ++ (if kept then ", backup kept" else ""))]
      return t
  | .ok (.noBackup artifact path) => do
      say [.coloured .yellow "⚠", .plain (" " ++ artifact ++ ": no backup found at " ++ path)]
      return { t with missing := t.missing + 1 }
  | .error e => do
      complain [.coloured .red ("✗ " ++ e.kind.label), .plain (" " ++ name ++ ": " ++ e.message)]
      return { t with firstFailure := t.firstFailure.or (some e.kind) }

/-- Put the package back; the first failure decides the exit code. -/
def restore (s : Session) (keepBackup : Bool) : Script Nat := do
  s.sayHeader
  let names := s.profile.artifacts.map Artifact.name
  let tally ← names.foldlM (s.restoreArtifact keepBackup) ⟨none, 0⟩
  match tally.firstFailure with
  | some kind => return kind.exitCode
  | none =>
      if tally.missing > 0 then
        complain [.coloured .yellow (toString tally.missing
          ++ " artifact(s) had nothing to restore")]
        return FailureKind.noBackup.exitCode
      return 0

end Session

end ArtifactPatch
