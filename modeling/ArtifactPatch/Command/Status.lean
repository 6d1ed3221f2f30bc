/-
  ArtifactPatch.Command.Status
  ────────────────────────────
  **THE STATUS REPORT.**

  For each artifact: its size, hash and line endings, its backup, how many
  sites each rule would change, and its state.  It is patched when it has
  expectations and meets them all, not patched when its rules would apply, and
  otherwise unknown.  An artifact that cannot be read does not end the report.
-/
import ArtifactPatch.Command.Session

namespace ArtifactPatch.Session

open Script

/-- Say what the backup is like; `live` are the bytes of the artifact. -/
def sayBackup (s : Session) (name : String) (live : ByteArray) : Script Unit := do
  if ← attempt .store (s.store.hasBackup name) then
    let slot ← attempt .store (s.store.backupSlot name)
    let bytes : ByteArray ← attempt id (Attempt.call (.read (.ofLocation slot)) .disk)
    sayText ("  backup: " ++ Location.text slot ++ " (xxh3 " ++ Hash.hex (Hash.xxh3 bytes) ++ ", "
      ++ (if bytes = live then "identical to live" else "differs from live") ++ ")")
  else say [.plain "  backup: ", .dimmed "none"]

/-- The state of an artifact, from its plan if it has rules. -/
def stateOf (s : Session) (name : String) (plan : Option Plan) : Script Span := do
  let expectations ← ofExcept .rule (s.profile.expectationsFor name)
  let verified ←
    if expectations.isEmpty then pure false
    else do
      let text ← attempt .store (s.store.read name)
      pure (Expectation.checkAll name text.content expectations).passed
  return if verified then .strong .green "PATCHED"
    else if plan.any Plan.isComplete then .strong .yellow "NOT PATCHED"
    else .strong .red "UNKNOWN"

/-- Report on an artifact. -/
def sayArtifact (s : Session) (name : String) : Script Unit := do
  let path ← ofExcept .store (s.store.artifactPath name)
  say [.bold name, .plain " ", .dimmed path]
  let live ← attempt .store (s.store.readRaw name)
  sayText ("  size: " ++ toString live.size ++ " bytes, xxh3 " ++ Hash.hex (Hash.xxh3 live) ++ ", "
    ++ (LineEnding.detectBytes live).name ++ " line endings")
  s.sayBackup name live
  let rules ← ofExcept .rule (s.profile.rulesFor name)
  let plan ←
    if rules.isEmpty then pure none
    else do pure (some (← attempt .patch (s.store.plan name rules)))
  for o in (plan.map Plan.outcomes).getD [] do
    sayText ("  rule " ++ o.rule ++ ": " ++ toString o.occurrences ++ " pending site(s)")
  say [.plain "  state: ", ← s.stateOf name plan]

/-- Report on the gate. -/
def sayGate (s : Session) : Script Unit := do
  let verdict : Span := match s.gate with
    | .ok gate => if gate.allows then .plain gate.describe else .coloured .yellow gate.describe
    | .error e => .coloured .red e.message
  say [.plain "Version gate: ", verdict]

/-- Report on the package. -/
def status (s : Session) : Script Nat := do
  say [.bold "Patch Status Report"]
  s.sayHeader
  s.sayGate
  sayText ""
  for a in s.profile.artifacts do
    try s.sayArtifact a.name
    catch e => say [.plain "  ", checkMark false, .plain (" " ++ e.message)]
    sayText ""
  return 0

end ArtifactPatch.Session
