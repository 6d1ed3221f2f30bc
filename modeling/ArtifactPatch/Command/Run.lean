/-
  ArtifactPatch.Command.Run
  ─────────────────────────
  **RUNNING A COMMAND.**

  The arguments choose a command; the command talks, works on the disk, and
  ends with an exit code.
-/
import ArtifactPatch.Command.Apply
import ArtifactPatch.Command.Help
import ArtifactPatch.Command.Profiles
import ArtifactPatch.Command.Status

namespace ArtifactPatch

open Script

/-! ## §1. Simulation. -/

/-- The columns of the simulation. -/
def simulationRow (setting before : String) (after : Span) : List Span :=
  [.plain (padRight 10 setting ++ " " ++ padRight 40 before ++ " "), after, .plain "\n"]

/-- The settings that are simulated when none are given. -/
def usualSettings : List TimeoutSetting :=
  [.absent, .null, .seconds 0, .seconds 30]

/-- What each setting leads to in both forms of the code; a difference stands
out. -/
def simulateWaits (settings : List TimeoutSetting) (default : Nat) : Script Nat := do
  let shown := if settings.isEmpty then usualSettings else settings
  print (simulationRow "timeout" CodeForm.unpatched.name (.plain CodeForm.patched.name))
  for setting in shown do
    let before := WaitCondition.derive setting default .unpatched
    let after := WaitCondition.derive setting default .patched
    print (simulationRow setting.describe before.describe
      (if before = after then .plain after.describe else .coloured .green after.describe))
  return 0

/-! ## §2. Commands. -/

/-- The script of a command. -/
def Command.script (s : Surroundings) (o : SharedOptions) : Command → Script Nat
  | .apply dryRun diff ignoreVersion => do
      (← Session.start s o).apply dryRun diff ignoreVersion
  | .restore keepBackup => do (← Session.start s o).restore keepBackup
  | .verify => do
      let session ← Session.start s o
      session.sayHeader
      session.verifyAll
  | .status => do (← Session.start s o).status
  | .list => listProfiles s o
  | .simulate settings default => simulateWaits settings default

/-- The name of the program and its version. -/
def programVersion : String := "sdk-patcher 0.1.0"

/-- Exit code of a call that cannot be understood. -/
def misuseCode : Nat := 2

/-- Run what the arguments ask for. -/
def Invocation.perform (s : Surroundings) : Invocation → Procedure CommandOutcome
  | .run o c => (c.script s o).finish
  | .help topic => return ⟨0, ⟨[.plain topic.page.render], []⟩⟩
  | .version => return ⟨0, ⟨[.plain (programVersion ++ "\n")], []⟩⟩
  | .misuse =>
      let hint := "error: unusable arguments\n\n" ++ HelpTopic.program.page.usageLine
      return ⟨misuseCode, ⟨[], [.plain hint]⟩⟩

end ArtifactPatch
