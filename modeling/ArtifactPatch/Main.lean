/-
  ArtifactPatch.Main
  ──────────────────
  **THE PROGRAM.**

  The calls of a procedure are made on the real file system, and what the
  command said is written to the terminal.  The runtime does not tell the
  permission bits of a file, so every file is taken to have the usual ones;
  it has no call to sync a file or to set its time of change either, so these
  two succeed without an effect.
-/
import ArtifactPatch.Command.Run

namespace ArtifactPatch

/-! ## §1. Calls. -/

/-- The failure of a call with an error number of the system.  Some calls of the
runtime tell the number with its sign turned, as a number above all others. -/
def OsError.ofNumber (n : UInt32) (details : String) : OsError :=
  match (if n < 0x80000000 then n else -n).toNat with
  | 2 => .notFound
  | 16 => .busy
  | 20 => .notADirectory
  | 21 => .isADirectory
  | 36 => .nameTooLong
  | 40 => .tooManyLinks
  | n => .other (details ++ " (os error " ++ toString n ++ ")")

/-- The failure that an exception stands for. -/
def OsError.ofException : IO.Error → OsError
  | .noFileOrDirectory _ n details | .alreadyExists _ n details | .invalidArgument _ n details
  | .permissionDenied _ n details | .resourceExhausted _ n details
  | .inappropriateType _ n details | .noSuchThing _ n details | .interrupted _ n details
  | .otherError n details | .resourceBusy n details | .resourceVanished n details
  | .unsupportedOperation n details | .hardwareFault n details
  | .unsatisfiedConstraints n details | .illegalOperation n details
  | .protocolError n details | .timeExpired n details => .ofNumber n details
  | .unexpectedEof => .other "unexpected end of file"
  | .userError description => .other description

/-- The permission bits of directories and of files. -/
def usualMode : NodeKind → Mode
  | .directory => 0o755
  | .file | .link => 0o644

/-- The kind of a node from its type. -/
def NodeKind.ofType : IO.FS.FileType → NodeKind
  | .dir => .directory
  | .symlink => .link
  | .file | .other => .file

/-- Three permission bits. -/
def accessOf (bits : Nat) : IO.AccessRight :=
  ⟨bits.testBit 2, bits.testBit 1, bits.testBit 0⟩

/-- Number of names that are tried for a temporary file. -/
def tempAttempts : Nat := 1000

/-- A new file in a directory under the first of some names that is free. -/
def createIn (directory : Route) : (tries : Nat) → IO Route
  | 0 => throw (.userError "no free name for a temporary file")
  | tries + 1 => do
      let r := directory.child (tempName tries)
      try
        let _ ← IO.FS.Handle.mk r.text .writeNew
        return r
      catch
        | .alreadyExists .. => createIn directory tries
        | e => throw e

/-- Make a call, which may throw. -/
def Call.carryOut : (c : Call) → IO c.Answer
  | .stat r => do
      let path ← IO.FS.realPath r.text
      let kind := NodeKind.ofType (← path.metadata).type
      return ⟨kind, usualMode kind⟩
  | .canonicalize r => do
      let path ← IO.FS.realPath r.text
      return (Route.ofText path.toString).names
  | .read r => IO.FS.readBinFile r.text
  | .createTemp directory => createIn directory tempAttempts
  | .write r bytes => IO.FS.writeBinFile r.text bytes
  | .setMode r mode =>
      IO.setAccessRights r.text ⟨accessOf (mode / 64), accessOf (mode / 8), accessOf mode⟩
  | .sync _ | .touch _ => return ()
  | .replace source target => IO.FS.rename source.text target.text
  | .remove r => IO.FS.removeFile r.text
  | .list directory => do
      let path ← IO.FS.realPath directory.text
      let entries ← path.readDir
      entries.toList.mapM fun entry => do
        return (entry.fileName, NodeKind.ofType (← entry.path.symlinkMetadata).type)

/-- Carry a procedure out, call by call. -/
def Procedure.carryOut {α : Type} : Procedure α → IO α
  | .done a => return a
  | .call c next => do
      let answer : Except OsError c.Answer ←
        try pure (.ok (← c.carryOut))
        catch e => pure (.error (.ofException e))
      (next answer).carryOut

/-! ## §2. The program. -/

/-- What the environment says to a command. -/
def readSurroundings : IO Surroundings := do
  let here ← try pure (some (← IO.currentDir).toString) catch _ => pure none
  return ⟨← IO.getEnv "SDK_PATCHER_PACKAGE_DIR", ← IO.getEnv "NODE_PATH", here⟩

/-- What the environment says about colours. -/
def readColours : IO Bool := do
  let settings : ColourSettings :=
    ⟨← IO.getEnv "CLICOLOR", ← IO.getEnv "CLICOLOR_FORCE", ← IO.getEnv "NO_COLOR"⟩
  return settings.useColours (← (← IO.getStdout).isTty)

end ArtifactPatch

open ArtifactPatch in
/-- Run the command that the arguments ask for. -/
def main (args : List String) : IO UInt32 := do
  let outcome ← ((Invocation.ofArgs args).perform (← readSurroundings)).carryOut
  let colours ← readColours
  (← IO.getStdout).putStr (renderSpans colours outcome.transcript.out)
  (← IO.getStderr).putStr (renderSpans colours outcome.transcript.err)
  return outcome.code.toUInt32
