/-
  ArtifactPatch.Disk.AtomicWrite
  ──────────────────────────────
  **WRITING A FILE AS A WHOLE.**

  The new contents go to a temporary file beside the target, which is synced
  and then moved over the target in one call: a reader sees the old contents
  or the new, never a part.  A step that fails removes the temporary file.
  Once the move is done the write has succeeded, whatever becomes of the time
  of change.
-/
import ArtifactPatch.Disk.Procedure

namespace ArtifactPatch.Disk

/-- Give up a temporary file and pass the failure on. -/
def discardTemp {α : Type} (temp : Route) (e : OsError) : Attempt OsError α := do
  let _ ← Attempt.lift (Procedure.ask (.remove temp))
  throw e

/-- A call on behalf of a temporary file, which does not outlive a failure. -/
def withTemp (temp : Route) (c : Call) : Attempt OsError c.Answer := do
  match ← Attempt.lift (Procedure.ask c) with
  | .ok answer => return answer
  | .error e => discardTemp temp e

/-- Write a file of a directory as a whole, with the given permission bits if
any. -/
def atomicWrite (directory target : Route) (bytes : ByteArray) (mode : Option Mode) :
    Attempt OsError Unit := do
  let temp ← Attempt.call (.createTemp directory) id
  let _ ← withTemp temp (.write temp bytes)
  if let some mode := mode then
    let _ ← withTemp temp (.setMode temp mode)
  let _ ← withTemp temp (.sync temp)
  let _ ← withTemp temp (.replace temp target)
  let _ ← Attempt.lift (Procedure.ask (.touch target))

/-- Write the file at a path as a whole. -/
def atomicWriteAt (path : String) (bytes : ByteArray) (mode : Option Mode) :
    Attempt OsError Unit :=
  match PathText.parent? path with
  | none => throw .noParent
  | some directory => atomicWrite (.ofText directory) (.ofText path) bytes mode

end ArtifactPatch.Disk
