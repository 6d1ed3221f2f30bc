/-
  ArtifactPatch.Patch.Restore
  ───────────────────────────
  **TAKING A PATCH BACK.**

  Restoring copies the backup over the artifact and then frees the backup
  slot, unless the backup is to be kept.  An artifact without a backup is an
  outcome, not a failure.
-/
import ArtifactPatch.Patch.Outcome

namespace ArtifactPatch

/-- What became of a request to restore. -/
inductive RestoreOutcome where
  | restored (detail : Restored) (backupKept : Bool)
  | noBackup (artifact path : String)
  deriving Repr, DecidableEq

namespace Store

/-- Copy the backup over an artifact and free the slot unless it is to be kept. -/
def takeBack (s : Store) (name : String) (keepBackup : Bool) :
    Attempt PatchError RestoreOutcome := do
  match ← Attempt.lift (s.restore name).run with
  | .ok detail =>
      if keepBackup then return .restored detail true
      let removed ← Attempt.mapError .store (s.discardBackup name)
      return .restored detail (!removed)
  | .error (.noBackup artifact path) => return .noBackup artifact path
  | .error e => throw (.store e)

end Store

end ArtifactPatch
