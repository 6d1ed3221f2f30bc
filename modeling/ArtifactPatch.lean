import ArtifactPatch.Command.Run
import ArtifactPatch.Main
import ArtifactPatch.Proofs.Except
import ArtifactPatch.Proofs.Disk.Procedure
import ArtifactPatch.Proofs.Disk.Asking
import ArtifactPatch.Proofs.Disk.Tree
import ArtifactPatch.Proofs.Edit.Splice
import ArtifactPatch.Proofs.Edit.Batch
import ArtifactPatch.Proofs.Edit.Order
import ArtifactPatch.Proofs.Disk.Path
import ArtifactPatch.Proofs.Disk.Call
import ArtifactPatch.Proofs.Disk.Temporary
import ArtifactPatch.Proofs.Disk.AtomicWrite
import ArtifactPatch.Proofs.Disk.Making
import ArtifactPatch.Proofs.Disk.WholeWrite
import ArtifactPatch.Proofs.Store.Finds
import ArtifactPatch.Proofs.Store.Operations
import ArtifactPatch.Proofs.Patch.Recovery
import ArtifactPatch.Proofs.Patch.BackupFirst
import ArtifactPatch.Proofs.Patch.Reference
import ArtifactPatch.Proofs.LineEnding
import ArtifactPatch.Proofs.Patch.Preservation
import ArtifactPatch.Proofs.Patch.Agreement
import ArtifactPatch.Proofs.Patch.ReadBack
import ArtifactPatch.Proofs.Patch.Isolation
import ArtifactPatch.Proofs.Patch.Conversion
import ArtifactPatch.Proofs.Patch.Containment
import ArtifactPatch.Proofs.Patch.Origin
import ArtifactPatch.Proofs.Patch.Restoration
import ArtifactPatch.Proofs.Patch.Repeated
import ArtifactPatch.Proofs.Pattern.Filling
import ArtifactPatch.Proofs.Pattern.Reading
import ArtifactPatch.Proofs.Pattern.Matching
import ArtifactPatch.Proofs.Command.Script
import ArtifactPatch.Proofs.Command.Asking
import ArtifactPatch.Proofs.Command.Apply
import ArtifactPatch.Proofs.Command.AllOrNothing
import ArtifactPatch.Proofs.Command.Restore
import ArtifactPatch.Proofs.Text.Greedy
import ArtifactPatch.Proofs.Pattern.Scan
import ArtifactPatch.Proofs.Text.Overlap
import ArtifactPatch.Proofs.Text.Bytes
import ArtifactPatch.Proofs.Pattern.Cursor
import ArtifactPatch.Proofs.Pattern.Notation
import ArtifactPatch.Proofs.Pattern.SourceCursor
import ArtifactPatch.Proofs.Pattern.Occurrence
import ArtifactPatch.Proofs.Pattern.Maximal
import ArtifactPatch.Proofs.Pattern.Words
import ArtifactPatch.Proofs.Pattern.Renaming
import ArtifactPatch.Proofs.Pattern.Names
import ArtifactPatch.Proofs.Pattern.Rescan
import ArtifactPatch.Proofs.Pattern.Overlay
import ArtifactPatch.Proofs.Pattern.PlainText
import ArtifactPatch.Proofs.Patch.Final
import ArtifactPatch.Proofs.Patch.Literal
import ArtifactPatch.Proofs.Patch.NoOp
import ArtifactPatch.Proofs.Profile.Builtin
import ArtifactPatch.Proofs.Profile.Validation
