/-
  ArtifactPatch.Store.Basic
  ─────────────────────────
  **THE ARTIFACTS OF A PACKAGE.**

  A store knows the artifacts of one package by name.  It reads them, replaces
  them as a whole, and keeps for each one backup slot beside the file: `.bak`
  behind the name of the file that the artifact's path leads to.  A backup is
  made once and not made again while the slot is taken.
-/
import ArtifactPatch.Store.Guard
import ArtifactPatch.Disk.AtomicWrite
import ArtifactPatch.LineEnding
import ArtifactPatch.Hash.Xxh3
import ArtifactPatch.Text.Similarity

namespace ArtifactPatch

/-! ## §1. Errors. -/

/-- Why an operation on an artifact fails. -/
inductive StoreError where
  | unknownArtifact (name : String) (suggestion : Option String)
  | notFound (artifact path : String)
  | noBackup (artifact path : String)
  | notText (artifact : String)
  | rootUnusable (path : String) (reason : GuardError)
  | rejected (artifact : String) (reason : GuardError)
  | disk (l : Location) (reason : OsError)
  deriving Repr, DecidableEq

namespace StoreError

/-- The wording of each failure. -/
def message : StoreError → String
  | .unknownArtifact name suggestion =>
      "unknown artifact '" ++ name ++ "'"
        ++ match suggestion with
          | some s => " (did you mean '" ++ s ++ "'?)"
          | none => ""
  | .notFound artifact path => "artifact '" ++ artifact ++ "' not found at " ++ path
  | .noBackup artifact path =>
      "no backup for artifact '" ++ artifact ++ "' (expected " ++ path ++ ")"
  | .notText artifact => "artifact '" ++ artifact ++ "' is not UTF-8 text"
  | .rootUnusable path reason =>
      "package root " ++ path ++ " is unusable: " ++ reason.message
  | .rejected artifact reason =>
      "artifact '" ++ artifact ++ "' rejected: " ++ reason.message
  | .disk l reason => "I/O error on " ++ l.text ++ ": " ++ reason.message

/-- The failure and what lies behind it, outermost first. -/
def chain (e : StoreError) : List String :=
  e.message :: match e with
    | .rootUnusable _ reason | .rejected _ reason => reason.chain
    | .disk _ reason => [reason.message]
    | _ => []

end StoreError

/-! ## §2. Stores. -/

/-- A named file of the package. -/
structure Artifact where
  name : String
  path : String
  deriving Repr, DecidableEq

/-- The artifacts below a package root. -/
structure Store where
  guard : Guard
  artifacts : List Artifact
  deriving Repr, DecidableEq

/-- What became of a request for a backup. -/
inductive BackupOutcome where
  | created (slot : Location)
  | alreadyPresent (slot : Location)
  deriving Repr, DecidableEq

/-- The slot of a backup. -/
def BackupOutcome.slot : BackupOutcome → Location
  | .created slot | .alreadyPresent slot => slot

/-- A restored artifact. -/
structure Restored where
  artifact : String
  location : Location
  size : Nat
  hash : UInt64
  deriving Repr, DecidableEq

namespace Store

/-- The store of a package. -/
def create (root : String) (artifacts : List Artifact) : Attempt StoreError Store := do
  return ⟨← Attempt.mapError (.rootUnusable root) (Guard.create root), artifacts⟩

/-- The package root. -/
def root (s : Store) : Location :=
  s.guard.root

/-- The names of the artifacts. -/
def names (s : Store) : List String :=
  s.artifacts.map Artifact.name

/-- The first artifact of a name. -/
def find (s : Store) (name : String) : Except StoreError Artifact :=
  match s.artifacts.find? (·.name == name) with
  | some a => .ok a
  | none => .error (.unknownArtifact name (Text.closest? name s.names))

/-- Where an artifact is said to be, as a path. -/
def artifactPath (s : Store) (name : String) : Except StoreError String :=
  (s.find name).map fun a => PathText.join s.root.text a.path

/-- Where an artifact is: a regular file, free of links, within the root. -/
def resolve (s : Store) (name : String) : Attempt StoreError Location := do
  let path ← Attempt.ofExcept (s.artifactPath name)
  if !(← Attempt.lift (Disk.isFile (.ofText path))) then
    throw (.notFound name path)
  Attempt.mapError (.rejected name) (s.guard.checkRoute (.ofText path))

/-- What a backup slot adds to the name of the file. -/
def backupSuffix : String := ".bak"

/-- The backup slot of a file. -/
def slotOf (l : Location) : Location :=
  l.withSuffix backupSuffix

/-- The backup slot of an artifact. -/
def backupSlot (s : Store) (name : String) : Attempt StoreError Location := do
  return slotOf (← s.resolve name)

/-! ## §3. Reading. -/

/-- A call on behalf of the file at a location. -/
def onFile (l : Location) (c : Call) : Attempt StoreError c.Answer :=
  Attempt.call c (.disk l)

/-- The bytes of an artifact. -/
def readRaw (s : Store) (name : String) : Attempt StoreError ByteArray := do
  let l ← s.resolve name
  onFile l (.read (.ofLocation l))

/-- The text of an artifact. -/
def read (s : Store) (name : String) : Attempt StoreError ArtifactText := do
  match Text.decode? (← s.readRaw name) with
  | some raw => return ArtifactText.ofRaw raw
  | none => throw (.notText name)

/-- Whether an artifact has a backup: a regular file in its slot. -/
def hasBackup (s : Store) (name : String) : Attempt StoreError Bool := do
  Attempt.lift (Disk.isFile (.ofLocation (← s.backupSlot name)))

/-! ## §4. Writing. -/

/-- The permission bits of the file at a location. -/
def modeOf (l : Location) : Attempt StoreError Mode := do
  let stat : Stat ← onFile l (.stat (.ofLocation l))
  return stat.mode

/-- Replace the file at a location. -/
def replaceFile (l : Location) (bytes : ByteArray) (mode : Mode) : Attempt StoreError Unit :=
  Attempt.mapError (.disk l)
    (Disk.atomicWrite (.ofLocation l.parent) (.ofLocation l) bytes (some mode))

/-- Copy an artifact into its backup slot, unless something is there. -/
def backup (s : Store) (name : String) : Attempt StoreError BackupOutcome := do
  let l ← s.resolve name
  let slot := slotOf l
  if ← Attempt.lift (Disk.exists? (.ofLocation slot)) then
    return .alreadyPresent slot
  let bytes : ByteArray ← onFile l (.read (.ofLocation l))
  replaceFile slot bytes (← modeOf l)
  return .created slot

/-- Replace an artifact, in its own line endings and with its own permission
bits. -/
def write (s : Store) (name : String) (text : ArtifactText) : Attempt StoreError Unit := do
  let l ← s.resolve name
  let l ← Attempt.mapError (.rejected name) (s.guard.recheck l)
  let mode ← modeOf l
  replaceFile l (Text.encode text.toRaw) mode

/-- Copy the backup over an artifact. -/
def restore (s : Store) (name : String) : Attempt StoreError Restored := do
  let l ← s.resolve name
  let slot := slotOf l
  if !(← Attempt.lift (Disk.isFile (.ofLocation slot))) then
    throw (.noBackup name slot.text)
  let bytes : ByteArray ← onFile slot (.read (.ofLocation slot))
  replaceFile l bytes (← modeOf l)
  return ⟨name, l, bytes.size, Hash.xxh3 bytes⟩

/-- Free the backup slot; answers whether something was there. -/
def discardBackup (s : Store) (name : String) : Attempt StoreError Bool := do
  let slot ← s.backupSlot name
  match ← Attempt.lift (Procedure.ask (.remove (.ofLocation slot))) with
  | .ok _ => return true
  | .error .notFound => return false
  | .error e => throw (.disk slot e)

end Store

end ArtifactPatch
