/-
  ArtifactPatch.Disk.Call
  ───────────────────────
  **CALLS TO THE FILE SYSTEM.**

  Everything that touches the disk goes through one of these calls.  Each call
  either fails and leaves the tree as it was, or takes effect as a whole;
  replacing a file by renaming another over it is a single call.
-/
import ArtifactPatch.Disk.Tree

namespace ArtifactPatch

/-! ## §1. Calls and their answers. -/

/-- The kind of a node. -/
inductive NodeKind where
  | directory
  | file
  | link
  deriving Repr, DecidableEq

/-- What a route leads to, links followed. -/
structure Stat where
  kind : NodeKind
  mode : Mode
  deriving Repr, DecidableEq

/-- A call. -/
inductive Call where
  /-- What stands at the end of a route, links followed. -/
  | stat (r : Route)
  /-- The location at the end of a route, free of links. -/
  | canonicalize (r : Route)
  /-- The bytes of a file. -/
  | read (r : Route)
  /-- A new empty file under an unused name of a directory. -/
  | createTemp (directory : Route)
  /-- Fill a file that was created. -/
  | write (r : Route) (bytes : ByteArray)
  | setMode (r : Route) (mode : Mode)
  | sync (r : Route)
  /-- Move a file over whatever file or link stands at the target. -/
  | replace (source target : Route)
  /-- Remove a file or a link. -/
  | remove (r : Route)
  /-- Set a file's time of change to now. -/
  | touch (r : Route)
  /-- The names in a directory and the kinds of their nodes, links not
  followed. -/
  | list (directory : Route)
  deriving DecidableEq

/-- What a successful call answers. -/
def Call.Answer : Call → Type
  | .stat _ => Stat
  | .canonicalize _ => Location
  | .read _ => ByteArray
  | .createTemp _ => Route
  | .list _ => List (String × NodeKind)
  | .write .. | .setMode .. | .sync _ | .replace .. | .remove _ | .touch _ => Unit

/-! ## §2. Their effect. -/

/-- A file tree and the directory from which relative routes start. -/
structure Machine where
  tree : Tree
  cwd : Location

/-- The kind of a node. -/
def Node.kind : Node → NodeKind
  | .directory _ => .directory
  | .file .. => .file
  | .link _ => .link

/-- Mode of a file made for temporary use. -/
def tempMode : Mode := 0o600

/-- A name for a file made for temporary use. -/
def tempName (n : Nat) : String :=
  ".tmp" ++ toString (100000 + n)

namespace Route

/-- Longest path, in bytes, that a call takes as a whole. -/
def maxText : Nat := 4095

/-- No path has a NUL character in it. -/
def checkNul (r : Route) : Except OsError Unit :=
  if r.text.toList.contains '\x00' then .error .nulInPath else .ok ()

/-- A path that a call takes as a whole has a bounded length. -/
def checkText (r : Route) : Except OsError Unit := do
  r.checkNul
  if maxText < r.text.utf8ByteSize then throw .nameTooLong

end Route

namespace Machine

/-- The location at the end of a route. -/
def locate (m : Machine) (last : Bool) (r : Route) : Except OsError Location := do
  r.checkText
  m.tree.locate m.cwd last r

/-- The location at the end of a route, free of links.  The route is followed
name by name, so only what it leads to has a bounded length. -/
def canonicalize (m : Machine) (r : Route) : Except OsError Location := do
  r.checkNul
  let l ← m.tree.locate m.cwd true r
  (Route.ofLocation l).checkText
  return l

/-- An unused name for a temporary file in a directory: of one candidate more
than there are nodes, one is free. -/
def freeName (m : Machine) (directory : Location) : String :=
  let candidates := (List.range (m.tree.entries.length + 1)).map tempName
  (candidates.find? fun name => (m.tree.get? (directory ++ [name])).isNone).getD ".tmp"

/-- Change the tree. -/
def withTree (m : Machine) (t : Tree) : Machine :=
  { m with tree := t }

/-- What stands at the end of a route. -/
def stat (m : Machine) (r : Route) : Except OsError Stat := do
  let l ← m.locate true r
  match m.tree.get? l with
  | some (.directory mode) => return ⟨.directory, mode⟩
  | some (.file _ mode) => return ⟨.file, mode⟩
  | _ => throw .notFound

/-- The bytes of a file. -/
def read (m : Machine) (r : Route) : Except OsError ByteArray := do
  let l ← m.locate true r
  match m.tree.get? l with
  | some (.file bytes _) => return bytes
  | some (.directory _) => throw .isADirectory
  | _ => throw .notFound

/-- A new file for temporary use.  The path must be short enough for any such
name, and then for the name that is free, as must that name be. -/
def createTemp (m : Machine) (directory : Route) : Except OsError (Route × Machine) := do
  (directory.child (tempName 0)).checkText
  let l ← m.tree.locate m.cwd true (directory.child ".")
  let name := m.freeName l
  (directory.child name).checkText
  if Tree.maxName < name.utf8ByteSize then throw .nameTooLong
  return (directory.child name, m.withTree (m.tree.put (l ++ [name]) (.file .empty tempMode)))

/-- Fill a file. -/
def write (m : Machine) (r : Route) (bytes : ByteArray) : Except OsError Machine := do
  let l ← m.locate true r
  match m.tree.get? l with
  | some (.file _ mode) => return m.withTree (m.tree.put l (.file bytes mode))
  | some (.directory _) => throw .isADirectory
  | _ => throw .notFound

/-- Set permission bits. -/
def setMode (m : Machine) (r : Route) (mode : Mode) : Except OsError Machine := do
  let l ← m.locate true r
  match m.tree.get? l with
  | some (.file bytes _) => return m.withTree (m.tree.put l (.file bytes mode))
  | some (.directory _) => return m.withTree (m.tree.put l (.directory mode))
  | _ => throw .notFound

/-- Move a file over a target.  The target's last name must name something: a
dot or the root is busy, and a slash behind it asks for a directory. -/
def replace (m : Machine) (source target : Route) : Except OsError Machine := do
  source.checkText
  target.checkText
  let from_ ← m.tree.locate m.cwd false source
  match m.tree.get? from_ with
  | some (.file bytes mode) =>
      match target.names.getLast? with
      | none | some "." | some ".." => throw .busy
      | some _ =>
          match ← m.tree.follow m.cwd false { target with directory := false } with
          | .vacant l _ =>
              if target.directory then throw .notADirectory
              return m.withTree ((m.tree.erase from_).put l (.file bytes mode))
          | .node l =>
              if target.directory then throw .notADirectory
              match m.tree.get? l with
              | some (.directory _) => throw .isADirectory
              | _ => return m.withTree ((m.tree.erase from_).put l (.file bytes mode))
  | _ => throw .notFound

/-- Remove a file or a link. -/
def remove (m : Machine) (r : Route) : Except OsError Machine := do
  let l ← m.locate false r
  match m.tree.get? l with
  | some (.directory _) => throw .isADirectory
  | some _ => return m.withTree (m.tree.erase l)
  | none => throw .notFound

/-- The nodes of a directory. -/
def list (m : Machine) (r : Route) : Except OsError (List (String × NodeKind)) := do
  let l ← m.locate true r
  match m.tree.get? l with
  | some (.directory _) => return (m.tree.children l).map fun (name, n) => (name, n.kind)
  | some _ => throw .notADirectory
  | none => throw .notFound

/-- Keep the machine where a call changes nothing. -/
def unchanged {α : Type} (m : Machine) (r : Except OsError α) : Except OsError α × Machine :=
  (r, m)

/-- The outcome of a call that answers nothing but its success. -/
def changed (m : Machine) : Except OsError Machine → Except OsError Unit × Machine
  | .ok m' => (.ok (), m')
  | .error e => (.error e, m)

/-- Carry out a call. -/
def perform (m : Machine) : (c : Call) → Except OsError c.Answer × Machine
  | .stat r => m.unchanged (m.stat r)
  | .canonicalize r => m.unchanged (m.canonicalize r)
  | .read r => m.unchanged (m.read r)
  | .createTemp directory =>
      match m.createTemp directory with
      | .ok (r, m') => (.ok r, m')
      | .error e => (.error e, m)
  | .write r bytes => m.changed (m.write r bytes)
  | .setMode r mode => m.changed (m.setMode r mode)
  | .sync r => m.unchanged ((m.locate true r).map fun _ => ())
  | .replace source target => m.changed (m.replace source target)
  | .remove r => m.changed (m.remove r)
  | .touch r => m.unchanged ((m.locate true r).map fun _ => ())
  | .list directory => m.unchanged (m.list directory)

end Machine

end ArtifactPatch
