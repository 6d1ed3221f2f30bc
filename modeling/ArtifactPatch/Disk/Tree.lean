/-
  ArtifactPatch.Disk.Tree
  ───────────────────────
  **THE FILE TREE.**

  A tree maps locations to nodes: directories, regular files and symbolic
  links.  The root is always a directory.  `Tree.follow` leads a route through
  the tree the way a file system does: every name but the last must lead to a
  directory, links are followed up to forty times, and the last name may be
  vacant.
-/
import ArtifactPatch.Disk.Path

namespace ArtifactPatch

/-! ## §1. Errors. -/

/-- Why a call to the file system fails. -/
inductive OsError where
  | notFound
  | notADirectory
  | isADirectory
  | tooManyLinks
  | nameTooLong
  | busy
  /-- A path with a NUL character in it. -/
  | nulInPath
  /-- A target that is no place in any directory. -/
  | noParent
  /-- Bytes that are no UTF-8 where a text was to be read. -/
  | invalidUtf8
  /-- Any other failure, in the system's words. -/
  | other (description : String)
  deriving Repr, DecidableEq

/-- The system's wording. -/
def OsError.message : OsError → String
  | .notFound => "No such file or directory (os error 2)"
  | .notADirectory => "Not a directory (os error 20)"
  | .isADirectory => "Is a directory (os error 21)"
  | .tooManyLinks => "Too many levels of symbolic links (os error 40)"
  | .nameTooLong => "File name too long (os error 36)"
  | .busy => "Device or resource busy (os error 16)"
  | .nulInPath => "file name contained an unexpected NUL byte"
  | .noParent => "path has no parent directory"
  | .invalidUtf8 => "stream did not contain valid UTF-8"
  | .other description => description

/-! ## §2. Nodes and trees. -/

/-- Permission bits. -/
abbrev Mode := Nat

/-- Bytes are compared in one way, whatever else a module imports. -/
instance decEqBytes : DecidableEq ByteArray :=
  ByteArray.instDecidableEq

/-- What stands at a location. -/
inductive Node where
  | directory (mode : Mode)
  | file (bytes : ByteArray) (mode : Mode)
  | link (target : String)
  deriving DecidableEq

/-- A file tree: the nodes below the root, each location once. -/
structure Tree where
  entries : List (Location × Node)

namespace Tree

/-- Nothing but the root. -/
def empty : Tree := ⟨[]⟩

/-- The node at a location. -/
def get? (t : Tree) (l : Location) : Option Node :=
  if l.isEmpty then some (.directory 0o755) else t.entries.lookup l

/-- The tree without the node at a location. -/
def erase (t : Tree) (l : Location) : Tree :=
  ⟨t.entries.filter (·.1 != l)⟩

/-- The tree with a node at a location. -/
def put (t : Tree) (l : Location) (n : Node) : Tree :=
  ⟨(l, n) :: (t.erase l).entries⟩

/-- The names in a directory, with their nodes. -/
def children (t : Tree) (l : Location) : List (String × Node) :=
  t.entries.filterMap fun (m, n) =>
    match m.getLast? with
    | some name => if m.dropLast == l then some (name, n) else none
    | none => none

/-! ## §3. Following a route. -/

/-- Where a route ends. -/
inductive Spot where
  /-- A location that holds a node. -/
  | node (l : Location)
  /-- A free name in a directory; `directory` when only a directory may go there. -/
  | vacant (l : Location) (directory : Bool)
  deriving Repr, DecidableEq

/-- Longest name, in bytes. -/
def maxName : Nat := 255

/-- Number of links that one route may follow. -/
def maxLinks : Nat := 40

/-- Follow names from a directory.  `last` says whether a link at the very end
is followed too, `directory` that the end must be a directory, and `onLink` how
to go on at the target of a link. -/
def walkNames (t : Tree) (last : Bool)
    (onLink : Location → List String → Bool → Except OsError Spot) (here : Location)
    (names : List String) (directory : Bool) : Except OsError Spot :=
  match names with
  | [] => .ok (.node here)
  | name :: rest =>
      if name == "." then walkNames t last onLink here rest directory
      else if name == ".." then walkNames t last onLink here.parent rest directory
      else if maxName < name.utf8ByteSize then .error .nameTooLong
      else
        let there := here ++ [name]
        match t.get? there with
        | none => if rest.isEmpty then .ok (.vacant there directory) else .error .notFound
        | some (.directory _) => walkNames t last onLink there rest directory
        | some (.file ..) =>
            if rest.isEmpty && !directory then .ok (.node there) else .error .notADirectory
        | some (.link target) =>
            if rest.isEmpty && !last && !directory then .ok (.node there)
            else
              let r := Route.ofText target
              onLink (if r.absolute then [] else here) (r.names ++ rest)
                (directory || (rest.isEmpty && r.directory))

/-- Follow names from a directory, over a number of links at most. -/
def walk (t : Tree) (last : Bool) :
    (links : Nat) → Location → List String → Bool → Except OsError Spot
  | 0 => walkNames t last fun _ _ _ => .error .tooManyLinks
  | links + 1 => walkNames t last (walk t last links)

/-- Follow a route from a working directory. -/
def follow (t : Tree) (cwd : Location) (last : Bool) (r : Route) : Except OsError Spot :=
  if r.isEmpty then .error .notFound
  else walk t last maxLinks (if r.absolute then [] else cwd) r.names r.directory

/-- The location of the node at the end of a route. -/
def locate (t : Tree) (cwd : Location) (last : Bool) (r : Route) : Except OsError Location :=
  match t.follow cwd last r with
  | .error e => .error e
  | .ok (.node l) => .ok l
  | .ok (.vacant ..) => .error .notFound

end Tree

end ArtifactPatch
