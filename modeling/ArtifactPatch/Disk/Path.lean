/-
  ArtifactPatch.Disk.Path
  ───────────────────────
  **PATHS AS TEXT.**

  Paths come from profiles, arguments and the environment as text and are
  shown again as they were written, so joining and cutting work on the text.
  A `Route` is what the text says to a file system: where to start, which
  names to follow, and whether the last of them must be a directory.  It keeps
  the text beside that, because a file system also looks at its length.
-/
import ArtifactPatch.Text.Basic

namespace ArtifactPatch

/-! ## §1. Text. -/

namespace PathText

/-- A path from the root. -/
def isAbsolute (p : String) : Bool :=
  p.toList.head? == some '/'

/-- Put one path behind another.  An absolute path takes over; otherwise one
slash stands between, unless the left side is empty or brings its own. -/
def join (left right : String) : String :=
  if isAbsolute right || left.isEmpty then right
  else if left.toList.getLast? == some '/' then left ++ right
  else left ++ "/" ++ right

/-- The pieces between slashes, empty ones included. -/
def pieces (p : String) : List String :=
  (Text.splitOn '/' p.toList).map String.ofList

/-- Whether the piece at an index is a component: empty pieces never are, and
a dot only at the front of a relative path. -/
def isComponent (piece : String) (index : Nat) : Bool :=
  !piece.isEmpty && (piece != "." || index == 0)

/-- The path itself, then the path without its last component, and so on down
to the root or, for a relative path, the empty path. -/
def ancestors (p : String) : List String :=
  let ps := pieces p
  let ends := (ps.zipIdx.filter fun (piece, i) => isComponent piece i).map Prod.snd
  match ends.reverse with
  | [] => [p]
  | _ :: shorter =>
      p :: shorter.map (fun i => "/".intercalate (ps.take (i + 1)))
        ++ [if isAbsolute p then "/" else ""]

/-- The path without its last component; the root and the empty path have
none. -/
def parent? (p : String) : Option String :=
  (ancestors p)[1]?

end PathText

/-! ## §2. Locations. -/

/-- A place in the tree: the names from the root down. -/
abbrev Location := List String

namespace Location

/-- A location as an absolute path. -/
def text (l : Location) : String :=
  "/" ++ "/".intercalate l

/-- The directory that holds a location; the root holds itself. -/
def parent (l : Location) : Location :=
  l.dropLast

/-- The location whose last name carries a suffix. -/
def withSuffix (l : Location) (suffix : String) : Location :=
  match l.getLast? with
  | none => [suffix]
  | some name => l.dropLast ++ [name ++ suffix]

/-- Whether a location is `root` or lies below it. -/
def isWithin (root l : Location) : Bool :=
  root.isPrefixOf l

end Location

/-! ## §3. Routes. -/

/-- A path as a file system follows it. -/
structure Route where
  /-- The path as it is written. -/
  text : String
  /-- Start at the root, or else in the working directory. -/
  absolute : Bool
  /-- Names to follow, `.` and `..` among them. -/
  names : List String
  /-- A slash at the end: the last name must be a directory. -/
  directory : Bool
  deriving Repr, DecidableEq

namespace Route

/-- The route of a path. -/
def ofText (p : String) : Route :=
  { text := p
    absolute := PathText.isAbsolute p
    names := (PathText.pieces p).filter (!·.isEmpty)
    directory := p.toList.getLast? == some '/' }

/-- The route to a location. -/
def ofLocation (l : Location) : Route :=
  ⟨l.text, true, l, false⟩

/-- Whether a path says nothing, and so leads nowhere. -/
def isEmpty (r : Route) : Bool :=
  !r.absolute && r.names.isEmpty

/-- Follow one more name. -/
def child (r : Route) (name : String) : Route :=
  { r with text := PathText.join r.text name, names := r.names ++ [name], directory := false }

end Route

end ArtifactPatch
