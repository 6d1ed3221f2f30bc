/-
  ArtifactPatch.Profile.Load
  ──────────────────────────
  **LOADING A PROFILE.**

  A profile comes from a text, from a file, or is the built-in one.  Only a
  profile without issues is handed on.
-/
import ArtifactPatch.Profile.Reader
import ArtifactPatch.Profile.Validate
import ArtifactPatch.Profile.Builtin

namespace ArtifactPatch

/-! ## §1. Errors. -/

/-- Why a text is no profile. -/
inductive NotationError where
  /-- The line that is wrong. -/
  | badLine (line : Nat)
  /-- A field that is missing or holds a value of the wrong kind. -/
  | badField
  deriving Repr, DecidableEq

/-- The wording of each error. -/
def NotationError.message : NotationError → String
  | .badLine line => "parse error at line " ++ toString line
  | .badField => "a field is missing or of the wrong type"

/-- Why a profile is not loaded; `path` is the file that it came from. -/
inductive ProfileError where
  | unreadable (path : String) (reason : OsError)
  | notToml (path : Option String) (reason : NotationError)
  | invalid (path : Option String) (issues : List ProfileIssue)
  deriving Repr, DecidableEq

namespace ProfileError

/-- The path of an error, behind a space. -/
def origin (path : Option String) : String :=
  match path with
  | some p => " " ++ p
  | none => ""

/-- A line for each issue. -/
def listIssues (issues : List ProfileIssue) : String :=
  "\n".intercalate (issues.map ProfileIssue.message)

/-- What lies behind an error. -/
def reason : ProfileError → String
  | .unreadable _ reason => reason.message
  | .notToml _ reason => reason.message
  | .invalid _ issues => listIssues issues

/-- The wording of each error. -/
def message (e : ProfileError) : String :=
  (match e with
    | .unreadable path _ => "cannot read profile " ++ path ++ ": "
    | .notToml path _ => "profile" ++ origin path ++ " is not valid TOML: "
    | .invalid path _ => "profile" ++ origin path ++ " is invalid:\n") ++ e.reason

/-- The error and what lies behind it, outermost first. -/
def chain (e : ProfileError) : List String :=
  [e.message, e.reason]

end ProfileError

/-! ## §2. Loading. -/

namespace Profile

/-- Read a profile; `path` is the file that the text came from. -/
def read (path : Option String) (source : Text) : Except ProfileError Profile := do
  let document ← (Toml.parse source).mapError (.notToml path <| .badLine ·)
  match ofToml? document with
  | none => throw (.notToml path .badField)
  | some p => if p.issues.isEmpty then return p else throw (.invalid path p.issues)

/-- Load a profile from a file. -/
def loadFile (path : String) : Attempt ProfileError Profile := do
  let source ← Attempt.mapError (.unreadable path) (Disk.readText (.ofText path))
  Attempt.ofExcept (read (some path) source)

/-- Load a profile from a file, or take the built-in one. -/
def load : Option String → Attempt ProfileError Profile
  | some path => loadFile path
  | none => pure builtin

end Profile

end ArtifactPatch
