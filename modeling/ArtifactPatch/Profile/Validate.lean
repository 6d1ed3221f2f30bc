/-
  ArtifactPatch.Profile.Validate
  ──────────────────────────────
  **WHAT IS WRONG WITH A PROFILE.**

  Validation lists every issue: first those of the whole profile, then those
  of each artifact, each rule and each expectation.  A blank name declares
  nothing, so whatever refers to it refers to no artifact.
-/
import ArtifactPatch.Profile.Basic
import ArtifactPatch.Text.Blank

namespace ArtifactPatch

/-! ## §1. Issues. -/

/-- Fields that must not be left empty. -/
inductive RequiredField where
  | package
  | artifactName
  | artifactPath
  | ruleId
  | marker
  | literalText
  deriving Repr, DecidableEq

/-- The name of a field. -/
def RequiredField.name : RequiredField → String
  | .package => "meta.package"
  | .artifactName => "artifacts.name"
  | .artifactPath => "path"
  | .ruleId => "rules.id"
  | .marker => "marker"
  | .literalText => "text"

/-- What carries a name that must be unique. -/
inductive NamedThing where
  | artifact
  | rule
  deriving Repr, DecidableEq

namespace NamedThing

/-- The word for it. -/
def word : NamedThing → String
  | .artifact => "artifact"
  | .rule => "rule"

/-- The field that holds its name. -/
def nameField : NamedThing → RequiredField
  | .artifact => .artifactName
  | .rule => .ruleId

end NamedThing

/-- Something wrong with a profile. -/
inductive ProfileIssue where
  | noArtifacts
  | noRules
  | missingField (owner : Option String) (field : RequiredField)
  | duplicateName (thing : NamedThing) (name : String)
  | unknownArtifact (owner artifact : String)
  | invalidRule (rule : String) (reason : RuleError)
  | invalidShape (owner : String) (reason : RuleError)
  /-- The upper bound of a rule lies below its lower bound. -/
  | boundsReversed (rule : String) (min max : Nat)
  deriving Repr, DecidableEq

/-- The wording of each issue. -/
def ProfileIssue.message : ProfileIssue → String
  | .noArtifacts => "profile declares no artifacts"
  | .noRules => "profile contains no rules"
  | .missingField owner field =>
      (match owner with
        | some o => "'" ++ o ++ "' "
        | none => "") ++ "missing required field '" ++ field.name ++ "'"
  | .duplicateName thing name => "duplicate " ++ thing.word ++ " '" ++ name ++ "'"
  | .unknownArtifact owner artifact =>
      "'" ++ owner ++ "' targets undeclared artifact '" ++ artifact ++ "'"
  | .invalidRule rule reason => "rule '" ++ rule ++ "' does not compile: " ++ reason.message
  | .invalidShape owner reason =>
      "'" ++ owner ++ "' shape does not compile: " ++ reason.message
  | .boundsReversed rule min max =>
      "'" ++ rule ++ "' has invalid configuration: max_occurrences (" ++ toString max
        ++ ") is below min_occurrences (" ++ toString min ++ ")"

/-! ## §2. The issues of each entry. -/

/-- An issue where a condition holds. -/
def ProfileIssue.when (condition : Bool) (issue : ProfileIssue) : List ProfileIssue :=
  if condition then [issue] else []

open ProfileIssue (when)

/-- A name must not be blank, and not be among those `seen` before it. -/
def NamedThing.nameIssues (thing : NamedThing) (seen : List String) (name : String) :
    List ProfileIssue :=
  if Text.isBlankString name then [.missingField none thing.nameField]
  else when (seen.contains name) (.duplicateName thing name)

/-- The names that are known after one more; a blank name is not. -/
def NamedThing.see (seen : List String) (name : String) : List String :=
  if Text.isBlankString name then seen else name :: seen

/-- The issues of artifacts. -/
def Artifact.issues (seen : List String) : List Artifact → List ProfileIssue
  | [] => []
  | a :: rest =>
      NamedThing.artifact.nameIssues seen a.name
        ++ when (Text.isBlankString a.path) (.missingField (some a.name) .artifactPath)
        ++ Artifact.issues (NamedThing.see seen a.name) rest

/-- The issue of a rule that does not compile. -/
def RuleEntry.compileIssues (e : RuleEntry) : List ProfileIssue :=
  match e.compile with
  | .ok _ => []
  | .error reason => [.invalidRule e.id reason]

/-- The issues of rules on declared artifacts. -/
def RuleEntry.issues (declared seen : List String) : List RuleEntry → List ProfileIssue
  | [] => []
  | e :: rest =>
      NamedThing.rule.nameIssues seen e.id
        ++ when (!declared.contains e.artifact) (.unknownArtifact e.id e.artifact)
        ++ (match e.max with
          | some max => when (max < e.min) (.boundsReversed e.id e.min max)
          | none => [])
        ++ e.compileIssues
        ++ RuleEntry.issues declared (NamedThing.see seen e.id) rest

/-- How an issue names the expectation that it is about. -/
def ExpectationEntry.owner (e : ExpectationEntry) : String :=
  "expect[" ++ e.artifact ++ "]"

/-- The issues of a demand. -/
def Demand.issues (owner : String) : Demand → List ProfileIssue
  | .marker text _ => when text.isEmpty (.missingField (some owner) .marker)
  | .literal text => when text.isEmpty (.missingField (some owner) .literalText)
  | .shape pattern _ =>
      match Pattern.compile pattern with
      | .ok _ => []
      | .error reason => [.invalidShape owner reason]

/-- The issues of an expectation on declared artifacts. -/
def ExpectationEntry.issues (declared : List String) (e : ExpectationEntry) :
    List ProfileIssue :=
  when (!declared.contains e.artifact) (.unknownArtifact e.owner e.artifact)
    ++ e.demand.issues e.owner

/-! ## §3. The issues of a profile. -/

namespace Profile

/-- The artifact names that rules and expectations may refer to. -/
def declared (p : Profile) : List String :=
  (p.artifacts.map Artifact.name).filter (!Text.isBlankString ·)

/-- Everything wrong with a profile. -/
def issues (p : Profile) : List ProfileIssue :=
  when (Text.isBlankString p.package) (.missingField none .package)
    ++ when p.artifacts.isEmpty .noArtifacts
    ++ when p.rules.isEmpty .noRules
    ++ Artifact.issues [] p.artifacts
    ++ RuleEntry.issues p.declared [] p.rules
    ++ p.expectations.flatMap (ExpectationEntry.issues p.declared)

end Profile

end ArtifactPatch
