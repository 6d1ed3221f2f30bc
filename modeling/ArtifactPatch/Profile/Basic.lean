/-
  ArtifactPatch.Profile.Basic
  ───────────────────────────
  **PATCH PROFILES.**

  A profile says which package to patch, which of its files are artifacts,
  which rules change them, and what they must contain afterwards.  Rules and
  expectations name the artifact that they are about; they are compiled
  artifact by artifact, in the order in which the profile lists them.
-/
import ArtifactPatch.Rule
import ArtifactPatch.Expectation

namespace ArtifactPatch

/-! ## §1. Entries. -/

/-- A rule as a profile writes it. -/
structure RuleEntry where
  id : String
  artifact : String
  description : Option String
  pattern : String
  template : String
  min : Nat
  max : Option Nat
  deriving Repr, DecidableEq

/-- Compile the rule of an entry. -/
def RuleEntry.compile (e : RuleEntry) : Except RuleError Rule := do
  let r ← Rule.compile e.id e.pattern e.template
  return (r.withMin e.min).withMax e.max

/-- What an artifact must contain, as a profile writes it. -/
inductive Demand where
  | marker (text : String) (min : Nat)
  | literal (text : String)
  | shape (pattern : String) (min : Nat)
  deriving Repr, DecidableEq

/-- Compile the expectation of a demand. -/
def Demand.compile : Demand → Except RuleError Expectation
  | .marker text min => .ok (.marker text.toList min)
  | .literal text => .ok (.literal text.toList)
  | .shape pattern min => (Pattern.compile pattern).map (.shape · min)

/-- A demand on an artifact. -/
structure ExpectationEntry where
  artifact : String
  demand : Demand
  deriving Repr, DecidableEq

/-! ## §2. Profiles. -/

/-- A profile. -/
structure Profile where
  name : String
  description : Option String
  /-- The package that the artifacts belong to. -/
  package : String
  /-- The package versions that may be patched. -/
  versionRange : Option String
  artifacts : List Artifact
  rules : List RuleEntry
  expectations : List ExpectationEntry
  deriving Repr, DecidableEq

namespace Profile

/-- A profile that says nothing. -/
def empty : Profile :=
  ⟨"", none, "", none, [], [], []⟩

/-- The compiled rules for an artifact. -/
def rulesFor (p : Profile) (artifact : String) : Except RuleError (List Rule) :=
  (p.rules.filter (·.artifact == artifact)).mapM RuleEntry.compile

/-- The compiled expectations for an artifact. -/
def expectationsFor (p : Profile) (artifact : String) : Except RuleError (List Expectation) :=
  (p.expectations.filter (·.artifact == artifact)).mapM (·.demand.compile)

end Profile

end ArtifactPatch
