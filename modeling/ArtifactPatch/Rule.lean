/-
  ArtifactPatch.Rule
  ──────────────────
  **REPLACEMENT RULES.**

  A rule replaces every match of a pattern by a template over the same
  placeholders, and bounds how many matches there may be.  The template may
  not repeat the pattern, and the lower bound is at least one: a rule that
  finds nothing has failed.
-/
import ArtifactPatch.Template
import ArtifactPatch.Edit

namespace ArtifactPatch

/-! ## §1. Replacements. -/

/-- A match, as found and as filled in. -/
structure Replacement where
  start : Nat
  stop : Nat
  found : Text
  replacement : Text
  deriving Repr, DecidableEq

/-- The edit that carries a replacement out and expects what was found. -/
def Replacement.toEdit (r : Replacement) : Edit :=
  ⟨r.start, r.stop, r.replacement, Expected.ofText r.found⟩

/-! ## §2. Rules. -/

/-- How a number of matches compares with the bounds of a rule. -/
inductive RuleStatus where
  | withinBounds
  | belowMinimum (min : Nat)
  | aboveMaximum (max : Nat)
  deriving Repr, DecidableEq

namespace RuleStatus

/-- Within the bounds. -/
def isOk : RuleStatus → Bool
  | .withinBounds => true
  | _ => false

/-- More matches than allowed. -/
def isAboveMaximum : RuleStatus → Bool
  | .aboveMaximum _ => true
  | _ => false

/-- The wording of each status. -/
def describe : RuleStatus → String
  | .withinBounds => "rewritten"
  | .belowMinimum min => "expected at least " ++ toString min
  | .aboveMaximum max => "expected at most " ++ toString max

end RuleStatus

/-- A compiled rule with its bounds on the number of matches. -/
structure Rule where
  id : String
  pattern : Pattern
  template : Template
  min : Nat
  max : Option Nat
  same_placeholders : pattern.placeholders = template.placeholders
  not_noOp : pattern.segments ≠ template.segments
  one_le_min : 1 ≤ min
  deriving Repr, DecidableEq

namespace Rule

/-- Compile a rule that asks for one match or more. -/
def compile (id patternSource templateSource : String) : Except RuleError Rule := do
  let pattern ← Pattern.compile patternSource
  let template ← Template.compile templateSource
  let bound := pattern.placeholders
  let used := template.placeholders
  if hp : pattern.placeholders = template.placeholders then
    if hs : pattern.segments = template.segments then
      throw (.noOp id)
    else
      return ⟨id, pattern, template, 1, none, hp, hs, Nat.le_refl 1⟩
  else
    throw (.placeholderMismatch id
      (bound.filter (!used.contains ·)) (used.filter (!bound.contains ·)))

/-- Ask for at least `min` matches; zero is raised to one. -/
def withMin (r : Rule) (min : Nat) : Rule :=
  { r with min := Nat.max min 1, one_le_min := Nat.le_max_right min 1 }

/-- Allow at most `max` matches, or any number. -/
def withMax (r : Rule) (max : Option Nat) : Rule :=
  { r with max := max }

/-- How a number of matches compares with the bounds. -/
def statusFor (r : Rule) (occurrences : Nat) : RuleStatus :=
  if occurrences < r.min then .belowMinimum r.min
  else match r.max with
    | some max => if max < occurrences then .aboveMaximum max else .withinBounds
    | none => .withinBounds

/-- Replace one match. -/
def replace (r : Rule) (m : Match) : Except RuleError Replacement :=
  (r.template.render m.captures).map (⟨m.start, m.stop, m.text, ·⟩)

/-- Replace every match in a text. -/
def replaceAll (r : Rule) (content : Text) : Except RuleError (List Replacement) :=
  (r.pattern.matches content).mapM r.replace

end Rule

end ArtifactPatch
