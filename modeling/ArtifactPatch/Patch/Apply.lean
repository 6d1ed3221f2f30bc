/-
  ArtifactPatch.Patch.Apply
  ─────────────────────────
  **PLANNING AND APPLYING A PATCH.**

  Rules run in order, each on the text that the rules before it left.  A rule
  whose matches are out of bounds changes nothing and fails the plan, but the
  rules after it still run, so that the plan reports every failure.  Applying
  takes the backup first, plans, and writes only a complete plan.
-/
import ArtifactPatch.Patch.Outcome

namespace ArtifactPatch

/-! ## §1. Plans. -/

/-- Rules carried out on a text, one after the other. -/
def Rule.runAll : List Rule → Text → Except PatchError (List RuleOutcome × Text)
  | [], content => .ok ([], content)
  | r :: rules, content => do
      let replacements ← (r.replaceAll content).mapError .rule
      let status := r.statusFor replacements.length
      let next ←
        if status.isOk then
          (Edit.applyAll content (replacements.map Replacement.toEdit)).mapError .edit
        else pure content
      let (outcomes, final) ← runAll rules next
      return (⟨r.id, replacements.length, status, replacements⟩ :: outcomes, final)

/-- What rules make of an artifact. -/
structure Plan where
  artifact : String
  outcomes : List RuleOutcome
  /-- The new text, unless a rule fell short. -/
  content : Option ArtifactText
  /-- The backup that was asked for, once the plan is applied. -/
  backup : Option BackupOutcome
  deriving Repr, DecidableEq

namespace Plan

/-- No rule fell short. -/
def isComplete (p : Plan) : Bool :=
  p.content.isSome

/-- The outcomes of rules that fell short. -/
def failures (p : Plan) : List RuleOutcome :=
  p.outcomes.filter (!·.isOk)

/-- Matches of all rules together. -/
def totalOccurrences (p : Plan) : Nat :=
  p.outcomes.foldr (fun o total => o.occurrences + total) 0

/-- The plan of some rules for a text. -/
def ofText (artifact : String) (text : ArtifactText) (rules : List Rule) :
    Except PatchError Plan := do
  let (outcomes, content) ← Rule.runAll rules text.content
  let complete := outcomes.all RuleOutcome.isOk
  return ⟨artifact, outcomes, if complete then some (text.withContent content) else none, none⟩

end Plan

namespace Store

/-- Plan some rules for an artifact as it stands on disk. -/
def plan (s : Store) (name : String) (rules : List Rule) : Attempt PatchError Plan := do
  let text ← Attempt.mapError .store (s.read name)
  Attempt.ofExcept (Plan.ofText name text rules)

/-! ## §2. Applying. -/

/-- Back an artifact up, plan, and write a complete plan. -/
def applyRules (s : Store) (name : String) (rules : List Rule) : Attempt PatchError Plan := do
  let backup ← Attempt.mapError .store (s.backup name)
  let p ← s.plan name rules
  let p := { p with backup := some backup }
  match p.content with
  | none => throw (.mismatch name p.failures)
  | some text =>
      Attempt.mapError .store (s.write name text)
      return p

end Store

end ArtifactPatch
