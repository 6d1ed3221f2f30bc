/-
  ArtifactPatch.Profile.Reader
  ────────────────────────────
  **PROFILES FROM TOML.**

  A record is read from a table, whose other keys are ignored, or from an
  array of its fields in order, of which those with defaults may be left out
  at the end.  A date or time counts as a table without any of the keys.
  Counts are integers that are not negative.
-/
import ArtifactPatch.Profile.Basic
import ArtifactPatch.Toml.Document

namespace ArtifactPatch

/-! ## §1. Records. -/

/-- The fields of a record, before they are read. -/
inductive RawRecord where
  | keyed (entries : List (String × Toml.Value))
  | listed (items : List Toml.Value)

namespace RawRecord

/-- The fields that a value may hold. -/
def ofValue? : Toml.Value → Option RawRecord
  | .table entries => some (.keyed entries)
  | .array items => some (.listed items)
  | .dateTime => some (.keyed [])
  | _ => none

/-- A field by its name, or by its position among the fields. -/
def get? (r : RawRecord) (position : Nat) (name : String) : Option Toml.Value :=
  match r with
  | .keyed entries => entries.lookup name
  | .listed items => items[position]?

/-- A field that must be there. -/
def required? {α : Type} (r : RawRecord) (read : Toml.Value → Option α) (position : Nat)
    (name : String) : Option α :=
  (r.get? position name).bind read

/-- A field that may be left out. -/
def optional? {α : Type} (r : RawRecord) (read : Toml.Value → Option α) (default : α)
    (position : Nat) (name : String) : Option α :=
  match r.get? position name with
  | some v => read v
  | none => some default

end RawRecord

/-- A string. -/
def Toml.Value.string? : Toml.Value → Option String
  | .string t => some (String.ofList t)
  | _ => none

/-- An integer that is not negative. -/
def Toml.Value.count? : Toml.Value → Option Nat
  | .integer (.ofNat n) => some n
  | _ => none

/-- An array of what can be read from its items. -/
def Toml.Value.listOf? {α : Type} (read : Toml.Value → Option α) :
    Toml.Value → Option (List α)
  | .array items => items.mapM read
  | _ => none

/-! ## §2. Entries. -/

open Toml.Value (string? count? listOf?)

/-- Read an artifact. -/
def Artifact.ofToml? (v : Toml.Value) : Option Artifact := do
  let r ← RawRecord.ofValue? v
  return ⟨← r.required? string? 0 "name", ← r.required? string? 1 "path"⟩

/-- Number of hits that a rule or a demand asks for where it does not say. -/
def defaultMin : Nat := 1

/-- Read a rule. -/
def RuleEntry.ofToml? (v : Toml.Value) : Option RuleEntry := do
  let r ← RawRecord.ofValue? v
  return ⟨← r.required? string? 0 "id", ← r.required? string? 1 "artifact",
    ← r.optional? (string? · |>.map some) none 2 "description",
    ← r.required? string? 3 "pattern", ← r.required? string? 4 "rewrite",
    ← r.optional? count? defaultMin 5 "min_occurrences",
    ← r.optional? (count? · |>.map some) none 6 "max_occurrences"⟩

/-- An expectation of some type. -/
def ExpectationEntry.ofRecord? (type : String) (r : RawRecord) : Option ExpectationEntry := do
  let artifact ← r.required? string? 0 "artifact"
  match type with
  | "marker" =>
      return ⟨artifact, .marker (← r.required? string? 1 "marker")
        (← r.optional? count? defaultMin 2 "min_count")⟩
  | "literal" => return ⟨artifact, .literal (← r.required? string? 1 "text")⟩
  | "shape" =>
      return ⟨artifact, .shape (← r.required? string? 1 "pattern")
        (← r.optional? count? defaultMin 2 "min_count")⟩
  | _ => none

/-- Number of fields of an expectation of some type. -/
def ExpectationEntry.width (type : String) : Nat :=
  if type = "literal" then 2 else 3

/-- Read an expectation.  Its type is a key of the table, or stands in front of
an array, which then may not be too long. -/
def ExpectationEntry.ofToml? : Toml.Value → Option ExpectationEntry
  | .table entries => do
      let type ← (entries.lookup "type").bind string?
      ofRecord? type (.keyed entries)
  | .array (first :: items) => do
      let type ← string? first
      if items.length ≤ width type then ofRecord? type (.listed items) else none
  | _ => none

/-! ## §3. Profiles. -/

/-- Read a profile from the pairs of a document. -/
def Profile.ofToml? (document : List (String × Toml.Value)) : Option Profile := do
  let r := RawRecord.keyed document
  let about ← r.optional? RawRecord.ofValue? (.keyed []) 0 "meta"
  return ⟨← about.optional? string? "" 0 "name",
    ← about.optional? (string? · |>.map some) none 1 "description",
    ← about.optional? string? "" 2 "package",
    ← about.optional? (string? · |>.map some) none 3 "version_range",
    ← r.optional? (listOf? Artifact.ofToml?) [] 1 "artifacts",
    ← r.optional? (listOf? RuleEntry.ofToml?) [] 2 "rules",
    ← r.optional? (listOf? ExpectationEntry.ofToml?) [] 3 "expect"⟩

end ArtifactPatch
