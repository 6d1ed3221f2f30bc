/-
  ArtifactPatch.Package.Manifest
  ──────────────────────────────
  **PACKAGE MANIFESTS.**

  A manifest is a JSON object.  Of its members only the name and the version
  are read, each at most once, and each a string or null.  An array of up to
  two strings or nulls stands for a name and a version too.
-/
import ArtifactPatch.Package.JsonText

namespace ArtifactPatch

/-- What a package says about itself. -/
structure Manifest where
  name : Option String
  version : Option String
  deriving Repr, DecidableEq

namespace Manifest

open JsonText

/-- The members of an object up to its brace; `name` and `version` are those
that have been read. -/
def members? (fuel : Nat) (name version : Option (Option String)) (t : Text) :
    Option (Manifest × Text) :=
  match fuel with
  | 0 => none
  | fuel + 1 => do
      let (key, rest) ← string? t
      let rest ← mark? ':' rest
      let (name, version, rest) ←
        if key = "name" then
          if name.isSome then none
          else (optionalString? rest).map fun (s, rest) => (some s, version, rest)
        else if key = "version" then
          if version.isSome then none
          else (optionalString? rest).map fun (s, rest) => (name, some s, rest)
        else (skip? rest).map (name, version, ·)
      match skipBlanks rest with
      | ',' :: rest => members? fuel name version rest
      | '\x7d' :: rest => some (⟨name.getD none, version.getD none⟩, rest)
      | _ => none

/-- An array of at most `room` strings or nulls, up to its bracket. -/
def items? (t : Text) : (room : Nat) → Option (List (Option String) × Text)
  | 0 => none
  | room + 1 => do
      let (first, rest) ← optionalString? t
      match skipBlanks rest with
      | ',' :: rest => (items? rest room).map fun (more, rest) => (first :: more, rest)
      | ']' :: rest => some ([first], rest)
      | _ => none

/-- A manifest at the front of a text. -/
def front? (t : Text) : Option (Manifest × Text) :=
  match skipBlanks t with
  | '\x7b' :: rest =>
      match mark? '\x7d' rest with
      | some rest => some (⟨none, none⟩, rest)
      | none => members? (rest.length + 1) none none rest
  | '[' :: rest =>
      match mark? ']' rest with
      | some rest => some (⟨none, none⟩, rest)
      | none => (items? rest 2).map fun (items, rest) =>
          (⟨(items[0]?).getD none, (items[1]?).getD none⟩, rest)
  | _ => none

/-- Read a manifest; nothing but blanks may stand behind it. -/
def parse? (t : Text) : Option Manifest := do
  let (m, rest) ← front? t
  if (skipBlanks rest).isEmpty then some m else none

end Manifest

end ArtifactPatch
