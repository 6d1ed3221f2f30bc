/-
  ArtifactPatch.Difference.Basic
  ──────────────────────────────
  **CHANGES FROM ONE LIST TO ANOTHER.**

  A difference is a list of chunks.  Each chunk carries its own items: those
  that both lists keep, those that only the old list has, and those that only
  the new one has.  Kept and deleted items together are the old list, kept and
  inserted ones the new.
-/

namespace ArtifactPatch

/-! ## §1. Chunks. -/

/-- What becomes of items. -/
inductive ChangeKind where
  | keep
  | delete
  | insert
  deriving Repr, DecidableEq

/-- Items that share a fate. -/
structure Chunk (α : Type) where
  kind : ChangeKind
  items : List α
  deriving Repr, DecidableEq

/-- Chunks in order. -/
abbrev Difference (α : Type) := List (Chunk α)

namespace Difference

variable {α : Type}

/-- A chunk, unless it would be empty. -/
def chunk (kind : ChangeKind) (items : List α) : Difference α :=
  if items.isEmpty then [] else [⟨kind, items⟩]

/-! ## §2. Grouping. -/

/-- Change by change, where between two kept stretches all that is deleted
comes before all that is inserted. -/
def grouped (d : Difference α) : List (ChangeKind × α) :=
  go [] [] d
where
  /-- The deleted and inserted items wait for the next kept chunk. -/
  go (deleted inserted : List α) : Difference α → List (ChangeKind × α)
    | [] => flush deleted inserted
    | c :: rest =>
        match c.kind with
        | .keep => flush deleted inserted ++ c.items.map (.keep, ·) ++ go [] [] rest
        | .delete => go (deleted ++ c.items) inserted rest
        | .insert => go deleted (inserted ++ c.items) rest
  flush (deleted inserted : List α) : List (ChangeKind × α) :=
    deleted.map (.delete, ·) ++ inserted.map (.insert, ·)

end Difference

/-! ## §3. Common ends. -/

/-- Length of the common beginning of two lists. -/
def commonPrefixLength {α : Type} [BEq α] : List α → List α → Nat
  | a :: as, b :: bs => if a == b then commonPrefixLength as bs + 1 else 0
  | _, _ => 0

/-- Length of the common end of two lists. -/
def commonSuffixLength {α : Type} [BEq α] (as bs : List α) : Nat :=
  commonPrefixLength as.reverse bs.reverse

end ArtifactPatch
