/-
  ArtifactPatch.Difference.Compact
  ────────────────────────────────
  **BRINGING CHANGES TOGETHER.**

  Inserted items can slide over kept ones that they equal, without changing
  what the difference says.  Every deletion, and then every insertion, goes up
  as far as it can and then down as far as it can; on its way it changes places
  with chunks of the other kind and takes in those of its own.
-/
import ArtifactPatch.Difference.Shortest

namespace ArtifactPatch.Difference

variable {α : Type} [BEq α]

/-! ## §1. A chunk among its neighbours. -/

/-- A chunk with the chunks above it, the nearest first, and those below. -/
structure Cursor (α : Type) where
  above : Difference α
  here : Chunk α
  below : Difference α

namespace Cursor

/-- Put kept items in front of some chunks. -/
def keepBefore (items : List α) : Difference α → Difference α
  | ⟨.keep, more⟩ :: rest => ⟨.keep, items ++ more⟩ :: rest
  | d => ⟨.keep, items⟩ :: d

/-- Put kept items behind chunks that stand in reverse. -/
def keepAfter (items : List α) : Difference α → Difference α
  | ⟨.keep, more⟩ :: rest => ⟨.keep, more ++ items⟩ :: rest
  | d => ⟨.keep, items⟩ :: d

/-- One step up, if there is one.  Only insertions slide over kept items. -/
def up? (c : Cursor α) : Option (Cursor α) :=
  match c.above with
  | [] => none
  | ⟨.keep, kept⟩ :: above =>
      let n := if c.here.kind = .insert then commonSuffixLength kept c.here.items else 0
      if n = 0 then (if kept.isEmpty then some { c with above } else none)
      else
        let slid := kept.drop (kept.length - n)
        some ⟨chunk .keep (kept.take (kept.length - n)) ++ above,
          ⟨.insert, slid ++ c.here.items.take (c.here.items.length - n)⟩,
          keepBefore slid c.below⟩
  | next :: above =>
      if next.kind = c.here.kind then
        some { c with above, here := ⟨next.kind, next.items ++ c.here.items⟩ }
      else some { c with above, below := next :: c.below }

/-- One step down, if there is one. -/
def down? (c : Cursor α) : Option (Cursor α) :=
  match c.below with
  | [] => none
  | ⟨.keep, kept⟩ :: below =>
      let n := if c.here.kind = .insert then commonPrefixLength kept c.here.items else 0
      if n = 0 then (if kept.isEmpty then some { c with below } else none)
      else
        let slid := kept.take n
        some ⟨keepAfter slid c.above, ⟨.insert, c.here.items.drop n ++ slid⟩,
          chunk .keep (kept.drop n) ++ below⟩
  | next :: below =>
      if next.kind = c.here.kind then
        some { c with below, here := ⟨next.kind, c.here.items ++ next.items⟩ }
      else some { c with above := next :: c.above, below }

/-- Step while there is a step, `fuel` times at most. -/
def exhaust (step : Cursor α → Option (Cursor α)) : Nat → Cursor α → Cursor α
  | 0, c => c
  | fuel + 1, c =>
      match step c with
      | some c => exhaust step fuel c
      | none => c

/-- Go up and then down, as far as possible. -/
def settle (fuel : Nat) (c : Cursor α) : Cursor α :=
  exhaust down? fuel (exhaust up? fuel c)

end Cursor

/-! ## §2. Whole differences. -/

/-- Settle every chunk of a kind, from the top to the bottom. -/
def settleAll (kind : ChangeKind) (d : Difference α) : Difference α :=
  go bound [] d
where
  /-- More steps than a chunk can take: each passes a chunk or an item. -/
  weight : Nat := d.foldr (fun c total => c.items.length + 1 + total) 1
  bound : Nat := weight * weight
  go : Nat → Difference α → Difference α → Difference α
    | 0, above, rest => above.reverse ++ rest
    | _, above, [] => above.reverse
    | fuel + 1, above, here :: below =>
        if here.kind = kind then
          let c := Cursor.settle bound ⟨above, here, below⟩
          go fuel (c.here :: c.above) c.below
        else go fuel (here :: above) below

/-- Bring the changes of a difference together. -/
def compact (d : Difference α) : Difference α :=
  settleAll .insert (settleAll .delete d)

/-- The changes from one list to another. -/
def changes (old new : List α) : List (ChangeKind × α) :=
  (compact (shortest old new)).grouped

end ArtifactPatch.Difference
