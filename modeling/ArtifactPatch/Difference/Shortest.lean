/-
  ArtifactPatch.Difference.Shortest
  ─────────────────────────────────
  **A SHORTEST DIFFERENCE.**

  A difference is a path through the grid of two lists, from one corner to the
  other: right for a deletion, down for an insertion, and diagonally, at no
  cost, for equal items.  Paths from both corners are made longer in turn until
  they meet; the grid is then cut at the meeting point and both parts are
  treated alike.  Of all shortest paths, the order in which diagonals are
  looked at picks one.
-/
import ArtifactPatch.Difference.Basic

namespace ArtifactPatch.Difference

variable {α : Type} [BEq α]

/-! ## §1. Frontiers. -/

/-- How far the paths of one corner have come on each diagonal.  The diagonals
are numbered from the corner, in both directions. -/
structure Frontier where
  reach : Array Nat
  middle : Nat

namespace Frontier

/-- A frontier with room for diagonals up to `width` on both sides. -/
def empty (width : Nat) : Frontier :=
  ⟨Array.replicate (2 * width + 3) 0, width + 1⟩

/-- How far a diagonal is reached. -/
def get (f : Frontier) (k : Int) : Nat :=
  (f.reach[(k + f.middle).toNat]?).getD 0

/-- A diagonal reached up to `x`. -/
def set (f : Frontier) (k : Int) (x : Nat) : Frontier :=
  { f with reach := f.reach.setIfInBounds (k + f.middle).toNat x }

/-- Where a path of `d` changes enters a diagonal: from the neighbour that is
reached further, by an insertion or by a deletion. -/
def enter (f : Frontier) (d k : Int) : Nat :=
  if k = -d ∨ (k ≠ d ∧ f.get (k - 1) < f.get (k + 1)) then f.get (k + 1)
  else f.get (k - 1) + 1

end Frontier

/-- Number of equal items of two arrays from two places on. -/
def runLength (old new : Array α) (x y : Nat) : Nat :=
  go (old.size - x) x y
where
  go : Nat → Nat → Nat → Nat
    | 0, _, _ => 0
    | n + 1, x, y =>
        match old[x]?, new[y]? with
        | some a, some b => if a == b then go n (x + 1) (y + 1) + 1 else 0
        | _, _ => 0

/-- The diagonals of paths with `d` changes, the highest first. -/
def diagonals (d : Nat) : List Int :=
  (List.range (d + 1)).map fun (i : Nat) => (d : Int) - 2 * (i : Int)

/-! ## §2. The meeting point. -/

/-- Make the paths of one corner longer by one change, diagonal by diagonal,
until one meets a path of the `other` corner; `meets` tells on which diagonals
that can happen.  Answers the place at which the last run of equal items
begins, and the place at which it ends. -/
def advance (old new : Array α) (d : Nat) (meets : Int → Bool) (other : Frontier)
    (delta : Int) : List Int → Frontier → Frontier × Option ((Nat × Int) × (Nat × Int))
  | [], f => (f, none)
  | k :: ks, f =>
      let x := f.enter d k
      let y := (x : Int) - k
      let n := if 0 ≤ y then runLength old new x y.toNat else 0
      let f := f.set k (x + n)
      if meets k && old.size ≤ x + n + other.get (delta - k) then
        (f, some ((x, y), (x + n, y + n)))
      else advance old new d meets other delta ks f

/-- A point on a shortest path, as a number of old and of new items before it. -/
def meetingPoint? (old new : Array α) : Option (Nat × Nat) :=
  let width := (old.size + new.size + 1) / 2 + 1
  go width 0 (.empty width) (.empty width)
where
  /-- Forward paths meet backward ones where the sizes differ by an odd number,
  backward paths meet forward ones where they differ by an even one. -/
  go : Nat → Nat → Frontier → Frontier → Option (Nat × Nat)
    | 0, _, _, _ => none
    | rounds + 1, d, forward, backward =>
        let delta := (old.size : Int) - new.size
        let odd := delta % 2 ≠ 0
        let meetsBackward (k : Int) := odd && (k - delta).natAbs + 1 ≤ d
        let meetsForward (k : Int) := !odd && (k - delta).natAbs ≤ d
        match advance old new d meetsBackward backward delta (diagonals d) forward with
        | (_, some ((x, y), _)) => some (x, y.toNat)
        | (forward, none) =>
            match advance old.reverse new.reverse d meetsForward forward delta (diagonals d)
                backward with
            | (_, some (_, (x, y))) => some (old.size - x, ((new.size : Int) - y).toNat)
            | (backward, none) => go rounds (d + 1) forward backward

/-! ## §3. The difference. -/

/-- A shortest difference of two lists.  Every cut makes both parts smaller, so
as many levels as there are items are enough. -/
def shortest (old new : List α) : Difference α :=
  go (old.length + new.length) old new
where
  go : Nat → List α → List α → Difference α
    | 0, old, new => chunk .delete old ++ chunk .insert new
    | levels + 1, old, new =>
        let head := commonPrefixLength old new
        let old' := old.drop head
        let new' := new.drop head
        let tail := commonSuffixLength old' new'
        let oldMid := old'.take (old'.length - tail)
        let newMid := new'.take (new'.length - tail)
        let mid :=
          if oldMid.isEmpty || newMid.isEmpty then chunk .delete oldMid ++ chunk .insert newMid
          else match meetingPoint? oldMid.toArray newMid.toArray with
            | some (x, y) =>
                go levels (oldMid.take x) (newMid.take y)
                  ++ go levels (oldMid.drop x) (newMid.drop y)
            | none => chunk .delete oldMid ++ chunk .insert newMid
        chunk .keep (old.take head) ++ mid ++ chunk .keep (old'.drop (old'.length - tail))

end ArtifactPatch.Difference
