/-
  ArtifactPatch.Text.Similarity
  ─────────────────────────────
  **JARO–WINKLER SIMILARITY.**

  Two texts are the more alike the more characters they share at nearby
  places, in the same order, and in their first four characters.  The score
  lies between 0 and 1.
-/

namespace ArtifactPatch.Text

/-! ## §1. Jaro. -/

/-- Take the first free character equal to `c` at a place in `[lo, hi)`; the
places carry a mark once taken. -/
def takeNear (c : Char) (lo hi : Nat) : Nat → List (Char × Bool) → Option (List (Char × Bool))
  | _, [] => none
  | i, (d, taken) :: rest =>
      if hi ≤ i then none
      else if lo ≤ i && c == d && !taken then some ((d, true) :: rest)
      else (takeNear c lo hi (i + 1) rest).map ((d, taken) :: ·)

/-- The characters of `a` that find a partner in `b`, and those of `b` that
are found, both in order. -/
def partners (a b : List Char) : List Char × List Char :=
  let range := Nat.max a.length b.length / 2 - 1
  let (found, marked) := a.zipIdx.foldl
    (fun (found, marked) (c, i) =>
      match takeNear c (i - range) (i + range + 1) 0 marked with
      | some marked => (c :: found, marked)
      | none => (found, marked))
    ([], b.map (·, false))
  (found.reverse, (marked.filter Prod.snd).map Prod.fst)

/-- The Jaro score. -/
def jaro (a b : List Char) : Float :=
  if a.isEmpty && b.isEmpty then 1.0
  else if a.isEmpty || b.isEmpty then 0.0
  else
    let (found, others) := partners a b
    let m := found.length
    if m = 0 then 0.0
    else
      let transposed := ((found.zip others).countP fun (c, d) => c != d) / 2
      let m' := Float.ofNat m
      (m' / Float.ofNat a.length + m' / Float.ofNat b.length
        + Float.ofNat (m - transposed) / m') / 3.0

/-! ## §2. Winkler's bonus. -/

/-- Length of the common beginning. -/
def commonHead : List Char → List Char → Nat
  | c :: cs, d :: ds => if c = d then commonHead cs ds + 1 else 0
  | _, _ => 0

/-- The Jaro–Winkler score: above 0.7, a common beginning of up to four
characters brings the score nearer to 1. -/
def jaroWinkler (a b : List Char) : Float :=
  let score := jaro a b
  if score > 0.7 then
    score + 0.1 * Float.ofNat (Nat.min 4 (commonHead a b)) * (1.0 - score)
  else score

/-- The candidate most alike to a name, if one scores at least 0.8; the last of
equals wins. -/
def closest? (name : String) (candidates : List String) : Option String :=
  let best := candidates.foldl
    (fun (best : Option (Float × String)) candidate =>
      let score := jaroWinkler name.toList candidate.toList
      if score ≥ 0.8 then
        match best with
        | some (top, _) => if score ≥ top then some (score, candidate) else best
        | none => some (score, candidate)
      else best)
    none
  best.map Prod.snd

end ArtifactPatch.Text
