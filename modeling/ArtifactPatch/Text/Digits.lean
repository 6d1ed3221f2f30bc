/-
  ArtifactPatch.Text.Digits
  ─────────────────────────
  **NUMBERS IN DIGITS.**

  Digits up to base sixteen, in either case, and the characters that numbers
  stand for.
-/
import ArtifactPatch.Text.Basic

namespace ArtifactPatch.Text

/-- The value of a digit, in bases up to sixteen. -/
def digit? (base : Nat) (c : Char) : Option Nat :=
  let n := c.toNat
  let value :=
    if c.isDigit then some (n - '0'.toNat)
    else if 'a' ≤ c ∧ c ≤ 'f' then some (n - 'a'.toNat + 10)
    else if 'A' ≤ c ∧ c ≤ 'F' then some (n - 'A'.toNat + 10)
    else none
  value.filter (· < base)

/-- The value of some digits. -/
def digits? (base : Nat) (t : Text) : Option Nat :=
  t.foldlM (fun n c => (digit? base c).map (base * n + ·)) 0

/-- The character of a code point. -/
def charOf? (n : Nat) : Option Char :=
  if h : n.isValidChar then some (Char.ofNatAux n h) else none

end ArtifactPatch.Text
