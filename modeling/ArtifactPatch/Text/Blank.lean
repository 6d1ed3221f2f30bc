/-
  ArtifactPatch.Text.Blank
  ────────────────────────
  **BLANKS AT THE ENDS OF A TEXT.**

  A blank is a character with Unicode's White_Space property: 25 characters,
  of which six are ASCII.  `trim` drops blanks at both ends and nothing else.
-/
import ArtifactPatch.Text.Basic

namespace ArtifactPatch.Text

/-- Characters with the White_Space property. -/
def isBlank (c : Char) : Bool :=
  let n := c.toNat
  (9 ≤ n && n ≤ 13) || n == 0x20 || n == 0x85 || n == 0xA0 || n == 0x1680
    || (0x2000 ≤ n && n ≤ 0x200A) || n == 0x2028 || n == 0x2029 || n == 0x202F
    || n == 0x205F || n == 0x3000

/-- A text without the blanks at its ends. -/
def trim (t : Text) : Text :=
  ((t.dropWhile isBlank).reverse.dropWhile isBlank).reverse

/-- A string without the blanks at its ends. -/
def trimString (s : String) : String :=
  String.ofList (trim s.toList)

/-- Nothing but blanks. -/
def isBlankString (s : String) : Bool :=
  s.toList.all isBlank

end ArtifactPatch.Text
