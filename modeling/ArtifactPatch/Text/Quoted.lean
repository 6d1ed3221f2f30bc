/-
  ArtifactPatch.Text.Quoted
  ─────────────────────────
  **QUOTED TEXT IN MESSAGES.**

  Messages quote a text between double quotes and a single character between
  single ones.  Inside, the delimiter and the backslash take a backslash, the
  controls NUL, tab, newline and return have letters of their own, and every
  character of `Escaped` is written by its code point.
-/
import ArtifactPatch.Text.Escaped

namespace ArtifactPatch.Text

/-- A natural number in lower-case hexadecimal digits, without padding. -/
def hexDigits (n : Nat) : List Char :=
  Nat.toDigits 16 n

/-- One character of a quoted text whose delimiter is `delim`. -/
def escapeChar (delim c : Char) : List Char :=
  if c = delim || c = '\\' then ['\\', c]
  else match c.toNat with
    | 0 => ['\\', '0']
    | 9 => ['\\', 't']
    | 10 => ['\\', 'n']
    | 13 => ['\\', 'r']
    | n =>
        if Escaped.contains c then
          ['\\', 'u', '\x7b'] ++ hexDigits n ++ ['\x7d']
        else [c]

/-- A text between double quotes. -/
def quote (t : List Char) : String :=
  String.ofList (['\x22'] ++ t.flatMap (escapeChar '\x22') ++ ['\x22'])

/-- A string between double quotes. -/
def quoteString (s : String) : String :=
  quote s.toList

/-- A character between single quotes. -/
def quoteChar (c : Char) : String :=
  String.ofList (['\x27'] ++ escapeChar '\x27' c ++ ['\x27'])

/-- A list of quoted strings between brackets. -/
def quoteList (names : List String) : String :=
  "[" ++ ", ".intercalate (names.map quoteString) ++ "]"

end ArtifactPatch.Text
