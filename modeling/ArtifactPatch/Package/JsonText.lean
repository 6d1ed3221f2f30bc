/-
  ArtifactPatch.Package.JsonText
  ──────────────────────────────
  **STEPPING THROUGH JSON.**

  A manifest is read for two of its members only; everything else is stepped
  over, which asks for the grammar of JSON and for nothing more: numbers of
  any size, any depth, and strings whose escapes need not name characters.
-/
import ArtifactPatch.Text.Digits

namespace ArtifactPatch.JsonText

/-! ## §1. Blanks and marks. -/

/-- Blanks between the tokens. -/
def isBlank (c : Char) : Bool :=
  c == ' ' || c == '\n' || c == '\t' || c == '\r'

/-- What is left behind blanks. -/
def skipBlanks (t : Text) : Text :=
  t.dropWhile isBlank

/-- What is left behind blanks and one given character. -/
def mark? (c : Char) (t : Text) : Option Text :=
  Text.after? [c] (skipBlanks t)

/-! ## §2. Strings. -/

/-- The letters of short escapes with the characters that they stand for. -/
def shortEscapes : List (Char × Char) :=
  [('\x22', '\x22'), ('\\', '\\'), ('/', '/'), ('b', '\x08'), ('f', '\x0c'), ('n', '\n'),
    ('r', '\r'), ('t', '\t')]

/-- One sign of a string: a character, or a unit of 16 bits. -/
inductive Sign where
  | char (c : Char)
  | unit (n : Nat)
  deriving Repr, DecidableEq

/-- The signs of a string up to its closing quote.  Control characters may not
stand in a string as they are. -/
def signs? (t : Text) : Option (List Sign × Text) :=
  match t with
  | [] => none
  | '\x22' :: rest => some ([], rest)
  | '\\' :: 'u' :: rest => do
      let n ← if (rest.take 4).length = 4 then Text.digits? 16 (rest.take 4) else none
      let (more, rest) ← signs? (rest.drop 4)
      return (.unit n :: more, rest)
  | '\\' :: letter :: rest => do
      let c ← shortEscapes.lookup letter
      let (more, rest) ← signs? rest
      return (.char c :: more, rest)
  | c :: rest =>
      if c.toNat < 0x20 || c = '\\' then none
      else do
        let (more, rest) ← signs? rest
        return (.char c :: more, rest)
termination_by t.length
decreasing_by all_goals simp_wf; try omega

/-- The text of some signs.  A unit is a character, or one of two surrogates
that together are one. -/
def decode? : List Sign → Option Text
  | [] => some []
  | .char c :: rest => (decode? rest).map (c :: ·)
  | .unit high :: rest =>
      match Text.charOf? high with
      | some c => (decode? rest).map (c :: ·)
      | none =>
          match rest with
          | .unit low :: rest =>
              if high < 0xDC00 ∧ 0xDC00 ≤ low ∧ low < 0xE000 then
                match Text.charOf? (0x10000 + (high - 0xD800) * 0x400 + (low - 0xDC00)) with
                | some c => (decode? rest).map (c :: ·)
                | none => none
              else none
          | _ => none

/-- A string, whose escapes must name characters. -/
def string? (t : Text) : Option (String × Text) := do
  let (ss, rest) ← signs? (← mark? '\x22' t)
  return (String.ofList (← decode? ss), rest)

/-! ## §3. Stepping over values. -/

/-- What is left behind one digit or more. -/
def skipDigits? (t : Text) : Option Text :=
  let rest := t.dropWhile Char.isDigit
  if rest.length < t.length then some rest else none

/-- What is left behind a number; a zero stands in front of no other digit. -/
def skipNumber? (t : Text) : Option Text := do
  let t := (Text.after? ['-'] t).getD t
  let t ← match t with
    | '0' :: rest => if rest.head?.any Char.isDigit then none else some rest
    | _ => skipDigits? t
  let t ← match t with
    | '.' :: rest => skipDigits? rest
    | _ => some t
  match t with
  | e :: rest =>
      if e = 'e' ∨ e = 'E' then
        match rest with
        | s :: digits => skipDigits? (if s = '+' ∨ s = '-' then digits else rest)
        | [] => none
      else some t
  | [] => some []

mutual

/-- What is left behind a value.  A bracket costs two steps, its partner none, and
anything else no more steps than characters, so a complete value needs no more
fuel than it is long. -/
def skipValue? (fuel : Nat) (t : Text) : Option Text :=
  match fuel with
  | 0 => none
  | fuel + 1 =>
      match skipBlanks t with
      | 'n' :: rest => Text.after? ['u', 'l', 'l'] rest
      | 't' :: rest => Text.after? ['r', 'u', 'e'] rest
      | 'f' :: rest => Text.after? ['a', 'l', 's', 'e'] rest
      | '\x22' :: rest => (signs? rest).map Prod.snd
      | '[' :: rest =>
          match mark? ']' rest with
          | some rest => some rest
          | none => skipItems? fuel rest
      | '\x7b' :: rest =>
          match mark? '\x7d' rest with
          | some rest => some rest
          | none => skipMembers? fuel rest
      | t => skipNumber? t

/-- What is left behind the items of an array and its bracket. -/
def skipItems? (fuel : Nat) (t : Text) : Option Text :=
  match fuel with
  | 0 => none
  | fuel + 1 => do
      let rest ← skipValue? fuel t
      match skipBlanks rest with
      | ',' :: rest => skipItems? fuel rest
      | ']' :: rest => some rest
      | _ => none

/-- What is left behind the members of an object and its brace. -/
def skipMembers? (fuel : Nat) (t : Text) : Option Text :=
  match fuel with
  | 0 => none
  | fuel + 1 => do
      let (_, rest) ← signs? (← mark? '\x22' t)
      let rest ← skipValue? fuel (← mark? ':' rest)
      match skipBlanks rest with
      | ',' :: rest => skipMembers? fuel rest
      | '\x7d' :: rest => some rest
      | _ => none

end

/-- What is left behind a value. -/
def skip? (t : Text) : Option Text :=
  skipValue? (t.length + 1) t

/-- A string or null. -/
def optionalString? (t : Text) : Option (Option String × Text) :=
  match skipBlanks t with
  | 'n' :: rest => (Text.after? ['u', 'l', 'l'] rest).map (none, ·)
  | t => (string? t).map fun (s, rest) => (some s, rest)

end ArtifactPatch.JsonText
