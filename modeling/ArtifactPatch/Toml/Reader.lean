/-
  ArtifactPatch.Toml.Reader
  ─────────────────────────
  **READING TOML: WORDS, STRINGS AND SCALARS.**

  A reader takes a value off the front of a text.  Where it cannot, it answers
  with the text that it could not read, from which the line of the error
  follows.  Control characters other than the tab stand nowhere in a document,
  and a carriage return only in front of a newline.
-/
import ArtifactPatch.Text.Digits

namespace ArtifactPatch.Toml

/-! ## §1. Readers. -/

/-- What a reader answers: a value and what is left, or the unread text. -/
abbrev Reading (α : Type) := Except Text (α × Text)

/-- A character that may stand in comments and strings of one line. -/
def isPlain (c : Char) : Bool :=
  c == '\t' || (0x20 ≤ c.toNat && c.toNat ≠ 0x7F)

/-- A space or a tab. -/
def isSpace (c : Char) : Bool :=
  c == ' ' || c == '\t'

/-- What is left behind spaces and tabs. -/
def skipSpaces (t : Text) : Text :=
  t.dropWhile isSpace

/-- What is left behind a newline, with or without a carriage return. -/
def newline? : Text → Option Text
  | '\n' :: rest => some rest
  | '\r' :: '\n' :: rest => some rest
  | _ => none

/-- What is left behind a comment, if one stands here. -/
def skipComment : Text → Text
  | '#' :: rest => rest.dropWhile isPlain
  | t => t

/-- What is left behind spaces, newlines and comments. -/
def skipBlanks (t : Text) : Text :=
  go t.length t
where
  /-- Each round takes a newline away, so as many rounds as there are
  characters are enough. -/
  go : Nat → Text → Text
    | 0, t => t
    | n + 1, t =>
        let t := skipComment (skipSpaces t)
        match newline? t with
        | some rest => go n rest
        | none => t

/-! ## §2. Numbers in a base. -/

/-- The value of digits with single underscores between them. -/
def grouped? (base : Nat) (t : Text) : Option Nat :=
  let groups := Text.splitOn '_' t
  if groups.any List.isEmpty then none else Text.digits? base groups.flatten

/-! ## §3. Strings. -/

/-- The character of exactly `count` hexadecimal digits. -/
def codePoint (count : Nat) (t : Text) : Reading Char :=
  let ds := t.take count
  if ds.length < count then .error t
  else match (Text.digits? 16 ds).bind Text.charOf? with
    | some c => .ok (c, t.drop count)
    | none => .error t

/-- What stands behind a backslash. -/
def escape : Text → Reading Char
  | [] => .error []
  | c :: rest =>
      match c with
      | 'b' => .ok ('\x08', rest)
      | 't' => .ok ('\t', rest)
      | 'n' => .ok ('\n', rest)
      | 'f' => .ok ('\x0c', rest)
      | 'r' => .ok ('\r', rest)
      | 'e' => .ok ('\x1b', rest)
      | '\x22' => .ok ('\x22', rest)
      | '\\' => .ok ('\\', rest)
      | 'x' => codePoint 2 rest
      | 'u' => codePoint 4 rest
      | 'U' => codePoint 8 rest
      | _ => .error (c :: rest)

/-- The rest of a string of one line that began with `quote`; only double
quotes know escapes. -/
def lineString (quote : Char) (fuel : Nat) (done t : Text) : Reading Text :=
  match fuel, t with
  | 0, _ | _, [] => .error t
  | fuel + 1, c :: rest =>
      if c = quote then .ok (done.reverse, rest)
      else if c = '\\' && quote = '\x22' then
        match escape rest with
        | .ok (d, rest) => lineString quote fuel (d :: done) rest
        | .error e => .error e
      else if isPlain c then lineString quote fuel (c :: done) rest
      else .error t

/-- What is left behind a backslash that ends a line: spaces, a newline, and all
spaces and newlines after it. -/
def lineEndEscape? (t : Text) : Option Text :=
  (newline? (skipSpaces t)).map (go t.length)
where
  go : Nat → Text → Text
    | 0, t => t
    | n + 1, t =>
        let t := skipSpaces t
        match newline? t with
        | some rest => go n rest
        | none => t

/-- The rest of a string of several lines that began with three `quote`s.  Up to
two quotes may stand right in front of the closing three. -/
def blockString (quote : Char) (fuel : Nat) (done t : Text) : Reading Text :=
  match fuel, t with
  | 0, _ | _, [] => .error t
  | fuel + 1, c :: rest =>
      if c = quote then
        let quotes := (t.takeWhile (· == quote)).length
        if quotes < 3 then blockString quote fuel (c :: done) rest
        else
          let kept := Nat.min (quotes - 3) 2
          .ok ((List.replicate kept quote ++ done).reverse, t.drop (kept + 3))
      else if c = '\\' && quote = '\x22' then
        match lineEndEscape? rest with
        | some rest => blockString quote fuel done rest
        | none =>
            match escape rest with
            | .ok (d, rest) => blockString quote fuel (d :: done) rest
            | .error e => .error e
      else match newline? t with
        | some after =>
            blockString quote fuel ((t.take (t.length - after.length)).reverse ++ done) after
        | none =>
            if isPlain c then blockString quote fuel (c :: done) rest else .error t

/-- A string of either quote; `blocks` allows strings of several lines, whose
first newline is dropped. -/
def string (blocks : Bool) (t : Text) : Reading Text :=
  match t with
  | quote :: rest =>
      if rest.take 2 = [quote, quote] && blocks then
        let body := rest.drop 2
        blockString quote t.length [] ((newline? body).getD body)
      else lineString quote t.length [] rest
  | [] => .error t

/-! ## §4. Scalars without quotes. -/

/-- A scalar that has no quotes. -/
inductive Scalar where
  | integer (n : Int)
  | boolean (b : Bool)
  | float
  | dateTime
  deriving Repr, DecidableEq

/-- Split a sign off. -/
def sign : Text → Bool × Bool × Text
  | '-' :: rest => (true, true, rest)
  | '+' :: rest => (true, false, rest)
  | t => (false, false, t)

/-- Decimal digits without a needless zero in front. -/
def isDecimal (t : Text) : Bool :=
  (grouped? 10 t).isSome && (t.head? ≠ some '0' || t = ['0'])

/-- Largest integer, and the smallest without its sign. -/
def maxInteger : Nat := 0x7FFF_FFFF_FFFF_FFFF
def minInteger : Nat := 0x8000_0000_0000_0000

/-- An integer of 64 bits. -/
def integer? (t : Text) : Option Int :=
  let positive (n : Nat) : Option Int := if n ≤ maxInteger then some n else none
  match t with
  | '0' :: 'x' :: rest => (grouped? 16 rest).bind positive
  | '0' :: 'o' :: rest => (grouped? 8 rest).bind positive
  | '0' :: 'b' :: rest => (grouped? 2 rest).bind positive
  | _ =>
      let (_, negative, digits) := sign t
      if !isDecimal digits then none
      else (grouped? 10 digits).bind fun n =>
        if negative then (if n ≤ minInteger then some (-n) else none) else positive n

/-- Whether `digits · 10^exponent` rounds to a finite double. -/
def isFinite (digits : Nat) (exponent : Int) : Bool :=
  let bound := Nat.pow 2 1024 - Nat.pow 2 970
  if digits = 0 then true
  else if exponent ≥ 0 then
    exponent ≤ 400 && digits * Nat.pow 10 exponent.toNat < bound
  else digits < bound * Nat.pow 10 (Nat.min exponent.natAbs 100000)

/-- A decimal fraction, a power of ten, infinity or not-a-number. -/
def isFloat (t : Text) : Bool :=
  let (_, _, body) := sign t
  if body = ['i', 'n', 'f'] || body = ['n', 'a', 'n'] then true
  else
    let mantissa := body.takeWhile fun c => c ≠ 'e' && c ≠ 'E'
    let power := (body.drop mantissa.length).drop 1
    let hasPower := mantissa.length < body.length
    let whole := mantissa.takeWhile (· ≠ '.')
    let fraction := (mantissa.drop whole.length).drop 1
    let hasFraction := whole.length < mantissa.length
    let (_, negative, powerDigits) := sign power
    match grouped? 10 (whole ++ fraction), grouped? 10 powerDigits with
    | some n, some e =>
        (hasPower || hasFraction) && isDecimal whole
          && (!hasFraction || (grouped? 10 fraction).isSome)
          && (!hasPower || isFinite n
              ((if negative then -(e : Int) else e)
                - (fraction.filter Char.isDigit).length))
    | some n, none =>
        !hasPower && hasFraction && isDecimal whole && (grouped? 10 fraction).isSome
          && isFinite n (-((fraction.filter Char.isDigit).length : Int))
    | none, _ => false

/-- Exactly `count` digits, with a value in `[lo, hi]`. -/
def field? (count lo hi : Nat) (t : Text) : Option (Nat × Text) :=
  let ds := t.take count
  if ds.length = count && ds.all Char.isDigit then
    ((Text.digits? 10 ds).filter fun n => lo ≤ n && n ≤ hi).map (·, t.drop count)
  else none

/-- What is left behind one given character. -/
def mark? (c : Char) : Text → Option Text
  | d :: rest => if c = d then some rest else none
  | [] => none

/-- Number of days of a month. -/
def daysOf (year month : Nat) : Nat :=
  if month = 2 then
    if year % 4 = 0 && (year % 100 ≠ 0 || year % 400 = 0) then 29 else 28
  else if month = 4 || month = 6 || month = 9 || month = 11 then 30
  else 31

/-- A date at the front of a text. -/
def date? (t : Text) : Option Text := do
  let (year, t) ← field? 4 0 9999 t
  let t ← mark? '-' t
  let (month, t) ← field? 2 1 12 t
  let t ← mark? '-' t
  let (_, t) ← field? 2 1 (daysOf year month) t
  return t

/-- A time at the front of a text; the seconds may be left out. -/
def time? (t : Text) : Option Text := do
  let (_, t) ← field? 2 0 23 t
  let t ← mark? ':' t
  let (_, t) ← field? 2 0 59 t
  match mark? ':' t with
  | none => return t
  | some t =>
      let (_, t) ← field? 2 0 60 t
      match mark? '.' t with
      | none => return t
      | some t =>
          let rest := t.dropWhile Char.isDigit
          if rest.length < t.length then return rest else none

/-- An offset from universal time, or nothing, at the end of a text. -/
def isOffset : Text → Bool
  | [] => true
  | ['Z'] | ['z'] => true
  | c :: rest =>
      (c == '+' || c == '-')
        && ((field? 2 0 23 rest).bind fun (_, t) =>
            (mark? ':' t).bind (field? 2 0 59 ·)).any (·.2.isEmpty)

/-- A date, a time, or both. -/
def isDateTime (t : Text) : Bool :=
  match date? t with
  | some [] => true
  | some (c :: rest) =>
      (c == 'T' || c == 't' || c == ' ') && (time? rest).any isOffset
  | none => (time? t).any List.isEmpty

/-- Characters of scalars without quotes. -/
def isScalarChar (c : Char) : Bool :=
  c.isAlphanum || c == '_' || c == '+' || c == '-' || c == '.' || c == ':'

/-- The scalar of a whole word. -/
def scalarOf? (word : Text) : Option Scalar :=
  if word = ['t', 'r', 'u', 'e'] then some (.boolean true)
  else if word = ['f', 'a', 'l', 's', 'e'] then some (.boolean false)
  else match integer? word with
    | some n => some (.integer n)
    | none =>
        if isFloat word then some .float
        else if isDateTime word then some .dateTime
        else none

/-- A scalar without quotes.  A space may part the date from the time. -/
def scalar (t : Text) : Reading Scalar :=
  let word := t.takeWhile isScalarChar
  let rest := t.drop word.length
  let (word, rest) :=
    match date? word, rest with
    | some [], ' ' :: d :: more =>
        if d.isDigit then
          let time := (d :: more).takeWhile isScalarChar
          (word ++ ' ' :: time, (d :: more).drop time.length)
        else (word, rest)
    | _, _ => (word, rest)
  match scalarOf? word with
  | some s => .ok (s, rest)
  | none => .error t

end ArtifactPatch.Toml
