/-
  ArtifactPatch.Toml.Document
  ───────────────────────────
  **TOML DOCUMENTS.**

  A document is a sequence of lines: pairs, headers, comments and blanks.  The
  pairs behind a header belong to its table.  Arrays and inline tables may
  spread over several lines, and nest up to a fixed depth.
-/
import ArtifactPatch.Toml.Value

namespace ArtifactPatch.Toml

/-! ## §1. Keys. -/

/-- Characters of a key without quotes. -/
def isBareKeyChar (c : Char) : Bool :=
  c.isAlphanum || c == '_' || c == '-'

/-- A key between dots. -/
def simpleKey (t : Text) : Except Text (String × Text) :=
  match t with
  | '\x22' :: _ | '\x27' :: _ => (string false t).map fun (k, rest) => (String.ofList k, rest)
  | _ =>
      let word := t.takeWhile isBareKeyChar
      if word.isEmpty then .error t
      else .ok (String.ofList word, t.drop word.length)

/-- Deepest nesting of arrays and inline tables, and longest dotted key. -/
def maxDepth : Nat := 80

/-- A key with its leading parts, at most `room` of them. -/
def dottedKey (t : Text) : (room : Nat) → Except Text ((List String × String) × Text)
  | 0 => .error t
  | room + 1 => do
      let (key, rest) ← simpleKey (skipSpaces t)
      match skipSpaces rest with
      | '.' :: rest => do
          let ((keys, last), rest) ← dottedKey rest room
          return ((key :: keys, last), rest)
      | rest => return (([], key), rest)

/-! ## §2. Values. -/

mutual

/-- A value.  Every step of the readers below uses up fuel, and of two steps one
at least reads a character, so twice the length of the text is enough. -/
def value (fuel depth : Nat) (t : Text) : Except Text (Value × Text) :=
  match fuel with
  | 0 => .error t
  | fuel + 1 =>
      match t with
      | '\x22' :: _ | '\x27' :: _ => (string true t).map fun (s, rest) => (.string s, rest)
      | '[' :: rest =>
          if depth = 0 then .error t
          else do
            let (items, rest) ← arrayItems fuel (depth - 1) (skipBlanks rest)
            return (.array items, rest)
      | '\x7b' :: rest =>
          if depth = 0 then .error t
          else do
            let (entries, rest) ← tablePairs fuel (depth - 1) [] (skipBlanks rest)
            return (.table (entriesToValues entries), rest)
      | _ => (scalar t).map fun (s, rest) => (Value.ofScalar s, rest)

/-- The items of an array up to its bracket; a comma may stand behind the last. -/
def arrayItems (fuel depth : Nat) (t : Text) : Except Text (List Value × Text) :=
  match fuel with
  | 0 => .error t
  | fuel + 1 =>
      match t with
      | ']' :: rest => .ok ([], rest)
      | _ => do
          let (item, rest) ← value fuel depth t
          match skipBlanks rest with
          | ',' :: rest => do
              let (items, rest) ← arrayItems fuel depth (skipBlanks rest)
              return (item :: items, rest)
          | ']' :: rest => return ([item], rest)
          | rest => .error rest

/-- The pairs of an inline table up to its brace; a comma may stand behind the
last, and blanks around every sign but the dots of a key. -/
def tablePairs (fuel depth : Nat) (entries : Entries) (t : Text) : Except Text (Entries × Text) :=
  match fuel with
  | 0 => .error t
  | fuel + 1 =>
      match t with
      | '\x7d' :: rest => .ok (entries, rest)
      | _ => do
          let ((keys, key), rest) ← dottedKey t maxDepth
          match skipBlanks rest with
          | '=' :: rest =>
              let (v, rest) ← value fuel depth (skipBlanks rest)
              match entries.addPair keys key v with
              | none => .error t
              | some entries =>
                  match skipBlanks rest with
                  | ',' :: rest => tablePairs fuel depth entries (skipBlanks rest)
                  | '\x7d' :: rest => return (entries, rest)
                  | rest => .error rest
          | rest => .error rest

end

/-! ## §3. Lines. -/

/-- A line that says something. -/
inductive Line where
  | pair (keys : List String) (key : String) (v : Value)
  /-- A header; `element` where its brackets are double. -/
  | header (element : Bool) (keys : List String) (key : String)

/-- The end of a line: spaces, a comment, and a newline or the end. -/
def lineEnd (t : Text) : Except Text Text :=
  let t := skipComment (skipSpaces t)
  match newline? t with
  | some rest => .ok rest
  | none => if t.isEmpty then .ok [] else .error t

/-- A line at the front of a text that is not blank. -/
def line (t : Text) : Except Text (Line × Text) :=
  match t with
  | '[' :: '[' :: rest => do
      let ((keys, key), rest) ← dottedKey rest maxDepth
      match rest with
      | ']' :: ']' :: rest => return (.header true keys key, ← lineEnd rest)
      | rest => .error rest
  | '[' :: rest => do
      let ((keys, key), rest) ← dottedKey rest maxDepth
      match rest with
      | ']' :: rest => return (.header false keys key, ← lineEnd rest)
      | rest => .error rest
  | _ => do
      let ((keys, key), rest) ← dottedKey t maxDepth
      match rest with
      | '=' :: rest =>
          let (v, rest) ← value (2 * t.length) maxDepth (skipSpaces rest)
          return (.pair keys key v, ← lineEnd rest)
      | rest => .error rest

/-- The lines of a document, each with the text from it on. -/
def lines : (fuel : Nat) → Text → Except Text (List (Text × Line))
  | 0, t => .error t
  | fuel + 1, t =>
      let t := skipBlanks t
      if t.isEmpty then .ok []
      else do
        let (l, rest) ← line t
        return (t, l) :: (← lines fuel rest)

/-! ## §4. Documents. -/

/-- The pairs of a section up to the next header, and the lines from there. -/
def sectionPairs : List (Text × Line) → List (Text × List String × String × Value)
      × List (Text × Line)
  | (t, .pair keys key v) :: rest =>
      let (pairs, rest) := sectionPairs rest
      ((t, keys, key, v) :: pairs, rest)
  | rest => ([], rest)

/-- The place of the first pair that has no room among some entries, or the
entries with the pairs. -/
def addPairs : List (Text × List String × String × Value) → Entries → Except Text Entries
  | [], entries => .ok entries
  | (t, keys, key, v) :: rest, entries =>
      match entries.addPair keys key v with
      | some entries => addPairs rest entries
      | none => .error t

/-- Put the sections of a document together. -/
def assemble : (fuel : Nat) → List (Text × Line) → Entries → Except Text Entries
  | 0, _, root => .ok root
  | fuel + 1, ls, root =>
      match ls with
      | [] => .ok root
      | (_, .pair ..) :: _ => do
          let (pairs, rest) := sectionPairs ls
          assemble fuel rest (← addPairs pairs root)
      | (t, .header element keys key) :: rest =>
          let (pairs, rest) := sectionPairs rest
          let fill (entries : Entries) : Option Entries := (addPairs pairs entries).toOption
          let place := if element then Entries.openElement fill key
            else Entries.openTable fill key
          match root.descend place keys with
          | some root => assemble fuel rest root
          | none => .error t

/-- Read a document; the error is the number of the line that is wrong.  A byte
order mark may stand in front. -/
def parse (t : Text) : Except Nat (List (String × Value)) :=
  let body := (Text.after? ['\uFEFF'] t).getD t
  let result := do
    let ls ← lines (body.length + 1) body
    let root ← assemble (ls.length + 1) ls []
    return entriesToValues root
  result.mapError fun rest =>
    (body.take (body.length - rest.length)).count '\n' + 1

end ArtifactPatch.Toml
