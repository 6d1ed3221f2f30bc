/-
  ArtifactPatch.Text.Basic
  ────────────────────────
  **TEXT AND ITS BYTE MEASURE.**

  A text is a list of characters.  Positions are byte offsets into its UTF-8
  form, so every cut is measured with `byteLen`, and a cut inside a character
  or past the end does not exist (`cutAt` answers `none`).

  Searching is greedy and leaves no overlap: `occurrences` counts, and
  `replaceAll` replaces, the same leftmost hits.
-/

namespace ArtifactPatch

/-- The contents of an artifact, character by character. -/
abbrev Text := List Char

namespace Text

/-! ## §1. Bytes. -/

/-- Number of bytes of the UTF-8 form. -/
def byteLen : Text → Nat
  | [] => 0
  | c :: cs => c.utf8Size + byteLen cs

/-- The UTF-8 form itself. -/
def encode (t : Text) : ByteArray :=
  (String.ofList t).toUTF8

/-- Read UTF-8; `none` where the bytes are not well formed. -/
def decode? (bytes : ByteArray) : Option Text :=
  (String.fromUTF8? bytes).map String.toList

/-- Cut a text in two at a byte offset.  There is no cut past the end, and none
inside a character. -/
def cutAt (offset : Nat) (t : Text) : Option (Text × Text) :=
  go offset [] t
where
  go : Nat → Text → Text → Option (Text × Text)
    | 0, seen, rest => some (seen.reverse, rest)
    | _ + 1, _, [] => none
    | n + 1, seen, c :: rest =>
        if c.utf8Size ≤ n + 1 then go (n + 1 - c.utf8Size) (c :: seen) rest
        else none

/-- The bytes `[start, stop)` of a text, when both ends are cuts and in order. -/
def slice? (start stop : Nat) (t : Text) : Option Text :=
  if start ≤ stop then
    (cutAt start t).bind fun (_, rest) =>
      (cutAt (stop - start) rest).map Prod.fst
  else none

/-! ## §2. Search. -/

/-- What follows `head` in a text that begins with it. -/
def after? : (head : Text) → Text → Option Text
  | [], t => some t
  | _ :: _, [] => none
  | h :: hs, c :: cs => if h = c then after? hs cs else none

/-- Leftmost, non-overlapping hits of a needle; the empty needle has none. -/
def occurrences (needle : Text) (t : Text) : Nat :=
  if needle.isEmpty then 0 else go 0 t 0
where
  /-- `skip` characters still belong to the last hit. -/
  go (skip : Nat) : Text → Nat → Nat
    | [], hits => hits
    | c :: cs, hits =>
        if skip > 0 then go (skip - 1) cs hits
        else if (after? needle (c :: cs)).isSome then
          go (needle.length - 1) cs (hits + 1)
        else go 0 cs hits

/-- Replace every leftmost, non-overlapping hit of a needle. -/
def replaceAll (needle new : Text) (t : Text) : Text :=
  if needle.isEmpty then t else go 0 [] t
where
  go (skip : Nat) (done : Text) : Text → Text
    | [] => done.reverse
    | c :: cs =>
        if skip > 0 then go (skip - 1) done cs
        else if (after? needle (c :: cs)).isSome then
          go (needle.length - 1) (new.reverse ++ done) cs
        else go 0 (c :: done) cs

/-- The pieces between the separators: always one more than there are
separators. -/
def splitOn (sep : Char) (t : Text) : List Text :=
  go [] t
where
  go (piece : Text) : Text → List Text
    | [] => [piece.reverse]
    | c :: cs => if c = sep then piece.reverse :: go [] cs else go (c :: piece) cs

/-- Join pieces with a separator between neighbours. -/
def joinWith (sep : Text) : List Text → Text
  | [] => []
  | [t] => t
  | t :: u :: rest => t ++ sep ++ joinWith sep (u :: rest)

end Text

end ArtifactPatch
