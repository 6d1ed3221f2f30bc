/-
  ArtifactPatch.Command.Style
  ───────────────────────────
  **STYLED OUTPUT.**

  What a command says is a list of spans, each with a style.  Styles become
  escape codes of the terminal, or nothing, when the spans are written.
-/
import ArtifactPatch.Text.Basic

namespace ArtifactPatch

/-! ## §1. Styles. -/

/-- Colours of letters. -/
inductive Colour where
  | red
  | green
  | yellow
  | cyan
  deriving Repr, DecidableEq

/-- The terminal's code of a colour. -/
def Colour.code : Colour → String
  | .red => "31"
  | .green => "32"
  | .yellow => "33"
  | .cyan => "36"

/-- How a text is written. -/
structure Style where
  bold : Bool
  dimmed : Bool
  colour : Option Colour
  deriving Repr, DecidableEq

/-- The terminal's codes of a style. -/
def Style.codes (s : Style) : List String :=
  (if s.bold then ["1"] else []) ++ (if s.dimmed then ["2"] else [])
    ++ s.colour.toList.map Colour.code

/-! ## §2. Spans. -/

/-- A text in one style. -/
structure Span where
  style : Style
  text : String
  deriving Repr, DecidableEq

namespace Span

/-- A text without a style. -/
def plain (text : String) : Span := ⟨⟨false, false, none⟩, text⟩

/-- A bold text. -/
def bold (text : String) : Span := ⟨⟨true, false, none⟩, text⟩

/-- A dimmed text. -/
def dimmed (text : String) : Span := ⟨⟨false, true, none⟩, text⟩

/-- A coloured text. -/
def coloured (c : Colour) (text : String) : Span := ⟨⟨false, false, some c⟩, text⟩

/-- A coloured and bold text. -/
def strong (c : Colour) (text : String) : Span := ⟨⟨true, false, some c⟩, text⟩

/-- The escape sequence of some codes. -/
def escapeSequence (codes : List String) : String :=
  "\x1b[" ++ ";".intercalate codes ++ "m"

/-- The escape sequence that ends every style. -/
def reset : String := escapeSequence ["0"]

/-- Write a span.  Where the text itself ends a style, the style begins anew
behind it. -/
def render (colours : Bool) (s : Span) : String :=
  let codes := s.style.codes
  if !colours || codes.isEmpty then s.text
  else
    let start := escapeSequence codes
    let inner := Text.replaceAll reset.toList (reset ++ start).toList s.text.toList
    start ++ String.ofList inner ++ reset

end Span

/-- Write spans. -/
def renderSpans (colours : Bool) (spans : List Span) : String :=
  String.join (spans.map (Span.render colours))

/-- A text with blanks up to a width. -/
def padRight (width : Nat) (s : String) : String :=
  s ++ String.ofList (List.replicate (width - s.length) ' ')

/-! ## §3. Whether to use colours. -/

/-- What the environment says about colours. -/
structure ColourSettings where
  /-- The value of CLICOLOR. -/
  wished : Option String
  /-- The value of CLICOLOR_FORCE. -/
  forced : Option String
  /-- The value of NO_COLOR. -/
  refused : Option String
  deriving Repr, DecidableEq

/-- Any value but zero switches a setting on. -/
def ColourSettings.isOn (value : String) : Bool :=
  value != "0"

/-- Colours are used where they are forced, and on a terminal where they are
not refused. -/
def ColourSettings.useColours (c : ColourSettings) (terminal : Bool) : Bool :=
  if c.forced.any isOn then true
  else if c.refused.isSome then false
  else (c.wished.all isOn) && terminal

end ArtifactPatch
