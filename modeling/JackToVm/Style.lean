/-!
# Styled text

Text with colours and emphasis, and the escape sequences that show it on a
terminal. A message is a list of spans, so that what it says does not depend
on whether colours are shown.
-/

namespace JackToVm

/-- The colours of messages. -/
inductive Color where
  | red
  | yellow
  | green
  | cyan
deriving DecidableEq, Repr

/-- How a span of text looks. -/
structure Style where
  color : Option Color := none
  bold : Bool := false
  underline : Bool := false
deriving DecidableEq, Repr

/-- The colours that a terminal shows. -/
inductive Palette where
  /-- No colours and no emphasis. -/
  | plain
  /-- The eight bright colours. -/
  | bright
  /-- Colours by their red, green and blue parts. -/
  | trueColor
deriving DecidableEq, Repr

namespace Palette

/-- The parameters of the sequence that begins a colour. -/
def colorCode : Palette → Color → String
  | .trueColor, .red => "38;2;255;101;120"
  | .trueColor, .yellow => "38;2;234;203;100"
  | .trueColor, .green => "38;2;157;210;116"
  | .trueColor, .cyan => "38;2;109;199;227"
  | _, .red => "91"
  | _, .yellow => "93"
  | _, .green => "92"
  | _, .cyan => "96"

/-- `text` between a sequence with the parameters `before` and one with the
parameters `after`. -/
def enclose (before after text : String) : String :=
  "\x1b[" ++ before ++ "m" ++ text ++ "\x1b[" ++ after ++ "m"

/-- The text shown for a styled text: the colour inside, bold around it and
the underline around both. -/
def paint (palette : Palette) (style : Style) (text : String) : String :=
  if palette = .plain then
    text
  else
    let colored :=
      match style.color with
      | some color => enclose (palette.colorCode color) "39" text
      | none => text
    let emphasized := if style.bold then enclose "1" "0" colored else colored
    if style.underline then enclose "4" "0" emphasized else emphasized

end Palette

/-- A text with one style. -/
structure Span where
  text : String
  style : Style := {}
deriving DecidableEq, Repr

/-- A text of several styles. -/
abbrev Rich := List Span

namespace Rich

def plain (text : String) : Rich := [⟨text, {}⟩]

def colored (color : Color) (text : String) : Rich :=
  [⟨text, { color := some color }⟩]

def bold (color : Color) (text : String) : Rich :=
  [⟨text, { color := some color, bold := true }⟩]

/-- A bold and underlined text in a colour. -/
def headline (color : Color) (text : String) : Rich :=
  [⟨text, { color := some color, bold := true, underline := true }⟩]

/-- The text shown for a text of several styles. -/
def render (palette : Palette) (rich : Rich) : String :=
  String.join (rich.map fun span => palette.paint span.style span.text)

end Rich

end JackToVm
