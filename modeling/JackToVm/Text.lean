import JackToVm.Text.CharSet

/-!
# Text layout

Cutting a text into lines, moving lines to the right, filling a cell up to a
width, and the blanks that separate words. `indent` moves every line of a
text, also the lines inside a longer value; `padRight` counts characters, not
bytes.
-/

namespace JackToVm.Text

/-- The lines of a text, cut at every line break. There is always one more
line than there are line breaks, so an empty text is one empty line. -/
def lines (text : String) : List String :=
  (text.toList.splitOn '\n').map String.ofList

/-- The margin of an indentation level: two spaces per level. -/
def margin (levels : Nat) : String :=
  String.ofList (List.replicate (2 * levels) ' ')

/-- Every line of `text` moved right by the margin of `levels`. -/
def indent (levels : Nat) (text : String) : String :=
  "\n".intercalate ((lines text).map (margin levels ++ ·))

/-- `text` filled up with spaces on the right to `width` characters; a longer
text stays as it is. -/
def padRight (width : Nat) (text : String) : String :=
  text ++ String.ofList (List.replicate (width - text.length) ' ')

/-! ## Blanks -/

/-- The characters of the Unicode property `White_Space`. -/
def blank : CharSet where
  ranges := [(0x09, 0x0D), (0x20, 0x20), (0x85, 0x85), (0xA0, 0xA0), (0x1680, 0x1680),
    (0x2000, 0x200A), (0x2028, 0x2029), (0x202F, 0x202F), (0x205F, 0x205F), (0x3000, 0x3000)]

def isBlank (c : Char) : Bool :=
  blank.contains c

/-- `text` without the blanks at its end. -/
def trimEnd (text : String) : String :=
  String.ofList (text.toList.reverse.dropWhile isBlank).reverse

end JackToVm.Text
