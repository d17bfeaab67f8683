import JackToVm.Markup
import JackToVm.Text.Lines

/-!
# Reading markup

The text of a token list, read back: the lines between the two tags of the
list, from each line the tag and the content of a leaf, and from these the
token. Only what is written exactly as a dump writes it is read.
-/

namespace JackToVm

namespace Markup

/-- What stands for the characters with a meaning in markup. -/
def entities : List String :=
  ["&amp;", "&lt;", "&gt;", "&quot;"]

/-- A text as it was before it was escaped. An ampersand that begins no entity
stands for itself. -/
def unescape : List Char → List Char
  | '&' :: 'a' :: 'm' :: 'p' :: ';' :: rest => '&' :: unescape rest
  | '&' :: 'l' :: 't' :: ';' :: rest => '<' :: unescape rest
  | '&' :: 'g' :: 't' :: ';' :: rest => '>' :: unescape rest
  | '&' :: 'q' :: 'u' :: 'o' :: 't' :: ';' :: rest => '"' :: unescape rest
  | c :: rest => c :: unescape rest
  | [] => []

/-- The line of a leaf, without the margin in front of it. -/
def leafLine (tag content : String) : String :=
  openTag tag ++ " " ++ escape content ++ " " ++ closeTag tag

/-- The tag and the content of a leaf, from its line. The tag ends at the first
closing angle bracket, the content before the next opening one. -/
def readLeaf? (line : String) : Option (String × String) :=
  let behindBracket := line.toList.drop 1
  let tag := String.ofList (behindBracket.takeWhile (· != '>'))
  let behindTag := (behindBracket.dropWhile (· != '>')).drop 2
  let escaped := (behindTag.takeWhile (· != '<')).dropLast
  let content := String.ofList (unescape escaped)
  if line = leafLine tag content then some (tag, content) else none

end Markup

namespace Token

/-- The line of a token in markup, without the margin in front of it. -/
def line (token : Token) : String :=
  Markup.leafLine token.tag token.text

/-- The token that a leaf stands for. -/
def ofLeaf? (tag content : String) : Option Token :=
  match tag with
  | "identifier" => some (.identifier content)
  | "integerConstant" => content.toNat?.map .integer
  | "keyword" => (Keyword.ofWord? content).map .keyword
  | "stringConstant" => some (.string content)
  | "symbol" =>
      match content.toList with
      | [c] => (Symbol.ofChar? c).map .symbol
      | _ => none
  | _ => none

/-- The token that a line stands for. -/
def ofLine? (line : String) : Option Token := do
  let (tag, content) ← Markup.readLeaf? line
  ofLeaf? tag content

/-- The lines of a token dump, without the margins in front of them. -/
def dumpLines (inner : List String) : List String :=
  Markup.openTag "tokens" :: inner ++ [Markup.closeTag "tokens", ""]

/-- The token list that a text of markup stands for. The level of the text need
not be known. -/
def listOfMarkup? (text : String) : Option (List Token) :=
  let found := (Text.lines text).map Text.withoutMargin
  let inner := found.tail.dropLast.dropLast
  if found = dumpLines inner then inner.mapM ofLine? else none

end Token

end JackToVm
