import JackToVm.Text
import JackToVm.Token

/-!
# Markup

Elements of an XML text: a leaf stands on one line with its content between
spaces, a group keeps its tags on lines of their own. The four characters with
a meaning in markup are written as entities in the content of a leaf.
-/

namespace JackToVm.Markup

/-- A character as it stands in the content of a leaf. -/
def escapeChar : Char → List Char
  | '&' => "&amp;".toList
  | '<' => "&lt;".toList
  | '>' => "&gt;".toList
  | '"' => "&quot;".toList
  | c => [c]

/-- A text as it stands in the content of a leaf. -/
def escape (text : String) : String :=
  String.ofList (text.toList.flatMap escapeChar)

def openTag (tag : String) : String :=
  "<" ++ tag ++ ">"

def closeTag (tag : String) : String :=
  "</" ++ tag ++ ">"

/-- An element whose content is a text; every line of it is indented. -/
def leaf (tag content : String) (level : Nat) : String :=
  Text.indent level
    (openTag tag ++ " " ++ escape content ++ " " ++ closeTag tag) ++ "\n"

/-- An element around a content that is markup already; only its two tags are
indented. -/
def group (tag content : String) (level : Nat) : String :=
  Text.indent level (openTag tag) ++ "\n" ++ content ++
    Text.indent level (closeTag tag) ++ "\n"

end JackToVm.Markup

/-! ## Tokens -/

namespace JackToVm.Token

def tag : Token → String
  | .identifier _ => "identifier"
  | .integer _ => "integerConstant"
  | .keyword _ => "keyword"
  | .string _ => "stringConstant"
  | .symbol _ => "symbol"

def markup (level : Nat) (token : Token) : String :=
  Markup.leaf token.tag token.text level

/-- A token list as markup. The tokens stand at the level of the list's own
tags. -/
def markupOfList (level : Nat) (tokens : List Token) : String :=
  Markup.group "tokens" (String.join (tokens.map (markup level))) level

end JackToVm.Token
