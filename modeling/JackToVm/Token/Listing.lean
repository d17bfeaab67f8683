import JackToVm.Text.Quoted
import JackToVm.Token

/-!
# Token listing

The listing of a token list for a reader who looks for a mistake: one token
per entry, the kind first and the content indented below it.
-/

namespace JackToVm

/-- The title of a keyword in a listing: its word with a capital letter. -/
def Keyword.title (keyword : Keyword) : String :=
  keyword.word.capitalize

def Symbol.title : Symbol → String
  | .ampersand => "Amp"
  | .asterisk => "Asterisk"
  | .comma => "Comma"
  | .dot => "Dot"
  | .equal => "Eq"
  | .greater => "Gt"
  | .leftBrace => "LeftCurlyBrace"
  | .leftParen => "LeftParen"
  | .leftBracket => "LeftSquareBracket"
  | .less => "Lt"
  | .minus => "Minus"
  | .plus => "Plus"
  | .rightBrace => "RightCurlyBrace"
  | .rightParen => "RightParen"
  | .rightBracket => "RightSquareBracket"
  | .semicolon => "Semicolon"
  | .slash => "Slash"
  | .tilde => "Tilde"
  | .bar => "VBar"

namespace Token

def kindTitle : Token → String
  | .identifier _ => "Identifier"
  | .integer _ => "IntegerConstant"
  | .keyword _ => "Keyword"
  | .string _ => "StringConstant"
  | .symbol _ => "Symbol"

/-- The content of a token as the listing writes it; names and strings stand
between quotes. -/
def content : Token → String
  | .identifier name => Text.Quoted.encode name
  | .integer value => toString value
  | .keyword reserved => reserved.title
  | .string text => Text.Quoted.encode text
  | .symbol sign => sign.title

def entry (token : Token) : String :=
  "    " ++ token.kindTitle ++ "(\n        " ++ token.content ++ ",\n    ),\n"

def listing (tokens : List Token) : String :=
  if tokens.isEmpty then
    "[]"
  else
    "[\n" ++ String.join (tokens.map entry) ++ "]"

end Token

end JackToVm
