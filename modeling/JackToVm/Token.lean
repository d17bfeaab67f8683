/-!
# Tokens

The words of a Jack source: keywords, symbols, names, and integer and string
constants, with their spelling and the phrase by which a message names them.
The operators of the grammar are read off the symbols.
-/

namespace JackToVm

/-! ## Keywords -/

inductive Keyword where
  | boolean
  | char
  | classWord
  | constructor
  | do
  | else
  | false
  | field
  | function
  | if
  | int
  | let
  | method
  | null
  | return
  | static
  | this
  | true
  | var
  | void
  | while
deriving DecidableEq, Repr

namespace Keyword

def all : List Keyword :=
  [.boolean, .char, .classWord, .constructor, .do, .else, .false, .field,
    .function, .if, .int, .let, .method, .null, .return, .static, .this,
    .true, .var, .void, .while]

def word : Keyword → String
  | .boolean => "boolean"
  | .char => "char"
  | .classWord => "class"
  | .constructor => "constructor"
  | .do => "do"
  | .else => "else"
  | .false => "false"
  | .field => "field"
  | .function => "function"
  | .if => "if"
  | .int => "int"
  | .let => "let"
  | .method => "method"
  | .null => "null"
  | .return => "return"
  | .static => "static"
  | .this => "this"
  | .true => "true"
  | .var => "var"
  | .void => "void"
  | .while => "while"

/-- The keyword with the given spelling. -/
def ofWord? (word : String) : Option Keyword :=
  all.find? fun keyword => keyword.word == word

theorem mem_all (keyword : Keyword) : keyword ∈ all := by
  cases keyword <;> decide

/-- Reading a keyword's own spelling gives the keyword back. -/
@[simp]
theorem ofWord?_word (keyword : Keyword) : ofWord? keyword.word = some keyword := by
  cases keyword <;> rfl

theorem word_of_ofWord? {word : String} {keyword : Keyword}
    (found : ofWord? word = some keyword) : keyword.word = word := by
  simpa using List.find?_some found

end Keyword

/-! ## Symbols -/

inductive Symbol where
  | ampersand
  | asterisk
  | comma
  | dot
  | equal
  | greater
  | leftBrace
  | leftParen
  | leftBracket
  | less
  | minus
  | plus
  | rightBrace
  | rightParen
  | rightBracket
  | semicolon
  | slash
  | tilde
  | bar
deriving DecidableEq, Repr

inductive BinaryOperator where
  | add
  | and
  | divide
  | equal
  | greater
  | less
  | multiply
  | or
  | subtract
deriving DecidableEq, Repr

inductive UnaryOperator where
  | negate
  | not
deriving DecidableEq, Repr

namespace Symbol

def all : List Symbol :=
  [.ampersand, .asterisk, .comma, .dot, .equal, .greater, .leftBrace,
    .leftParen, .leftBracket, .less, .minus, .plus, .rightBrace, .rightParen,
    .rightBracket, .semicolon, .slash, .tilde, .bar]

def char : Symbol → Char
  | .ampersand => '&'
  | .asterisk => '*'
  | .comma => ','
  | .dot => '.'
  | .equal => '='
  | .greater => '>'
  | .leftBrace => '\x7b'
  | .leftParen => '('
  | .leftBracket => '['
  | .less => '<'
  | .minus => '-'
  | .plus => '+'
  | .rightBrace => '\x7d'
  | .rightParen => ')'
  | .rightBracket => ']'
  | .semicolon => ';'
  | .slash => '/'
  | .tilde => '~'
  | .bar => '|'

def ofChar? (c : Char) : Option Symbol :=
  all.find? fun symbol => symbol.char == c

def binaryOperator? : Symbol → Option BinaryOperator
  | .plus => some .add
  | .minus => some .subtract
  | .asterisk => some .multiply
  | .slash => some .divide
  | .ampersand => some .and
  | .bar => some .or
  | .less => some .less
  | .greater => some .greater
  | .equal => some .equal
  | _ => none

def unaryOperator? : Symbol → Option UnaryOperator
  | .minus => some .negate
  | .tilde => some .not
  | _ => none

theorem mem_all (symbol : Symbol) : symbol ∈ all := by
  cases symbol <;> decide

@[simp]
theorem ofChar?_char (symbol : Symbol) : ofChar? symbol.char = some symbol := by
  cases symbol <;> rfl

theorem char_of_ofChar? {c : Char} {symbol : Symbol}
    (found : ofChar? c = some symbol) : symbol.char = c := by
  simpa using List.find?_some found

end Symbol

def BinaryOperator.symbol : BinaryOperator → Symbol
  | .add => .plus
  | .and => .ampersand
  | .divide => .slash
  | .equal => .equal
  | .greater => .greater
  | .less => .less
  | .multiply => .asterisk
  | .or => .bar
  | .subtract => .minus

def UnaryOperator.symbol : UnaryOperator → Symbol
  | .negate => .minus
  | .not => .tilde

namespace Symbol

theorem binaryOperator?_eq_some_iff {symbol : Symbol}
    {operator : BinaryOperator} :
    symbol.binaryOperator? = some operator ↔ symbol = operator.symbol := by
  cases symbol <;> cases operator <;>
    simp [binaryOperator?, BinaryOperator.symbol]

theorem unaryOperator?_eq_some_iff {symbol : Symbol}
    {operator : UnaryOperator} :
    symbol.unaryOperator? = some operator ↔ symbol = operator.symbol := by
  cases symbol <;> cases operator <;>
    simp [unaryOperator?, UnaryOperator.symbol]

end Symbol

/-! ## Tokens -/

inductive Token where
  /-- A name that is not reserved. -/
  | identifier (name : String)
  | integer (value : Nat)
  /-- A reserved word. -/
  | keyword (reserved : Keyword)
  | string (content : String)
  | symbol (sign : Symbol)
deriving DecidableEq, Repr

namespace Token

/-- The text of a token as a reader sees it, a string without its quotes. -/
def text : Token → String
  | .identifier name => name
  | .integer value => toString value
  | .keyword reserved => reserved.word
  | .string content => content
  | .symbol sign => String.singleton sign.char

def kindPhrase : Token → String
  | .identifier _ => "identifier"
  | .integer _ => "integer constant"
  | .keyword _ => "keyword"
  | .string _ => "string constant"
  | .symbol _ => "symbol"

/-- The phrase that names a token in a message. -/
def describe (token : Token) : String :=
  token.kindPhrase ++ " `" ++ token.text ++ "`"

def binaryOperator? : Token → Option BinaryOperator
  | .symbol sign => sign.binaryOperator?
  | _ => none

end Token

end JackToVm
