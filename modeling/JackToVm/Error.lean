import JackToVm.Label
import JackToVm.Node
import JackToVm.Token
import JackToVm.Variable

/-!
# Errors of a compilation

Why a source is refused, one constructor per cause, and the message for each.
An error ends the compilation of its source.
-/

namespace JackToVm

/-! ## Characters that form no token -/

/-- Largest integer constant, and largest length of a string constant. -/
def maxConstant : Nat := 32767

inductive LexError where
  | openComment
  /-- A string constant that reaches a line break or the end; `content` is
  what stands behind its quote. -/
  | openString (content : String)
  /-- A string constant that contains a character outside ASCII. -/
  | foreignCharacter (c : Char)
  | longString
  /-- A run of digits whose value exceeds `maxConstant`. -/
  | largeInteger (digits : String)
  | strayCharacter (c : Char)
deriving DecidableEq, Repr

def LexError.message : LexError → String
  | .openComment => "Unterminated block comment"
  | .openString content => "Unterminated string constant `\"" ++ content ++ "`"
  | .foreignCharacter c =>
      "String constant contains the non-ASCII character `" ++
        String.singleton c ++ "`"
  | .longString =>
      "String constant exceeds the maximum length of " ++ toString maxConstant
  | .largeInteger digits =>
      "Integer constant `" ++ digits ++ "` exceeds the maximum of " ++
        toString maxConstant
  | .strayCharacter c => "Invalid character `" ++ String.singleton c ++ "`"

/-! ## Tokens that form no class -/

inductive NameRole where
  | className
  | variable
  | subroutine
  | parameter
deriving DecidableEq, Repr

def NameRole.word : NameRole → String
  | .className => "class"
  | .variable => "variable"
  | .subroutine => "subroutine"
  | .parameter => "parameter"

/-- What the grammar asks for at a place. -/
inductive Expectation where
  | keyword (reserved : Keyword)
  | symbol (sign : Symbol)
  | name (role : NameRole)
  | type
  | voidOrType
  | term
  | endOfFile
deriving DecidableEq, Repr

def endOfFilePhrase : String := "end of file"

def Expectation.phrase : Expectation → String
  | .keyword reserved => "keyword `" ++ reserved.word ++ "`"
  | .symbol sign => "symbol `" ++ String.singleton sign.char ++ "`"
  | .name role => role.word ++ " name"
  | .type => "type"
  | .voidOrType => "keyword `void` or type"
  | .term => "term"
  | .endOfFile => endOfFilePhrase

/-! ## Limits -/

/-- Largest number of a machine word that counts variables, arguments or
characters. -/
def maxCount : Nat := 65535

inductive Limit where
  | depth (node : Node)
  /-- A run has more statements of a kind than there are labels. -/
  | labels (kind : LabelKind)
  | variableCount (kind : VariableKind)
  | stringLength
  | arguments (target : String)
deriving DecidableEq, Repr

def Limit.message : Limit → String
  | .depth node =>
      "Nesting exceeds " ++ toString Node.maxDepth ++ " levels at `" ++
        node.tag ++ "`"
  | .labels kind => "Too many " ++ kind.word ++ " statements"
  | .variableCount kind =>
      "More than " ++ toString maxCount ++ " " ++ kind.word ++
        " variables in one scope"
  | .stringLength => "String constant is too long"
  | .arguments target =>
      "More than " ++ toString maxCount ++ " arguments in call of `" ++
        target ++ "`"

/-! ## Compile errors -/

inductive CompileError where
  | lexical (cause : LexError)
  /-- The grammar asks for something else than the token found, `none` at the
  end of the source. -/
  | unexpected (expected : Expectation) (found : Option Token)
  /-- A name that is declared neither in the subroutine nor in the class. -/
  | unresolved (name : String)
  /-- A name that is declared a second time in the same scope. -/
  | redeclared (name : String) (kind : VariableKind)
  | limit (cause : Limit)
deriving DecidableEq, Repr

def foundPhrase : Option Token → String
  | some token => token.describe
  | none => endOfFilePhrase

def CompileError.message : CompileError → String
  | .lexical cause => "(LexError) " ++ cause.message
  | .unexpected expected found =>
      "(SyntaxError) Expected " ++ expected.phrase ++ ". Found: " ++
        foundPhrase found ++ "."
  | .unresolved name => "(NameError) Unresolved variable `" ++ name ++ "`"
  | .redeclared name kind =>
      "(NameError) `" ++ name ++ "` is already declared as a " ++ kind.word ++
        " variable in this scope"
  | .limit cause => "(LimitError) " ++ cause.message

end JackToVm
