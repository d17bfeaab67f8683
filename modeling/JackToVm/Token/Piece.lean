import JackToVm.Token.Lexer

/-!
# The pieces of a source

How a source text is cut, said without the way of doing it: a text is a row of
pieces, and each piece is as long as what stands behind it allows. Blanks and
comments stand for no token.
-/

namespace JackToVm.Token

/-- Whether a text begins with a character of a class. -/
def BeginsWith (wanted : Char → Bool) (text : List Char) : Prop :=
  ∃ c rest, text = c :: rest ∧ wanted c = true

def valueOf (digits : List Char) : Nat :=
  digits.foldl (fun value digit => 10 * value + (digit.toNat - '0'.toNat)) 0

/-- The first text is a piece where the second one stands behind it. The token
is none for a piece that is dropped. -/
inductive IsPiece : List Char → List Char → Option Token → Prop where
  | blank {c : Char} {behind : List Char} :
      Text.isBlank c = true →
      IsPiece [c] behind none
  /-- Two slashes and all up to the line break or the end. -/
  | lineComment {content behind : List Char} :
      '\n' ∉ content →
      behind = [] ∨ BeginsWith (· == '\n') behind →
      IsPiece ('/' :: '/' :: content) behind none
  /-- All from `/*` up to the first `*/` behind it. -/
  | blockComment {content behind : List Char} :
      ¬ ['*', '/'] <:+: content ++ ['*'] →
      IsPiece ('/' :: '*' :: content ++ ['*', '/']) behind none
  | word {c : Char} {others behind : List Char} :
      isNameStart c = true →
      others.all isNamePart = true →
      ¬ BeginsWith isNamePart behind →
      IsPiece (c :: others) behind (some (ofWord (String.ofList (c :: others))))
  /-- A run of digits whose value is not too large. -/
  | number {c : Char} {others behind : List Char} :
      (c :: others).all Char.isDigit = true →
      ¬ BeginsWith Char.isDigit behind →
      valueOf (c :: others) ≤ maxConstant →
      IsPiece (c :: others) behind (some (.integer (valueOf (c :: others))))
  /-- Characters of a string between two quotes. -/
  | string {content behind : List Char} :
      content.all isStringPart = true →
      content.length ≤ maxConstant →
      IsPiece ('"' :: content ++ ['"']) behind
        (some (.string (String.ofList content)))
  /-- A symbol character; a slash must not begin a comment. -/
  | symbol {sign : Symbol} {behind : List Char} :
      (sign = .slash → ¬ BeginsWith (fun c => c == '/' || c == '*') behind) →
      IsPiece [sign.char] behind (some (.symbol sign))

/-- A text is a row of pieces that stand for the tokens. -/
inductive IsCut : List Char → List Token → Prop where
  | nil : IsCut [] []
  | cons {piece behind : List Char} {token : Option Token}
      {tokens : List Token} :
      IsPiece piece behind token →
      IsCut behind tokens →
      IsCut (piece ++ behind) (token.toList ++ tokens)

/-! ## Writing tokens -/

/-- Whether a text is a name: a run of name characters that begins as a name
does and is not reserved. -/
def IsName (name : String) : Prop :=
  name.toList.head?.any isNameStart = true ∧
    name.toList.all isNamePart = true ∧ Keyword.ofWord? name = none

instance (name : String) : Decidable (IsName name) :=
  inferInstanceAs (Decidable (_ ∧ _ ∧ _))

/-- Whether a token can stand in a source text. -/
def IsWritten : Token → Prop
  | .identifier name => IsName name
  | .integer value => value ≤ maxConstant
  | .string content =>
      content.toList.all isStringPart = true ∧ content.length ≤ maxConstant
  | .keyword _ | .symbol _ => True

instance : DecidablePred IsWritten
  | .identifier name => inferInstanceAs (Decidable (IsName name))
  | .integer value => inferInstanceAs (Decidable (value ≤ maxConstant))
  | .string _ => inferInstanceAs (Decidable (_ ∧ _))
  | .keyword _ => inferInstanceAs (Decidable True)
  | .symbol _ => inferInstanceAs (Decidable True)

/-- A token as it stands in a source text. -/
def spelling (token : Token) : List Char :=
  match token with
  | .string content => '"' :: content.toList ++ ['"']
  | .identifier _ | .integer _ | .keyword _ | .symbol _ => token.text.toList

/-- The source text that spells tokens one after the other, each with a space
behind it. -/
def spelled (tokens : List Token) : String :=
  String.ofList (tokens.flatMap fun token => token.spelling ++ [' '])

/-- A text spells tokens one after the other with blanks between them: one at
least behind each token but the last. -/
inductive IsSpelling : List Token → List Char → Prop where
  | nil : IsSpelling [] []
  | cons {token : Token} {tokens : List Token} {gap text : List Char} :
      gap.all Text.isBlank = true →
      (gap = [] → tokens = []) →
      IsSpelling tokens text →
      IsSpelling (token :: tokens) (token.spelling ++ gap ++ text)

end JackToVm.Token
