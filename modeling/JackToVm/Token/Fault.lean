import JackToVm.Token.Piece

/-!
# Places where no piece begins

A source that is no row of pieces has a first place at which no piece begins.
A fault says why: what stands there would be a piece but for its end, its size
or one of its characters, or it begins like no piece at all.
-/

namespace JackToVm.Token

/-- No piece begins the text, for a cause. -/
inductive IsFault : List Char → LexError → Prop where
  /-- No `*/` stands behind the `/*`. -/
  | openComment {content : List Char} :
      ¬ ['*', '/'] <:+: content →
      IsFault ('/' :: '*' :: content) .openComment
  | openString {content behind : List Char} :
      content.all isStringPart = true →
      behind = [] ∨ BeginsWith (· == '\n') behind →
      IsFault ('"' :: content ++ behind)
        (.openString (String.ofList content))
  | foreignCharacter {content behind : List Char} {c : Char} :
      content.all isStringPart = true →
      128 ≤ c.toNat →
      IsFault ('"' :: content ++ c :: behind) (.foreignCharacter c)
  | longString {content behind : List Char} :
      content.all isStringPart = true →
      maxConstant < content.length →
      IsFault ('"' :: content ++ '"' :: behind) .longString
  /-- The whole run of digits is too large. -/
  | largeInteger {c : Char} {others behind : List Char} :
      (c :: others).all Char.isDigit = true →
      ¬ BeginsWith Char.isDigit behind →
      maxConstant < valueOf (c :: others) →
      IsFault (c :: others ++ behind)
        (.largeInteger (String.ofList (c :: others)))
  | strayCharacter {c : Char} {behind : List Char} :
      Text.isBlank c = false →
      c ≠ '"' →
      c.isDigit = false →
      isNameStart c = false →
      (∀ sign : Symbol, sign.char ≠ c) →
      IsFault (c :: behind) (.strayCharacter c)

/-- A text is cut into pieces up to a place where no piece begins. -/
inductive IsBroken : List Char → LexError → Prop where
  | here {text : List Char} {cause : LexError} :
      IsFault text cause →
      IsBroken text cause
  | behind {piece behind : List Char} {token : Option Token}
      {cause : LexError} :
      IsPiece piece behind token →
      IsBroken behind cause →
      IsBroken (piece ++ behind) cause

end JackToVm.Token
