import JackToVm.Error
import JackToVm.Text

/-!
# Cutting a text into tokens

`Token.scan` reads a text from the left. At each place stands a blank, a
comment, or the longest token that begins there; `readPiece` takes that piece
and `readPiece_length` says that it leaves no more than what stood behind the
first character.
-/

namespace JackToVm.Token

/-! ## Character classes -/

/-- The characters that can begin a name: ASCII letters and the underscore. -/
def isNameStart (c : Char) : Bool :=
  c.isAlpha || c == '_'

/-- The characters that can continue a name: also ASCII digits. -/
def isNamePart (c : Char) : Bool :=
  c.isAlphanum || c == '_'

/-- The characters that can stand in a string constant: ASCII without the
double quote and the line break. -/
def isStringPart (c : Char) : Bool :=
  c.toNat < 128 && c != '"' && c != '\n'

/-! ## The pieces of a text -/

/-- The text behind the first closing mark of a block comment. -/
def skipBlockComment : List Char → Option (List Char)
  | [] => none
  | '*' :: '/' :: rest => some rest
  | _ :: rest => skipBlockComment rest

/-- The value of decimal digits, or none if it exceeds `maxConstant`. -/
def boundedValue? (digits : List Char) : Option Nat :=
  digits.foldlM (fun value digit =>
    let next := 10 * value + (digit.toNat - '0'.toNat)
    if next ≤ maxConstant then some next else none) 0

def ofDigits (digits : List Char) : Except LexError Token :=
  match boundedValue? digits with
  | some value => .ok (.integer value)
  | none => .error (.largeInteger (String.ofList digits))

/-- A run of name characters as a token: a reserved word if it is one. -/
def ofWord (word : String) : Token :=
  match Keyword.ofWord? word with
  | some reserved => .keyword reserved
  | none => .identifier word

/-- A string constant and the text behind it, from the text behind its opening
quote. -/
def readString (text : List Char) : Except LexError (Token × List Char) :=
  let content := text.takeWhile isStringPart
  match text.dropWhile isStringPart with
  | '"' :: rest =>
      if content.length ≤ maxConstant then
        .ok (.string (String.ofList content), rest)
      else
        .error .longString
  | [] => .error (.openString (String.ofList content))
  | '\n' :: _ => .error (.openString (String.ofList content))
  | c :: _ => .error (.foreignCharacter c)

def ofSymbolChar (c : Char) : Except LexError Token :=
  match Symbol.ofChar? c with
  | some sign => .ok (.symbol sign)
  | none => .error (.strayCharacter c)

/-- The piece that begins with `c` and goes on into `rest`: its token, if it
is one, and the text behind it. -/
def readPiece (c : Char) (rest : List Char) :
    Except LexError (Option Token × List Char) :=
  if Text.isBlank c then
    .ok (none, rest)
  else if c = '/' ∧ rest.head? = some '/' then
    .ok (none, rest.dropWhile (· != '\n'))
  else if c = '/' ∧ rest.head? = some '*' then
    match skipBlockComment rest.tail with
    | some after => .ok (none, after)
    | none => .error .openComment
  else if c = '"' then
    (readString rest).map fun (token, after) => (some token, after)
  else if c.isDigit then
    (ofDigits (c :: rest.takeWhile Char.isDigit)).map fun token =>
      (some token, rest.dropWhile Char.isDigit)
  else if isNameStart c then
    .ok (some (ofWord (String.ofList (c :: rest.takeWhile isNamePart))),
      rest.dropWhile isNamePart)
  else
    (ofSymbolChar c).map fun token => (some token, rest)

/-! ## Every piece shortens the text -/

theorem skipBlockComment_length {text after : List Char}
    (closed : skipBlockComment text = some after) :
    after.length ≤ text.length := by
  fun_induction skipBlockComment text with
  | case1 => simp at closed
  | case2 rest =>
      simp only [Option.some.injEq] at closed
      subst closed
      simp only [List.length_cons]
      omega
  | case3 _ rest _ inductionHypothesis =>
      have shorter := inductionHypothesis closed
      simp only [List.length_cons]
      omega

private theorem length_dropWhile_le (p : Char → Bool) (text : List Char) :
    (text.dropWhile p).length ≤ text.length :=
  (List.dropWhile_sublist p).length_le

theorem readString_length {text after : List Char} {token : Token}
    (read : readString text = .ok (token, after)) :
    after.length ≤ text.length := by
  have bound := length_dropWhile_le isStringPart text
  unfold readString at read
  split at read
  · next rest equality =>
      dsimp only at read
      split at read
      · simp only [Except.ok.injEq, Prod.mk.injEq] at read
        rw [equality] at bound
        simp only [List.length_cons] at bound
        rw [← read.2]
        omega
      · simp at read
  all_goals simp at read

theorem readPiece_length {c : Char} {rest after : List Char}
    {token : Option Token} (read : readPiece c rest = .ok (token, after)) :
    after.length ≤ rest.length := by
  unfold readPiece at read
  split at read
  · simp only [Except.ok.injEq, Prod.mk.injEq] at read
    simp [read.2]
  split at read
  · simp only [Except.ok.injEq, Prod.mk.injEq] at read
    rw [← read.2]
    exact length_dropWhile_le _ rest
  split at read
  · split at read
    · next closed =>
        simp only [Except.ok.injEq, Prod.mk.injEq] at read
        rw [← read.2]
        have shorter := skipBlockComment_length closed
        simp only [List.length_tail] at shorter
        omega
    · simp at read
  split at read
  · cases string : readString rest with
    | error cause => simp [string, Except.map] at read
    | ok result =>
        simp only [string, Except.map, Except.ok.injEq, Prod.mk.injEq] at read
        rw [← read.2]
        exact readString_length string
  split at read
  · cases number : ofDigits (c :: rest.takeWhile Char.isDigit) with
    | error cause => simp [number, Except.map] at read
    | ok result =>
        simp only [number, Except.map, Except.ok.injEq, Prod.mk.injEq] at read
        rw [← read.2]
        exact length_dropWhile_le _ rest
  split at read
  · simp only [Except.ok.injEq, Prod.mk.injEq] at read
    rw [← read.2]
    exact length_dropWhile_le _ rest
  · cases sign : ofSymbolChar c with
    | error cause => simp [sign, Except.map] at read
    | ok result =>
        simp only [sign, Except.map, Except.ok.injEq, Prod.mk.injEq] at read
        simp [read.2]

/-! ## The whole text -/

/-- The tokens of `text` behind the `tokens` already read. -/
def scanFrom (tokens : Array Token) (text : List Char) :
    Except LexError (List Token) :=
  match text with
  | [] => .ok tokens.toList
  | c :: rest =>
      match _ : readPiece c rest with
      | .error cause => .error cause
      | .ok (none, after) => scanFrom tokens after
      | .ok (some token, after) => scanFrom (tokens.push token) after
termination_by text.length
decreasing_by
  all_goals
    have shorter := readPiece_length ‹readPiece c rest = _›
    simp only [List.length_cons]
    omega

/-- The tokens of a source text. Blanks and comments are dropped. -/
def scan (source : String) : Except LexError (List Token) :=
  scanFrom #[] source.toList

end JackToVm.Token
