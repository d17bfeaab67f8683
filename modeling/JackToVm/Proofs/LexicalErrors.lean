import JackToVm.Proofs.Lexing
import JackToVm.Token.Fault

/-!
# Lexical errors

A source that is no row of pieces is refused, and the error tells the fault at
the first place where no piece begins: its kind, and the characters that it
names. So a scan is described in both directions, when it succeeds and when it
fails.
-/

namespace JackToVm.Token

/-! ## Reserved words -/

/-- A run of name characters is a keyword exactly if it is a reserved word as
a whole. -/
theorem ofWord_eq_keyword_iff {word : String} {reserved : Keyword} :
    ofWord word = .keyword reserved ↔ reserved.word = word := by
  constructor
  · intro found
    unfold ofWord at found
    split at found
    next other spelled =>
      injection found with same
      rw [← same]
      exact Keyword.word_of_ofWord? spelled
    next => cases found
  · rintro rfl
    rw [ofWord, Keyword.ofWord?_word]

theorem ofWord_eq_identifier_iff {word : String} :
    ofWord word = .identifier word ↔
      ∀ reserved : Keyword, reserved.word ≠ word := by
  constructor
  · intro named reserved same
    rw [ofWord_eq_keyword_iff.mpr same] at named
    cases named
  · intro free
    cases found : ofWord word with
    | keyword reserved =>
        exact absurd (ofWord_eq_keyword_iff.mp found) (free reserved)
    | identifier name =>
        unfold ofWord at found
        split at found
        next => cases found
        next => rw [← found]
    | integer _ | string _ | symbol _ =>
        unfold ofWord at found
        split at found <;> cases found

/-! ## Faults of single pieces -/

theorem map_eq_error_iff {α β : Type} {step : Except LexError α}
    {f : α → β} {cause : LexError} :
    step.map f = .error cause ↔ step = .error cause := by
  cases step with
  | error found => simp [Except.map]
  | ok found => simp [Except.map]

/-- A block comment is open if there is no closing mark in it. -/
theorem skipBlockComment_eq_none_iff {text : List Char} :
    skipBlockComment text = none ↔ ¬ ['*', '/'] <:+: text := by
  constructor
  · intro opened inside
    fun_induction skipBlockComment text with
    | case1 => simp at inside
    | case2 => cases opened
    | case3 c rest unmarked inductionHypothesis =>
        rcases List.infix_cons_iff.mp inside with first | later
        · obtain ⟨behind, whole⟩ := first
          injection whole with star slash
          exact unmarked behind star.symm slash.symm
        · exact inductionHypothesis opened later
  · intro unclosed
    cases closed : skipBlockComment text with
    | none => rfl
    | some after =>
        obtain ⟨content, rfl, _⟩ := skipBlockComment_eq_some_iff.mp closed
        exact absurd ⟨content, after, by simp⟩ unclosed

theorem ofDigits_eq_error_iff {digits : List Char} {cause : LexError} :
    ofDigits digits = .error cause ↔
      maxConstant < valueOf digits ∧
        cause = .largeInteger (String.ofList digits) := by
  cases read : ofDigits digits with
  | ok token =>
      obtain ⟨small, _⟩ := ofDigits_eq_ok_iff.mp read
      constructor
      · intro failed
        cases failed
      · rintro ⟨large, _⟩
        omega
  | error found =>
      have large : maxConstant < valueOf digits := by
        by_contra small
        have ok := ofDigits_eq_ok_iff.mpr ⟨Nat.not_lt.mp small, rfl⟩
        rw [read] at ok
        cases ok
      have same : found = .largeInteger (String.ofList digits) := by
        unfold ofDigits at read
        split at read
        next => cases read
        next => exact (Except.error.inj read).symm
      rw [same]
      simp [large, eq_comm]

/-- A character that stops a string is its quote, a line break, or foreign. -/
theorem isStringPart_eq_false_iff {c : Char} :
    isStringPart c = false ↔ c = '"' ∨ c = '\n' ∨ 128 ≤ c.toNat := by
  by_cases quote : c = '"'
  · simp [isStringPart, quote]
  by_cases lineBreak : c = '\n'
  · simp [isStringPart, lineBreak]
  simp [isStringPart, quote, lineBreak]

theorem isFault_of_readString {text : List Char} {cause : LexError}
    (failed : readString text = .error cause) :
    IsFault ('"' :: text) cause := by
  have whole : text.takeWhile isStringPart ++
      text.dropWhile isStringPart = text :=
    List.takeWhile_append_dropWhile
  have all : (text.takeWhile isStringPart).all isStringPart = true :=
    List.all_takeWhile
  have stops := not_beginsWith_dropWhile isStringPart text
  rw [← whole]
  unfold readString at failed
  dsimp only at failed
  split at failed
  next rest left =>
    rw [left]
    split at failed
    next => cases failed
    next long =>
      obtain rfl := Except.error.inj failed
      exact .longString all (Nat.lt_of_not_le long)
  next left =>
    obtain rfl := Except.error.inj failed
    rw [left]
    exact .openString all (Or.inl rfl)
  next rest left =>
    obtain rfl := Except.error.inj failed
    rw [left]
    exact .openString all (Or.inr ⟨_, _, rfl, rfl⟩)
  next c rest quote lineBreak left =>
    obtain rfl := Except.error.inj failed
    rw [left] at stops ⊢
    have refused : isStringPart c = false := by
      by_contra accepted
      exact stops ⟨c, rest, rfl, Bool.of_not_eq_false accepted⟩
    rcases isStringPart_eq_false_iff.mp refused with same | same | foreign
    · exact absurd same quote
    · exact absurd same lineBreak
    · exact .foreignCharacter all foreign

section StringFaults

variable {content behind : List Char}

theorem readString_open (all : content.all isStringPart = true)
    (ends : behind = [] ∨ BeginsWith (· == '\n') behind) :
    readString (content ++ behind) =
      .error (.openString (String.ofList content)) := by
  have stops : ¬ BeginsWith isStringPart behind := by
    rintro ⟨c, rest, rfl, accepted⟩
    rcases ends with none | ⟨_, _, same, broken⟩
    · cases none
    · injection same with first _
      rw [first, eq_of_beq broken] at accepted
      cases accepted
  rw [readString, dropWhile_run all stops, takeWhile_run all stops]
  rcases ends with rfl | ⟨c, rest, rfl, broken⟩
  · rfl
  · rw [eq_of_beq broken]
    rfl

theorem readString_foreign {c : Char}
    (all : content.all isStringPart = true) (foreign : 128 ≤ c.toNat) :
    readString (content ++ c :: behind) = .error (.foreignCharacter c) := by
  have stops : ¬ BeginsWith isStringPart (c :: behind) := by
    rintro ⟨first, rest, same, accepted⟩
    injection same with same _
    rw [← same, isStringPart_eq_false_iff.mpr (Or.inr (Or.inr foreign))]
      at accepted
    cases accepted
  rw [readString, dropWhile_run all stops]
  have notQuote : c ≠ '"' := by
    rintro rfl
    revert foreign
    decide
  have notBreak : c ≠ '\n' := by
    rintro rfl
    revert foreign
    decide
  split
  next same => exact absurd (List.cons.inj same).1 notQuote
  next same => cases same
  next same => exact absurd (List.cons.inj same).1 notBreak
  next same => rw [(List.cons.inj same).1]

theorem readString_long (all : content.all isStringPart = true)
    (long : maxConstant < content.length) :
    readString (content ++ '"' :: behind) = .error .longString := by
  have stops : ¬ BeginsWith isStringPart ('"' :: behind) := by
    rintro ⟨c, rest, same, accepted⟩
    injection same with first _
    subst first
    cases accepted
  rw [readString, dropWhile_run all stops, takeWhile_run all stops]
  exact if_neg (Nat.not_le.mpr long)

end StringFaults

theorem ofSymbolChar_eq_error_iff {c : Char} {cause : LexError} :
    ofSymbolChar c = .error cause ↔
      (∀ sign : Symbol, sign.char ≠ c) ∧ cause = .strayCharacter c := by
  cases read : ofSymbolChar c with
  | ok token =>
      obtain ⟨sign, same, _⟩ := ofSymbolChar_eq_ok_iff.mp read
      constructor
      · intro failed
        cases failed
      · rintro ⟨unknown, _⟩
        exact absurd same (unknown sign)
  | error found =>
      have unknown : ∀ sign : Symbol, sign.char ≠ c := by
        intro sign same
        have ok := ofSymbolChar_eq_ok_iff.mpr ⟨sign, same, rfl⟩
        rw [read] at ok
        cases ok
      have same : found = .strayCharacter c := by
        unfold ofSymbolChar at read
        split at read
        next => cases read
        next => exact (Except.error.inj read).symm
      rw [same]
      simp [unknown, eq_comm]

/-! ## Faults and pieces -/

/-- What cannot be read at the beginning of a text is a fault there. -/
theorem isFault_of_readPiece {c : Char} {rest : List Char}
    {cause : LexError} (failed : readPiece c rest = .error cause) :
    IsFault (c :: rest) cause := by
  by_cases lineComment : c = '/' ∧ rest.head? = some '/'
  · obtain ⟨rfl, second⟩ := lineComment
    obtain ⟨text, rfl⟩ := List.head?_eq_some_iff.mp second
    rw [readPiece_lineComment] at failed
    cases failed
  by_cases blockComment : c = '/' ∧ rest.head? = some '*'
  · obtain ⟨rfl, second⟩ := blockComment
    obtain ⟨text, rfl⟩ := List.head?_eq_some_iff.mp second
    rw [readPiece_blockComment] at failed
    split at failed
    next => cases failed
    next opened =>
      obtain rfl := Except.error.inj failed
      exact .openComment (skipBlockComment_eq_none_iff.mp opened)
  rw [readPiece, if_neg lineComment, if_neg blockComment] at failed
  split at failed
  next => cases failed
  next visible =>
  split at failed
  next quote =>
    subst quote
    exact isFault_of_readString (map_eq_error_iff.mp failed)
  next notQuote =>
  split at failed
  next digit =>
    obtain ⟨large, rfl⟩ :=
      ofDigits_eq_error_iff.mp (map_eq_error_iff.mp failed)
    have all : (c :: rest.takeWhile Char.isDigit).all Char.isDigit =
        true := by
      rw [List.all_cons, digit, List.all_takeWhile]
      rfl
    have fault := IsFault.largeInteger all
      (not_beginsWith_dropWhile Char.isDigit rest) large
    rw [List.cons_append, List.takeWhile_append_dropWhile] at fault
    exact fault
  next notDigit =>
  split at failed
  next => cases failed
  next notLetter =>
    obtain ⟨unknown, rfl⟩ :=
      ofSymbolChar_eq_error_iff.mp (map_eq_error_iff.mp failed)
    exact .strayCharacter (Bool.of_not_eq_true visible) notQuote
      (Bool.of_not_eq_true notDigit) (Bool.of_not_eq_true notLetter) unknown

/-- A text that begins with a fault cannot be read. -/
theorem readPiece_of_isFault {text : List Char} {cause : LexError}
    (fault : IsFault text cause) :
    ∃ c rest, text = c :: rest ∧ readPiece c rest = .error cause := by
  cases fault with
  | @openComment content unclosed =>
      refine ⟨'/', '*' :: content, rfl, ?_⟩
      rw [readPiece_blockComment, skipBlockComment_eq_none_iff.mpr unclosed]
  | @openString content behind all ends =>
      refine ⟨'"', content ++ behind, rfl, ?_⟩
      rw [readPiece_string, readString_open all ends]
      rfl
  | @foreignCharacter content behind c all foreign =>
      refine ⟨'"', content ++ c :: behind, rfl, ?_⟩
      rw [readPiece_string, readString_foreign all foreign]
      rfl
  | @longString content behind all long =>
      refine ⟨'"', content ++ '"' :: behind, rfl, ?_⟩
      rw [readPiece_string, readString_long all long]
      rfl
  | @largeInteger c others behind all stops large =>
      refine ⟨c, others ++ behind, rfl, ?_⟩
      obtain ⟨digit, allOthers⟩ := Bool.and_eq_true_iff.mp
        (List.all_cons.symm.trans all)
      rw [readPiece_number digit, takeWhile_run allOthers stops,
        ofDigits_eq_error_iff.mpr ⟨large, rfl⟩]
      rfl
  | @strayCharacter c behind visible notQuote notDigit notLetter unknown =>
      refine ⟨c, behind, rfl, ?_⟩
      have notSlash : c ≠ '/' := (unknown .slash).symm
      rw [readPiece, if_neg (by simp [visible]),
        if_neg (fun both => notSlash both.1),
        if_neg (fun both => notSlash both.1), if_neg notQuote,
        if_neg (by simp [notDigit]), if_neg (by simp [notLetter]),
        ofSymbolChar_eq_error_iff.mpr ⟨unknown, rfl⟩]
      rfl

/-! ## Sources that are refused -/

theorem isBroken_of_scanFrom {tokens : Array Token} {text : List Char}
    {cause : LexError} (failed : scanFrom tokens text = .error cause) :
    IsBroken text cause := by
  fun_induction scanFrom tokens text with
  | case1 => cases failed
  | case2 tokens c rest found read =>
      obtain rfl := Except.error.inj failed
      exact .here (isFault_of_readPiece read)
  | case3 tokens c rest after read inductionHypothesis =>
      obtain ⟨piece, text, isPiece⟩ := isPiece_of_readPiece read
      rw [text]
      exact .behind isPiece (inductionHypothesis failed)
  | case4 tokens c rest token after read inductionHypothesis =>
      obtain ⟨piece, text, isPiece⟩ := isPiece_of_readPiece read
      rw [text]
      exact .behind isPiece (inductionHypothesis failed)

theorem scanFrom_of_isBroken {text : List Char} {cause : LexError}
    (broken : IsBroken text cause) (tokens : Array Token) :
    scanFrom tokens text = .error cause := by
  induction broken generalizing tokens with
  | here fault =>
      obtain ⟨c, rest, rfl, failed⟩ := readPiece_of_isFault fault
      rw [scanFrom]
      split
      next found read =>
        rw [failed] at read
        rw [Except.error.inj read]
      next read =>
        rw [failed] at read
        cases read
      next read =>
        rw [failed] at read
        cases read
  | behind isPiece _ inductionHypothesis =>
      obtain ⟨c, rest, whole, read⟩ := readPiece_of_isPiece isPiece
      rw [whole, scanFrom]
      split
      next found failed =>
        rw [read] at failed
        cases failed
      next after found =>
        rw [read] at found
        obtain ⟨_, rfl⟩ := Prod.mk.inj (Except.ok.inj found)
        exact inductionHypothesis tokens
      next token after found =>
        rw [read] at found
        obtain ⟨_, rfl⟩ := Prod.mk.inj (Except.ok.inj found)
        exact inductionHypothesis (tokens.push token)

theorem scan_eq_error_iff {source : String} {cause : LexError} :
    scan source = .error cause ↔ IsBroken source.toList cause := by
  constructor
  · intro failed
    exact isBroken_of_scanFrom failed
  · intro broken
    exact scanFrom_of_isBroken broken #[]

/-- A source is scanned into tokens exactly if it is a row of pieces that stand
for them, and refused with a cause exactly if pieces reach up to a fault with
that cause. -/
theorem scan_outcome_iff (source : String) :
    (∀ tokens, scan source = .ok tokens ↔ IsCut source.toList tokens) ∧
      (∀ cause, scan source = .error cause ↔
        IsBroken source.toList cause) ∧
      ∀ word, (∀ reserved, ofWord word = .keyword reserved ↔
          reserved.word = word) ∧
        (ofWord word = .identifier word ↔
          ∀ reserved : Keyword, reserved.word ≠ word) :=
  ⟨fun _ => scan_eq_ok_iff, fun _ => scan_eq_error_iff,
    fun _ => ⟨fun _ => ofWord_eq_keyword_iff, ofWord_eq_identifier_iff⟩⟩

/-- The star of `/*` does not close the comment. -/
example : scan "x/*/" = .error .openComment := by cbv

end JackToVm.Token
