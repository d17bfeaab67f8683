import JackToVm.Token.Piece
import Mathlib.Data.List.Infix

/-!
# Scanning and pieces

A text is scanned into tokens exactly if it is a row of pieces that stand for
them. A scanned token is always one that can be written, and tokens that are
written with blanks behind them are scanned again.
-/

namespace JackToVm.Token

/-! ## Runs of characters -/

section Runs

variable {wanted : Char → Bool} {run behind : List Char}

theorem takeWhile_run (all : run.all wanted = true)
    (stops : ¬ BeginsWith wanted behind) :
    (run ++ behind).takeWhile wanted = run := by
  rw [List.takeWhile_append_of_pos (List.all_eq_true.mp all)]
  cases behind with
  | nil => simp
  | cons c rest =>
      have refused : wanted c = false := by
        by_contra accepted
        exact stops ⟨c, rest, rfl, by simpa using accepted⟩
      simp [refused]

theorem dropWhile_run (all : run.all wanted = true)
    (stops : ¬ BeginsWith wanted behind) :
    (run ++ behind).dropWhile wanted = behind := by
  rw [List.dropWhile_append_of_pos (List.all_eq_true.mp all)]
  cases behind with
  | nil => rfl
  | cons c rest =>
      have refused : wanted c = false := by
        by_contra accepted
        exact stops ⟨c, rest, rfl, by simpa using accepted⟩
      simp [refused]

theorem not_beginsWith_dropWhile (wanted : Char → Bool)
    (text : List Char) : ¬ BeginsWith wanted (text.dropWhile wanted) := by
  intro begins
  obtain ⟨c, rest, left, accepted⟩ := begins
  have refused := List.head_dropWhile_not wanted (l := text) (by simp [left])
  simp [left, accepted] at refused

end Runs

/-! ## Classes of characters -/

theorem isDigit_iff {c : Char} :
    c.isDigit = true ↔ 48 ≤ c.toNat ∧ c.toNat ≤ 57 := by
  simp only [Char.isDigit, Bool.and_eq_true, decide_eq_true_eq,
    ge_iff_le, UInt32.le_iff_toNat_le]
  rfl

theorem isUpper_iff {c : Char} :
    c.isUpper = true ↔ 65 ≤ c.toNat ∧ c.toNat ≤ 90 := by
  change decide (c.val ≥ 'A'.val ∧ c.val ≤ 'Z'.val) = true ↔ _
  simp only [decide_eq_true_eq, ge_iff_le, UInt32.le_iff_toNat_le]
  rfl

theorem isLower_iff {c : Char} :
    c.isLower = true ↔ 97 ≤ c.toNat ∧ c.toNat ≤ 122 := by
  change (decide (c.val ≥ 'a'.val) && decide (c.val ≤ 'z'.val)) = true ↔ _
  simp only [Bool.and_eq_true, decide_eq_true_eq, ge_iff_le,
    UInt32.le_iff_toNat_le]
  rfl

theorem isNameStart_iff {c : Char} :
    isNameStart c = true ↔
      65 ≤ c.toNat ∧ c.toNat ≤ 90 ∨ 97 ≤ c.toNat ∧ c.toNat ≤ 122 ∨
        c.toNat = 95 := by
  have underscore : c = '_' ↔ c.toNat = 95 := by
    constructor
    · rintro rfl
      rfl
    · intro code
      exact Char.toNat_inj.mp code
  have letter : c.isAlpha = (c.isUpper || c.isLower) := rfl
  rw [isNameStart, letter, Bool.or_eq_true, Bool.or_eq_true, beq_iff_eq,
    isUpper_iff, isLower_iff, underscore, or_assoc]

theorem isNamePart_iff {c : Char} :
    isNamePart c = true ↔ isNameStart c = true ∨ c.isDigit = true := by
  simp only [isNamePart, isNameStart, Char.isAlphanum, Bool.or_eq_true]
  constructor
  · rintro ((letter | digit) | underscore)
    · exact Or.inl (Or.inl letter)
    · exact Or.inr digit
    · exact Or.inl (Or.inr underscore)
  · rintro ((letter | underscore) | digit)
    · exact Or.inl (Or.inl letter)
    · exact Or.inr underscore
    · exact Or.inl (Or.inr digit)

/-- The visible characters of ASCII are not blank. -/
theorem isBlank_eq_false {c : Char} (above : 32 < c.toNat)
    (below : c.toNat < 127) : Text.isBlank c = false := by
  by_contra blank
  have found : c ∈ Text.blank := Bool.of_not_eq_false blank
  obtain ⟨range, member, lower, upper⟩ :=
    Text.CharSet.mem_iff_exists_range.mp found
  simp only [Text.blank, List.mem_cons, List.not_mem_nil,
    or_false] at member
  rcases member with rfl | rfl | rfl | rfl | rfl | rfl | rfl | rfl | rfl | rfl
  all_goals
    dsimp only at lower upper
    omega

theorem isBlank_eq_false_of_isDigit {c : Char}
    (digit : c.isDigit = true) : Text.isBlank c = false := by
  have code := isDigit_iff.mp digit
  exact isBlank_eq_false (by omega) (by omega)

theorem isBlank_eq_false_of_isNameStart {c : Char}
    (letter : isNameStart c = true) : Text.isBlank c = false := by
  have code := isNameStart_iff.mp letter
  exact isBlank_eq_false (by omega) (by omega)

theorem isBlank_eq_false_of_isNamePart {c : Char}
    (part : isNamePart c = true) : Text.isBlank c = false := by
  rcases isNamePart_iff.mp part with letter | digit
  · exact isBlank_eq_false_of_isNameStart letter
  · exact isBlank_eq_false_of_isDigit digit

/-! ## Block comments -/

/-- A block comment is closed by the first closing mark in it. -/
theorem skipBlockComment_eq_some_iff {text after : List Char} :
    skipBlockComment text = some after ↔
      ∃ content, text = content ++ '*' :: '/' :: after ∧
        ¬ ['*', '/'] <:+: content ++ ['*'] := by
  constructor
  · intro closed
    fun_induction skipBlockComment text with
    | case1 => cases closed
    | case2 rest =>
        obtain rfl := Option.some.inj closed
        exact ⟨[], rfl, by decide⟩
    | case3 c rest unmarked inductionHypothesis =>
        obtain ⟨content, rfl, unclosed⟩ := inductionHypothesis closed
        refine ⟨c :: content, rfl, ?_⟩
        intro inside
        rcases List.infix_cons_iff.mp inside with first | later
        · obtain ⟨behind, whole⟩ := first
          cases content with
          | nil => simp at whole
          | cons next others =>
              injection whole with star whole
              injection whole with slash _
              exact unmarked _ star.symm (by rw [← slash]; rfl)
        · exact unclosed later
  · intro cut
    obtain ⟨content, rfl, unclosed⟩ := cut
    induction content with
    | nil => rfl
    | cons c others inductionHypothesis =>
        have later : ¬ ['*', '/'] <:+: others ++ ['*'] := fun inside =>
          unclosed (List.infix_cons_iff.mpr (Or.inr inside))
        rw [List.cons_append, skipBlockComment, inductionHypothesis later]
        intro rest star slash
        subst star
        refine unclosed (List.infix_cons_iff.mpr (Or.inl ?_))
        cases others with
        | nil => simp at slash
        | cons next others =>
            injection slash with slash _
            subst slash
            exact ⟨others ++ ['*'], rfl⟩

/-! ## Numbers -/

theorem valueOf_eq (digits : List Char) :
    valueOf digits = Nat.ofDigitChars 10 digits 0 := rfl

/-- A value that is read digit by digit never gets smaller, so it is refused
as soon as it is too large. -/
theorem foldlM_boundedValue {digits : List Char} {start : Nat}
    (small : start ≤ maxConstant) :
    digits.foldlM (fun value digit =>
        let next := 10 * value + (digit.toNat - '0'.toNat)
        if next ≤ maxConstant then some next else none) start =
      if Nat.ofDigitChars 10 digits start ≤ maxConstant then
        some (Nat.ofDigitChars 10 digits start)
      else none := by
  induction digits generalizing start with
  | nil => simp [Nat.ofDigitChars, small]
  | cons digit others inductionHypothesis =>
      have grown : ∀ (behind : List Char) (value : Nat),
          value ≤ Nat.ofDigitChars 10 behind value := by
        intro behind
        induction behind with
        | nil => exact fun value => Nat.le_refl value
        | cons next last larger =>
            intro value
            have step := larger (10 * value + (next.toNat - '0'.toNat))
            rw [Nat.ofDigitChars_cons]
            omega
      rw [List.foldlM_cons, Nat.ofDigitChars_cons]
      by_cases within :
          10 * start + (digit.toNat - '0'.toNat) ≤ maxConstant
      · simp only [within, if_true, Option.bind_eq_bind, Option.bind_some]
        exact inductionHypothesis within
      · have larger := grown others
          (10 * start + (digit.toNat - '0'.toNat))
        have exceeds : ¬ Nat.ofDigitChars 10 others
            (10 * start + (digit.toNat - '0'.toNat)) ≤ maxConstant := by
          omega
        simp only [within, if_false, Option.bind_eq_bind,
          Option.bind_none, exceeds]

theorem boundedValue?_eq_some_iff {digits : List Char} {value : Nat} :
    boundedValue? digits = some value ↔
      valueOf digits ≤ maxConstant ∧ value = valueOf digits := by
  rw [boundedValue?, foldlM_boundedValue (Nat.zero_le _), ← valueOf_eq]
  by_cases small : valueOf digits ≤ maxConstant
  · simp [small, eq_comm]
  · simp [small]

theorem ofDigits_eq_ok_iff {digits : List Char} {token : Token} :
    ofDigits digits = .ok token ↔
      valueOf digits ≤ maxConstant ∧ token = .integer (valueOf digits) := by
  unfold ofDigits
  cases read : boundedValue? digits with
  | some value =>
      obtain ⟨small, rfl⟩ := boundedValue?_eq_some_iff.mp read
      simp [small, eq_comm]
  | none =>
      constructor
      · intro impossible
        cases impossible
      · rintro ⟨small, _⟩
        have found := boundedValue?_eq_some_iff.mpr ⟨small, rfl⟩
        rw [read] at found
        cases found

/-! ## Strings -/

theorem readString_eq_ok_iff {text after : List Char} {token : Token} :
    readString text = .ok (token, after) ↔
      ∃ content, text = content ++ '"' :: after ∧
        content.all isStringPart = true ∧ content.length ≤ maxConstant ∧
        token = .string (String.ofList content) := by
  constructor
  · intro read
    have whole : text.takeWhile isStringPart ++
        text.dropWhile isStringPart = text :=
      List.takeWhile_append_dropWhile
    unfold readString at read
    dsimp only at read
    split at read
    next rest left =>
      split at read
      next small =>
        obtain ⟨rfl, rfl⟩ := Prod.mk.inj (Except.ok.inj read)
        rw [left] at whole
        exact ⟨_, whole.symm, List.all_takeWhile, small, rfl⟩
      next => cases read
    all_goals cases read
  · rintro ⟨content, rfl, all, small, rfl⟩
    have stops : ¬ BeginsWith isStringPart ('"' :: after) := by
      rintro ⟨c, rest, same, accepted⟩
      injection same with first _
      subst first
      cases accepted
    unfold readString
    rw [dropWhile_run all stops, takeWhile_run all stops]
    simp [small]

/-! ## Symbols -/

theorem ofSymbolChar_eq_ok_iff {c : Char} {token : Token} :
    ofSymbolChar c = .ok token ↔
      ∃ sign : Symbol, sign.char = c ∧ token = .symbol sign := by
  unfold ofSymbolChar
  constructor
  · intro read
    split at read
    next sign found =>
      obtain rfl := Except.ok.inj read
      exact ⟨sign, Symbol.char_of_ofChar? found, rfl⟩
    next => cases read
  · rintro ⟨sign, rfl, rfl⟩
    rw [Symbol.ofChar?_char]

/-- A result that is mapped comes from one that is there. -/
theorem map_eq_ok_iff {α β : Type} {step : Except LexError α} {f : α → β}
    {result : β} :
    step.map f = .ok result ↔ ∃ found, step = .ok found ∧ f found = result := by
  cases step with
  | error cause => simp [Except.map]
  | ok found => simp [Except.map]

/-! ## First characters -/

/-- What makes a comment of a slash before it. -/
theorem beginsWith_mark_iff {text : List Char} :
    BeginsWith (fun c => c == '/' || c == '*') text ↔
      text.head? = some '/' ∨ text.head? = some '*' := by
  cases text with
  | nil => simp [BeginsWith]
  | cons first others => simp [BeginsWith]

theorem readPiece_lineComment (text : List Char) :
    readPiece '/' ('/' :: text) = .ok (none, text.dropWhile (· != '\n')) := by
  rw [readPiece, if_neg (by decide), if_pos ⟨rfl, rfl⟩]
  rfl

theorem readPiece_blockComment (text : List Char) :
    readPiece '/' ('*' :: text) =
      match skipBlockComment text with
      | some after => .ok (none, after)
      | none => .error .openComment := by
  rw [readPiece, if_neg (by decide), if_neg (by simp), if_pos ⟨rfl, rfl⟩]
  rfl

theorem readPiece_string (text : List Char) :
    readPiece '"' text =
      (readString text).map fun (token, after) => (some token, after) := by
  rw [readPiece, if_neg (by decide), if_neg (by simp), if_neg (by simp),
    if_pos rfl]

theorem readPiece_number {c : Char} (digit : c.isDigit = true)
    (text : List Char) :
    readPiece c text =
      (ofDigits (c :: text.takeWhile Char.isDigit)).map fun token =>
        (some token, text.dropWhile Char.isDigit) := by
  have unblank : ¬ Text.isBlank c = true := by
    rw [isBlank_eq_false_of_isDigit digit]
    decide
  have notSlash : c ≠ '/' := by
    rintro rfl
    cases digit
  have notQuote : c ≠ '"' := by
    rintro rfl
    cases digit
  rw [readPiece, if_neg unblank, if_neg (fun both => notSlash both.1),
    if_neg (fun both => notSlash both.1), if_neg notQuote, if_pos digit]

theorem readPiece_word {c : Char} (begins : isNameStart c = true)
    (text : List Char) :
    readPiece c text =
      .ok (some (ofWord (String.ofList (c :: text.takeWhile isNamePart))),
        text.dropWhile isNamePart) := by
  have unblank : ¬ Text.isBlank c = true := by
    rw [isBlank_eq_false_of_isNameStart begins]
    decide
  have notDigit : ¬ c.isDigit = true := by
    intro digit
    have code := isNameStart_iff.mp begins
    have range := isDigit_iff.mp digit
    omega
  have notSlash : c ≠ '/' := by
    rintro rfl
    cases begins
  have notQuote : c ≠ '"' := by
    rintro rfl
    cases begins
  rw [readPiece, if_neg unblank, if_neg (fun both => notSlash both.1),
    if_neg (fun both => notSlash both.1), if_neg notQuote,
    if_neg notDigit, if_pos begins]

theorem readPiece_symbol {sign : Symbol} {text : List Char}
    (alone : sign = .slash →
      ¬ BeginsWith (fun c => c == '/' || c == '*') text) :
    readPiece sign.char text = .ok (some (.symbol sign), text) := by
  have unblank : ¬ Text.isBlank sign.char = true := by
    cases sign <;> decide
  have notQuote : sign.char ≠ '"' := by
    cases sign <;> decide
  have notDigit : ¬ sign.char.isDigit = true := by
    cases sign <;> decide
  have notLetter : ¬ isNameStart sign.char = true := by
    cases sign <;> decide
  have slash : sign.char = '/' → sign = .slash := by
    cases sign <;> decide
  have notLine : ¬ (sign.char = '/' ∧ text.head? = some '/') :=
    fun ⟨same, second⟩ =>
      alone (slash same) (beginsWith_mark_iff.mpr (Or.inl second))
  have notBlock : ¬ (sign.char = '/' ∧ text.head? = some '*') :=
    fun ⟨same, second⟩ =>
      alone (slash same) (beginsWith_mark_iff.mpr (Or.inr second))
  have read := ofSymbolChar_eq_ok_iff.mpr ⟨sign, rfl, rfl⟩
  rw [readPiece, if_neg unblank, if_neg notLine, if_neg notBlock,
    if_neg notQuote, if_neg notDigit, if_neg notLetter, read]
  rfl

/-! ## Pieces -/

/-- Two slashes begin a comment that reaches up to the end of the line. -/
theorem isPiece_lineComment (text : List Char) :
    IsPiece ('/' :: '/' :: text.takeWhile (· != '\n'))
      (text.dropWhile (· != '\n')) none := by
  have all := List.all_takeWhile (p := (· != '\n')) (l := text)
  have stops := not_beginsWith_dropWhile (· != '\n') text
  refine .lineComment ?_ ?_
  · intro member
    have passed := List.all_eq_true.mp all _ member
    cases passed
  · cases left : text.dropWhile (· != '\n') with
    | nil => exact Or.inl rfl
    | cons c rest =>
        refine Or.inr ⟨c, rest, rfl, ?_⟩
        by_contra different
        exact stops ⟨c, rest, left, by simpa using different⟩

theorem exists_isPiece_blockComment {text after : List Char}
    (closed : skipBlockComment text = some after) :
    ∃ piece, '/' :: '*' :: text = piece ++ after ∧
      IsPiece piece after none := by
  obtain ⟨content, cut, unclosed⟩ := skipBlockComment_eq_some_iff.mp closed
  refine ⟨_, ?_, .blockComment unclosed⟩
  simp [cut]

theorem exists_isPiece_string {text after : List Char} {token : Token}
    (read : readString text = .ok (token, after)) :
    ∃ piece, '"' :: text = piece ++ after ∧
      IsPiece piece after (some token) := by
  obtain ⟨content, rfl, all, small, rfl⟩ := readString_eq_ok_iff.mp read
  exact ⟨_, by simp, .string all small⟩

theorem isPiece_word {c : Char} (begins : isNameStart c = true)
    (text : List Char) :
    IsPiece (c :: text.takeWhile isNamePart) (text.dropWhile isNamePart)
      (some (ofWord (String.ofList (c :: text.takeWhile isNamePart)))) :=
  .word begins List.all_takeWhile
    (not_beginsWith_dropWhile isNamePart text)

theorem isPiece_number {c : Char} {text : List Char} {token : Token}
    (begins : c.isDigit = true)
    (read : ofDigits (c :: text.takeWhile Char.isDigit) = .ok token) :
    IsPiece (c :: text.takeWhile Char.isDigit)
      (text.dropWhile Char.isDigit) (some token) := by
  obtain ⟨small, rfl⟩ := ofDigits_eq_ok_iff.mp read
  refine .number ?_ (not_beginsWith_dropWhile Char.isDigit text) small
  rw [List.all_cons, begins, List.all_takeWhile]
  rfl

/-- What is read at the beginning of a text is a piece. -/
theorem isPiece_of_readPiece {c : Char} {rest after : List Char}
    {token : Option Token} (read : readPiece c rest = .ok (token, after)) :
    ∃ piece, c :: rest = piece ++ after ∧ IsPiece piece after token := by
  by_cases lineComment : c = '/' ∧ rest.head? = some '/'
  · obtain ⟨rfl, second⟩ := lineComment
    obtain ⟨text, rfl⟩ := List.head?_eq_some_iff.mp second
    rw [readPiece_lineComment] at read
    obtain ⟨rfl, rfl⟩ := Prod.mk.inj (Except.ok.inj read)
    refine ⟨_, ?_, isPiece_lineComment text⟩
    rw [List.cons_append, List.cons_append,
      List.takeWhile_append_dropWhile]
  by_cases blockComment : c = '/' ∧ rest.head? = some '*'
  · obtain ⟨rfl, second⟩ := blockComment
    obtain ⟨text, rfl⟩ := List.head?_eq_some_iff.mp second
    rw [readPiece_blockComment] at read
    split at read
    next closed =>
      obtain ⟨rfl, rfl⟩ := Prod.mk.inj (Except.ok.inj read)
      exact exists_isPiece_blockComment closed
    next => cases read
  rw [readPiece, if_neg lineComment, if_neg blockComment] at read
  split at read
  next blank =>
    obtain ⟨rfl, rfl⟩ := Prod.mk.inj (Except.ok.inj read)
    exact ⟨[c], rfl, .blank blank⟩
  next =>
  split at read
  next quote =>
    subst quote
    obtain ⟨⟨found, behind⟩, string, same⟩ := map_eq_ok_iff.mp read
    obtain ⟨rfl, rfl⟩ := Prod.mk.inj same
    exact exists_isPiece_string string
  next =>
  split at read
  next digit =>
    obtain ⟨found, number, same⟩ := map_eq_ok_iff.mp read
    obtain ⟨rfl, rfl⟩ := Prod.mk.inj same
    refine ⟨_, ?_, isPiece_number digit number⟩
    rw [List.cons_append, List.takeWhile_append_dropWhile]
  next =>
  split at read
  next letter =>
    obtain ⟨rfl, rfl⟩ := Prod.mk.inj (Except.ok.inj read)
    refine ⟨_, ?_, isPiece_word letter rest⟩
    rw [List.cons_append, List.takeWhile_append_dropWhile]
  next =>
    obtain ⟨found, symbol, same⟩ := map_eq_ok_iff.mp read
    obtain ⟨rfl, rfl⟩ := Prod.mk.inj same
    obtain ⟨sign, rfl, rfl⟩ := ofSymbolChar_eq_ok_iff.mp symbol
    refine ⟨[sign.char], rfl, .symbol ?_⟩
    intro slash mark
    subst slash
    rcases beginsWith_mark_iff.mp mark with second | second
    · exact lineComment ⟨rfl, second⟩
    · exact blockComment ⟨rfl, second⟩

/-- A piece is read off the beginning of a text. -/
theorem readPiece_of_isPiece {piece behind : List Char}
    {token : Option Token} (isPiece : IsPiece piece behind token) :
    ∃ c rest, piece ++ behind = c :: rest ∧
      readPiece c rest = .ok (token, behind) := by
  cases isPiece with
  | @blank c _ blank =>
      refine ⟨c, behind, rfl, ?_⟩
      rw [readPiece, if_pos blank]
  | @lineComment content _ unbroken ends =>
      refine ⟨'/', '/' :: content ++ behind, rfl, ?_⟩
      have all : content.all (· != '\n') = true := by
        apply List.all_eq_true.mpr
        intro c member
        exact bne_iff_ne.mpr fun same => unbroken (same ▸ member)
      have stops : ¬ BeginsWith (· != '\n') behind := by
        rintro ⟨c, rest, rfl, different⟩
        rcases ends with none | ⟨_, _, same, broken⟩
        · cases none
        · injection same with first _
          rw [first, eq_of_beq broken] at different
          cases different
      rw [List.cons_append, readPiece_lineComment, dropWhile_run all stops]
  | @blockComment content _ unclosed =>
      refine ⟨'/', '*' :: (content ++ '*' :: '/' :: behind), by simp, ?_⟩
      have closed :
          skipBlockComment (content ++ '*' :: '/' :: behind) =
            some behind :=
        skipBlockComment_eq_some_iff.mpr ⟨content, rfl, unclosed⟩
      rw [readPiece_blockComment, closed]
  | @word c others _ begins all stops =>
      refine ⟨c, others ++ behind, rfl, ?_⟩
      rw [readPiece_word begins, takeWhile_run all stops,
        dropWhile_run all stops]
  | @number c others _ all stops small =>
      refine ⟨c, others ++ behind, rfl, ?_⟩
      obtain ⟨digit, allOthers⟩ := Bool.and_eq_true_iff.mp
        (List.all_cons.symm.trans all)
      have value := ofDigits_eq_ok_iff.mpr ⟨small, rfl⟩
      rw [readPiece_number digit, takeWhile_run allOthers stops,
        dropWhile_run allOthers stops, value]
      rfl
  | @string content _ all small =>
      refine ⟨'"', content ++ '"' :: behind, by simp, ?_⟩
      have read :
          readString (content ++ '"' :: behind) =
            .ok (.string (String.ofList content), behind) :=
        readString_eq_ok_iff.mpr ⟨content, rfl, all, small, rfl⟩
      rw [readPiece_string, read]
      rfl
  | @symbol sign _ alone =>
      exact ⟨sign.char, behind, rfl, readPiece_symbol alone⟩

/-! ## Texts -/

/-- What is scanned comes behind the tokens that are there already. -/
theorem exists_isCut_of_scanFrom {tokens : Array Token} {text : List Char}
    {result : List Token} (scanned : scanFrom tokens text = .ok result) :
    ∃ more, result = tokens.toList ++ more ∧ IsCut text more := by
  fun_induction scanFrom tokens text with
  | case1 tokens =>
      obtain rfl := Except.ok.inj scanned
      exact ⟨[], (List.append_nil _).symm, .nil⟩
  | case2 => cases scanned
  | case3 tokens c rest after read inductionHypothesis =>
      obtain ⟨more, whole, cut⟩ := inductionHypothesis scanned
      obtain ⟨piece, text, isPiece⟩ := isPiece_of_readPiece read
      rw [text]
      exact ⟨more, whole, .cons isPiece cut⟩
  | case4 tokens c rest token after read inductionHypothesis =>
      obtain ⟨more, whole, cut⟩ := inductionHypothesis scanned
      obtain ⟨piece, text, isPiece⟩ := isPiece_of_readPiece read
      rw [text]
      refine ⟨token :: more, ?_, .cons isPiece cut⟩
      rw [whole, Array.toList_push, List.append_assoc,
        List.singleton_append]

theorem scanFrom_of_isCut {text : List Char} {more : List Token}
    (cut : IsCut text more) (tokens : Array Token) :
    scanFrom tokens text = .ok (tokens.toList ++ more) := by
  induction cut generalizing tokens with
  | nil =>
      rw [scanFrom, List.append_nil]
  | @cons piece behind token others isPiece _ inductionHypothesis =>
      obtain ⟨c, rest, whole, read⟩ := readPiece_of_isPiece isPiece
      rw [whole, scanFrom]
      cases token with
      | none =>
          split
          next cause failed =>
            rw [read] at failed
            cases failed
          next after found =>
            rw [read] at found
            obtain ⟨_, rfl⟩ := Prod.mk.inj (Except.ok.inj found)
            exact inductionHypothesis tokens
          next other after found =>
            rw [read] at found
            cases found
      | some token =>
          split
          next cause failed =>
            rw [read] at failed
            cases failed
          next after found =>
            rw [read] at found
            cases found
          next other after found =>
            rw [read] at found
            obtain ⟨same, rfl⟩ := Prod.mk.inj (Except.ok.inj found)
            obtain rfl := Option.some.inj same
            rw [inductionHypothesis, Array.toList_push,
              List.append_assoc]
            rfl

/-- A source is scanned exactly if it is a row of pieces, and into the tokens
that the pieces stand for. -/
theorem scan_eq_ok_iff {source : String} {tokens : List Token} :
    scan source = .ok tokens ↔ IsCut source.toList tokens := by
  constructor
  · intro scanned
    obtain ⟨more, rfl, cut⟩ := exists_isCut_of_scanFrom scanned
    exact cut
  · intro cut
    exact scanFrom_of_isCut cut #[]

/-! ## Tokens that are written -/

theorem isWritten_ofWord {c : Char} {others : List Char}
    (begins : isNameStart c = true)
    (all : others.all isNamePart = true) :
    (ofWord (String.ofList (c :: others))).IsWritten := by
  unfold ofWord
  cases found : Keyword.ofWord? (String.ofList (c :: others)) with
  | some reserved => trivial
  | none =>
      have part : isNamePart c = true := isNamePart_iff.mpr (Or.inl begins)
      refine ⟨?_, ?_, found⟩
      · rw [String.toList_ofList]
        exact begins
      · rw [String.toList_ofList, List.all_cons, part, all]
        rfl

theorem IsPiece.isWritten {piece behind : List Char} {token : Token}
    (isPiece : IsPiece piece behind (some token)) : token.IsWritten := by
  cases isPiece with
  | word begins all _ => exact isWritten_ofWord begins all
  | number _ _ small => exact small
  | @string content _ all small =>
      simp only [IsWritten, String.toList_ofList, String.length_ofList]
      exact ⟨all, small⟩
  | symbol _ => trivial

theorem IsCut.isWritten {text : List Char} {tokens : List Token}
    (cut : IsCut text tokens) : ∀ token ∈ tokens, token.IsWritten := by
  induction cut with
  | nil =>
      intro token member
      cases member
  | @cons piece behind token others isPiece _ inductionHypothesis =>
      cases token with
      | none => exact inductionHypothesis
      | some token =>
          exact List.forall_mem_cons.mpr
            ⟨isPiece.isWritten, inductionHypothesis⟩

/-- Every token of a source is one that can be written. -/
theorem isWritten_of_scan {source : String} {tokens : List Token}
    (scanned : scan source = .ok tokens) :
    ∀ token ∈ tokens, token.IsWritten :=
  (scan_eq_ok_iff.mp scanned).isWritten

/-! ## Written tokens -/

section Written

variable {behind : List Char}

/-- A blank continues no name, no number and no comment, and neither does the
end. -/
theorem not_beginsWith_of_isBlank {wanted : Char → Bool}
    (ends : behind = [] ∨ BeginsWith Text.isBlank behind)
    (visible : ∀ c, wanted c = true → Text.isBlank c = false) :
    ¬ BeginsWith wanted behind := by
  rintro ⟨c, rest, rfl, accepted⟩
  rcases ends with none | ⟨space, others, same, blank⟩
  · cases none
  · injection same with first _
    rw [← first, visible c accepted] at blank
    cases blank

theorem isPiece_keyword (reserved : Keyword)
    (ends : behind = [] ∨ BeginsWith Text.isBlank behind) :
    IsPiece reserved.word.toList behind (some (.keyword reserved)) := by
  have known := Keyword.ofWord?_word reserved
  have stops : ¬ BeginsWith isNamePart behind :=
    not_beginsWith_of_isBlank ends fun _ => isBlank_eq_false_of_isNamePart
  obtain ⟨c, others, letters, begins, all⟩ :
      ∃ c others, reserved.word.toList = c :: others ∧
        isNameStart c = true ∧ others.all isNamePart = true := by
    cases reserved <;> exact ⟨_, _, rfl, rfl, rfl⟩
  have word := IsPiece.word begins all stops
  rw [← letters, String.ofList_toList, ofWord, known] at word
  exact word

theorem isPiece_identifier {name : String} (written : IsName name)
    (ends : behind = [] ∨ BeginsWith Text.isBlank behind) :
    IsPiece name.toList behind (some (.identifier name)) := by
  obtain ⟨begins, all, unknown⟩ := written
  have stops : ¬ BeginsWith isNamePart behind :=
    not_beginsWith_of_isBlank ends fun _ => isBlank_eq_false_of_isNamePart
  cases letters : name.toList with
  | nil =>
      rw [letters] at begins
      cases begins
  | cons c others =>
      rw [letters] at begins all
      obtain ⟨_, allOthers⟩ := Bool.and_eq_true_iff.mp
        (List.all_cons.symm.trans all)
      have word := IsPiece.word begins allOthers stops
      rw [← letters, String.ofList_toList, ofWord, unknown] at word
      rw [← letters]
      exact word

theorem isPiece_integer {value : Nat} (small : value ≤ maxConstant)
    (ends : behind = [] ∨ BeginsWith Text.isBlank behind) :
    IsPiece (Nat.toDigits 10 value) behind (some (.integer value)) := by
  have stops : ¬ BeginsWith Char.isDigit behind :=
    not_beginsWith_of_isBlank ends fun _ => isBlank_eq_false_of_isDigit
  have same : valueOf (Nat.toDigits 10 value) = value :=
    Nat.ofDigitChars_toDigits (by decide) (by decide)
  have all : (Nat.toDigits 10 value).all Char.isDigit = true :=
    List.all_eq_true.mpr fun _ member =>
      Nat.isDigit_of_mem_toDigits (by decide) (by decide) member
  cases spelled : Nat.toDigits 10 value with
  | nil => exact absurd spelled Nat.toDigits_ne_nil
  | cons c others =>
      rw [spelled] at same all
      have number := IsPiece.number all stops (same.trans_le small)
      rw [same] at number
      exact number

theorem isPiece_symbol (sign : Symbol)
    (ends : behind = [] ∨ BeginsWith Text.isBlank behind) :
    IsPiece [sign.char] behind (some (.symbol sign)) := by
  refine .symbol fun _ => not_beginsWith_of_isBlank ends ?_
  intro c marked
  rcases Bool.or_eq_true_iff.mp marked with slash | star
  · rw [eq_of_beq slash]
    rfl
  · rw [eq_of_beq star]
    rfl

/-- A token that can be written is read again from its spelling if a blank or
nothing stands behind it. -/
theorem isPiece_spelling {token : Token} (written : token.IsWritten)
    (ends : behind = [] ∨ BeginsWith Text.isBlank behind) :
    IsPiece token.spelling behind (some token) := by
  cases token with
  | identifier name => exact isPiece_identifier written ends
  | integer value =>
      have digits : (Token.integer value).spelling =
          Nat.toDigits 10 value := by
        simp [spelling, text, Nat.toString_eq_repr,
          Nat.repr_eq_ofList_toDigits]
      rw [digits]
      exact isPiece_integer written ends
  | keyword reserved => exact isPiece_keyword reserved ends
  | string content =>
      obtain ⟨all, small⟩ := written
      rw [← String.length_toList] at small
      have string : IsPiece ('"' :: content.toList ++ ['"']) behind
          (some (.string (String.ofList content.toList))) :=
        .string all small
      rw [String.ofList_toList] at string
      exact string
  | symbol sign =>
      have single : (Token.symbol sign).spelling = [sign.char] := by
        simp [spelling, text, String.toList_singleton]
      rw [single]
      exact isPiece_symbol sign ends

/-- Blanks stand for no token. -/
theorem IsCut.blanks {gap : List Char} {tokens : List Token}
    (blank : gap.all Text.isBlank = true) (cut : IsCut behind tokens) :
    IsCut (gap ++ behind) tokens := by
  induction gap with
  | nil => exact cut
  | cons space others inductionHypothesis =>
      obtain ⟨first, later⟩ := Bool.and_eq_true_iff.mp
        (List.all_cons.symm.trans blank)
      exact .cons (.blank first) (inductionHypothesis later)

/-- Tokens that can be written are cut out of each text that spells them. -/
theorem IsSpelling.isCut {tokens : List Token} {text : List Char}
    (spells : IsSpelling tokens text)
    (written : ∀ token ∈ tokens, token.IsWritten) : IsCut text tokens := by
  induction spells with
  | nil => exact .nil
  | @cons token others gap text blank parted spells inductionHypothesis =>
      obtain ⟨first, later⟩ := List.forall_mem_cons.mp written
      have ends : gap ++ text = [] ∨
          BeginsWith Text.isBlank (gap ++ text) := by
        cases gap with
        | nil =>
            obtain rfl := parted rfl
            cases spells
            exact Or.inl rfl
        | cons space spaces =>
            have visible := Bool.and_eq_true_iff.mp
              (List.all_cons.symm.trans blank)
            exact Or.inr ⟨space, spaces ++ text, rfl, visible.1⟩
      rw [List.append_assoc]
      exact .cons (isPiece_spelling first ends)
        ((inductionHypothesis later).blanks blank)

theorem isSpelling_spelled (tokens : List Token) :
    IsSpelling tokens (spelled tokens).toList := by
  rw [spelled, String.toList_ofList]
  induction tokens with
  | nil => exact .nil
  | cons token others inductionHypothesis =>
      rw [List.flatMap_cons]
      exact .cons (by decide) (fun none => by cases none) inductionHypothesis

end Written

theorem scan_spelling {tokens : List Token} {text : List Char}
    (written : ∀ token ∈ tokens, token.IsWritten)
    (spells : IsSpelling tokens text) :
    scan (String.ofList text) = .ok tokens := by
  refine scan_eq_ok_iff.mpr ?_
  rw [String.toList_ofList]
  exact spells.isCut written

/-- Tokens that can be written are scanned again from their spelling. -/
theorem scan_spelled {tokens : List Token}
    (written : ∀ token ∈ tokens, token.IsWritten) :
    scan (spelled tokens) = .ok tokens := by
  have scanned := scan_spelling written (isSpelling_spelled tokens)
  rw [String.ofList_toList] at scanned
  exact scanned

/-- Writing tokens and scanning them again gives the same tokens, whatever
blanks stand between them; so a source has the tokens of each text that spells
its tokens. -/
theorem scan_spelling_eq :
    (∀ tokens text, (∀ token ∈ tokens, IsWritten token) →
        IsSpelling tokens text → scan (String.ofList text) = .ok tokens) ∧
      ∀ source tokens, scan source = .ok tokens →
        (∀ token ∈ tokens, token.IsWritten) ∧
          (∀ text, IsSpelling tokens text →
            scan (String.ofList text) = scan source) ∧
          scan (spelled tokens) = scan source := by
  refine ⟨fun _ _ => scan_spelling, ?_⟩
  intro source tokens scanned
  have written := isWritten_of_scan scanned
  refine ⟨written, ?_, ?_⟩
  · intro text spells
    rw [scanned]
    exact scan_spelling written spells
  · rw [scanned]
    exact scan_spelled written

/-- One token of each class, with a line break, a tab and a no-break space
among the blanks. -/
theorem scan_spelling_eq_assignment :
    let tokens : List Token := [.keyword .let, .identifier "s",
      .symbol .equal, .integer 7, .string "a b"]
    let text := "let".toList ++ ['\n', ' '] ++ ("s".toList ++ ['\t'] ++
      ("=".toList ++ ['\u00a0'] ++ ("7".toList ++ [' '] ++
        ("\"a b\"".toList ++ [] ++ []))))
    (∀ token ∈ tokens, token.IsWritten) ∧ IsSpelling tokens text ∧
      scan (String.ofList text) = .ok tokens ∧
      scan (spelled tokens) = scan (String.ofList text) := by
  intro tokens text
  have written : ∀ token ∈ tokens, token.IsWritten := by decide
  have spells : IsSpelling tokens text :=
    .cons (by decide) (by simp) (.cons (by decide) (by simp)
      (.cons (by decide) (by simp) (.cons (by decide) (by simp)
        (.cons (by decide) (by simp) .nil))))
  have scanned := scan_spelling_eq.1 tokens text written spells
  exact ⟨written, spells, scanned, (scan_spelling_eq.2 _ _ scanned).2.2⟩

end JackToVm.Token
