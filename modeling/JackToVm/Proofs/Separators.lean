import JackToVm.Proofs.LexicalErrors

/-!
# Separators between texts

A line break ends whatever a text that is scanned ends in: a name, a number, a
line comment, or nothing at all. So it parts a text from the one behind it,
which is scanned, or refused, as it is alone; and so does a line break with a
comment behind it.
-/

namespace JackToVm.Token

/-! ## Rows of pieces in front of a text -/

/-- The first text is a row of pieces where the second one stands behind it,
whatever that one is. -/
inductive IsRow : List Char → List Char → List Token → Prop where
  | nil {behind : List Char} : IsRow [] behind []
  | cons {piece others behind : List Char} {token : Option Token}
      {tokens : List Token} :
      IsPiece piece (others ++ behind) token →
      IsRow others behind tokens →
      IsRow (piece ++ others) behind (token.toList ++ tokens)

section Rows

variable {text between behind : List Char} {tokens more : List Token}
variable {cause : LexError}

namespace IsRow

theorem append (first : IsRow text (between ++ behind) tokens)
    (second : IsRow between behind more) :
    IsRow (text ++ between) behind (tokens ++ more) := by
  generalize whole : between ++ behind = rest at first
  induction first with
  | nil => exact second
  | cons isPiece _ inductionHypothesis =>
      subst whole
      rw [List.append_assoc, List.append_assoc]
      rw [← List.append_assoc] at isPiece
      exact .cons isPiece (inductionHypothesis rfl)

theorem isCut (row : IsRow text behind tokens) (cut : IsCut behind more) :
    IsCut (text ++ behind) (tokens ++ more) := by
  induction row with
  | nil => exact cut
  | cons isPiece _ inductionHypothesis =>
      rw [List.append_assoc, List.append_assoc]
      exact .cons isPiece (inductionHypothesis cut)

theorem isBroken (row : IsRow text behind tokens)
    (broken : IsBroken behind cause) : IsBroken (text ++ behind) cause := by
  induction row with
  | nil => exact broken
  | cons isPiece _ inductionHypothesis =>
      rw [List.append_assoc]
      exact .behind isPiece (inductionHypothesis broken)

/-- Behind a row of pieces a text is scanned as it is alone. -/
theorem scan_eq {first second : String}
    (row : IsRow first.toList second.toList tokens) :
    scan (first ++ second) = (scan second).map (tokens ++ ·) := by
  cases scanned : scan second with
  | ok more =>
      have cut := row.isCut (scan_eq_ok_iff.mp scanned)
      rw [← String.toList_append] at cut
      exact scan_eq_ok_iff.mpr cut
  | error cause =>
      have broken := row.isBroken (scan_eq_error_iff.mp scanned)
      rw [← String.toList_append] at broken
      exact scan_eq_error_iff.mpr broken

end IsRow

end Rows

/-! ## What a line break ends -/

theorem not_beginsWith_append_lineBreak {wanted : Char → Bool}
    {behind : List Char} (stops : ¬ BeginsWith wanted behind)
    (refused : wanted '\n' = false) (rest : List Char) :
    ¬ BeginsWith wanted (behind ++ '\n' :: rest) := by
  rintro ⟨c, others, whole, accepted⟩
  cases behind with
  | nil =>
      injection whole with first _
      rw [← first, refused] at accepted
      cases accepted
  | cons next last =>
      injection whole with first _
      exact stops ⟨next, last, rfl, first ▸ accepted⟩

/-- A piece is as long as before if a line break comes behind all that stands
behind it. -/
theorem IsPiece.append_lineBreak {piece behind : List Char}
    {token : Option Token} (isPiece : IsPiece piece behind token)
    (rest : List Char) : IsPiece piece (behind ++ '\n' :: rest) token := by
  cases isPiece with
  | blank blank => exact .blank blank
  | lineComment unbroken ends =>
      refine .lineComment unbroken (Or.inr ?_)
      rcases ends with rfl | ⟨c, others, rfl, broken⟩
      · exact ⟨'\n', rest, rfl, rfl⟩
      · exact ⟨c, others ++ '\n' :: rest, rfl, broken⟩
  | blockComment unclosed => exact .blockComment unclosed
  | word begins all stops =>
      exact .word begins all
        (not_beginsWith_append_lineBreak stops (by decide) rest)
  | number all stops small =>
      exact .number all
        (not_beginsWith_append_lineBreak stops (by decide) rest) small
  | string all small => exact .string all small
  | symbol alone =>
      exact .symbol fun slash =>
        not_beginsWith_append_lineBreak (alone slash) (by decide) rest

theorem IsCut.isRow {text : List Char} {tokens : List Token}
    (cut : IsCut text tokens) (rest : List Char) :
    IsRow text ('\n' :: rest) tokens := by
  induction cut with
  | nil => exact .nil
  | cons isPiece _ inductionHypothesis =>
      exact .cons (isPiece.append_lineBreak rest) inductionHypothesis

/-! ## Separators -/

theorem isRow_lineBreak (behind : List Char) : IsRow ['\n'] behind [] :=
  .cons (.blank (by decide)) .nil

theorem isRow_blockComment {content : List Char}
    (unclosed : ¬ ['*', '/'] <:+: content) (behind : List Char) :
    IsRow ('/' :: '*' :: content ++ ['*', '/']) behind [] := by
  -- A star at the end of the content closes nothing.
  have unclosedByStar : ¬ ['*', '/'] <:+: content ++ ['*'] := by
    rintro ⟨before, after, whole⟩
    cases after using List.reverseRecOn with
    | nil =>
        have ends := congrArg List.getLast? whole
        simp at ends
    | append_singleton between last =>
        rw [← List.append_assoc] at whole
        exact unclosed
          ⟨before, between, (List.append_inj' whole rfl).1⟩
  have nothing : IsRow [] behind [] := .nil
  have row := IsRow.cons (.blockComment unclosedByStar) nothing
  rw [List.append_nil] at row
  exact row

theorem isRow_lineComment {content : List Char} (unbroken : '\n' ∉ content)
    (behind : List Char) :
    IsRow ('/' :: '/' :: content ++ ['\n']) behind [] :=
  .cons (.lineComment unbroken (Or.inr ⟨'\n', behind, rfl, rfl⟩))
    (isRow_lineBreak behind)

/-- What stands behind a text and a line break is scanned as it is alone: its
tokens follow those of the text, or it is refused for the same cause. A
comment of either kind behind the line break makes no difference. -/
theorem scan_append_lineBreak {first : String} {tokens : List Token}
    (scanned : scan first = .ok tokens) (second : String) :
    let continued := (scan second).map (tokens ++ ·)
    scan (first ++ "\n" ++ second) = continued ∧
      (∀ comment : String, ¬ ['*', '/'] <:+: comment.toList →
        scan (first ++ "\n" ++ ("/*" ++ comment ++ "*/") ++ second) =
          continued) ∧
      ∀ comment : String, '\n' ∉ comment.toList →
        scan (first ++ "\n" ++ ("//" ++ comment ++ "\n") ++ second) =
          continued := by
  have cut := scan_eq_ok_iff.mp scanned
  have parted : ∀ separator : List Char,
      IsRow separator second.toList [] →
        IsRow (first.toList ++ '\n' :: separator) second.toList tokens := by
    intro separator row
    have broken : IsRow ('\n' :: separator) second.toList [] :=
      (isRow_lineBreak (separator ++ second.toList)).append row
    have whole := (cut.isRow (separator ++ second.toList)).append broken
    rw [List.append_nil] at whole
    exact whole
  refine ⟨?_, ?_, ?_⟩
  · apply IsRow.scan_eq
    simpa using parted [] .nil
  · intro comment unclosed
    apply IsRow.scan_eq
    simpa using parted _ (isRow_blockComment unclosed _)
  · intro comment unbroken
    apply IsRow.scan_eq
    simpa using parted _ (isRow_lineComment unbroken _)

/-- A text that ends in a line comment, comments with quotes, slashes and stars
in them, and a text behind them that is refused. -/
theorem scan_append_lineBreak_comments :
    let first := "x // \"1"
    let tokens : List Token := [.identifier "x"]
    let comment := "/* // \" *"
    scan first = .ok tokens ∧
      ¬ ['*', '/'] <:+: comment.toList ∧ '\n' ∉ comment.toList ∧
      scan (first ++ "\n" ++ "2") = .ok [.identifier "x", .integer 2] ∧
      scan (first ++ "\n" ++ ("/*" ++ comment ++ "*/") ++ "2") =
        .ok [.identifier "x", .integer 2] ∧
      scan (first ++ "\n" ++ ("//" ++ comment ++ "\n") ++ "#") =
        .error (.strayCharacter '#') := by
  intro first tokens comment
  have scanned : scan first = .ok tokens := by decide +kernel
  have number : scan "2" = .ok [.integer 2] := by decide +kernel
  have stray : scan "#" = .error (.strayCharacter '#') := by decide +kernel
  have unclosed : ¬ ['*', '/'] <:+: comment.toList := by decide
  have unbroken : '\n' ∉ comment.toList := by decide
  obtain ⟨plain, block, _⟩ := scan_append_lineBreak scanned "2"
  obtain ⟨_, _, line⟩ := scan_append_lineBreak scanned "#"
  refine ⟨scanned, unclosed, unbroken, ?_, ?_, ?_⟩
  · rw [plain, number]
    rfl
  · rw [block comment unclosed, number]
    rfl
  · rw [line comment unbroken, stray]
    rfl

end JackToVm.Token
