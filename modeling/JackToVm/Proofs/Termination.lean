import JackToVm.Proofs.Descents

/-!
# Every descent ends

Wherever a procedure of a descent begins, it ends, and its course is in order.
A whole descent that succeeds has closed every node and taken every token.
-/

namespace JackToVm

/-- Every procedure accords with that of the pass, where it may begin. -/
theorem Descent.Accords.ofIntroduced {before : DescentState}
    {left room : Nat} {procedure : Procedure}
    (introduced : procedure.IsIntroduced before) :
    Accords (procedure.Fits room) (some before.next?) left room []
      procedure.leastTokens procedure.body (procedure.pass room) := by
  cases procedure with
  | classDec => exact classDec id
  | classVarDec kind table =>
      obtain ⟨token, found, _⟩ := Option.bind_eq_some_iff.mp introduced
      rw [found]
      exact classVarDec kind table id
  | variableNames type kind table => exact variableNames type kind table
  | subroutineDec className classTable kind =>
      obtain ⟨token, found, _⟩ := Option.bind_eq_some_iff.mp introduced
      rw [found]
      exact subroutineDec className classTable kind id
  | parameterList table => exact parameterList table id
  | varDec table => exact varDec table id
  | statements scope => exact statements scope room
  | letStatement scope => exact letStatement scope room
  | ifStatement scope => exact ifStatement scope room
  | whileStatement scope => exact whileStatement scope room
  | doStatement scope => exact doStatement scope room
  | returnStatement scope => exact returnStatement scope room
  | expression scope => exact expression scope room
  | term scope => exact term scope room
  | stringConstant text => exact stringConstant text
  | nameTerm scope name =>
      exact nameTerm name (expression scope room) (expressionList scope room)
  | subroutineCall scope name =>
      exact subroutineCall name (expressionList scope room)
  | expressionList scope target => exact expressionList scope room target

namespace Procedure

theorem endsOrderly {before : DescentState} (procedure : Procedure)
    (depth_le : before.depth ≤ Node.maxDepth)
    (cursor_le : before.cursor ≤ before.tokens.size)
    (introduced : procedure.IsIntroduced before) :
    procedure.EndsOrderly before := by
  obtain ⟨room, roomLeft⟩ := Nat.exists_eq_add_of_le depth_le
  have isAt : before.IsAt (some before.next?) before.tokens.size room :=
    ⟨rfl, roomLeft.symm, cursor_le, Nat.le_add_left _ _⟩
  obtain ⟨visited, result, behind, ran, course, success, same⟩ :=
    Descent.Accords.ofIntroduced introduced before.depth before isAt rfl
  refine ⟨visited, result, behind, ran, fun _ _ _ => ran.unique, course,
    success, ?_⟩
  intro other otherLeft fits
  obtain rfl : other = room := by omega
  exact (Descent.closed_nil _).symm.trans (same fits)

end Procedure

/-- A class is accepted only if nothing stands behind it. -/
theorem Pass.next?_of_compilationUnit {before behind : PassState}
    {head : Pass.ClassHead}
    (ran : Pass.compilationUnit.run before = .ok head behind) :
    behind.next? = none := by
  rw [Pass.compilationUnit, EStateM.run_bind] at ran
  cases classRan : Pass.classDec.run before with
  | error cause between =>
      rw [classRan] at ran
      cases ran
  | ok found between =>
      simp only [classRan, Pass.run_peek_bind] at ran
      cases next : between.next? with
      | none =>
          rw [next] at ran
          cases ran
          exact next
      | some token =>
          rw [next] at ran
          cases ran

namespace Descent

theorem runEndsOrderly (tokens : List Token) (labels : LabelCounters) :
    RunEndsOrderly tokens labels := by
  let before := DescentState.start tokens labels
  have size_eq : before.tokens.size = tokens.length := List.size_toArray
  have isAt : before.IsAt none tokens.length Node.maxDepth :=
    ⟨trivial, Nat.zero_add _, Nat.zero_le _, by
      rw [size_eq]
      exact Nat.le_add_left _ _⟩
  obtain ⟨visited, result, behind, ran, course, success, same⟩ :=
    Accords.compilationUnit (fun _ => rfl) 0 before isAt rfl
  have agreed : runPass tokens labels = passResult behind result :=
    (closed_nil _).symm.trans (same trivial)
  refine ⟨visited, result, behind, ran, fun _ _ _ => ran.unique, course, ?_,
    agreed⟩
  intro head succeeded
  subst succeeded
  have noneLeft : behind.tokens.size ≤ behind.cursor :=
    Array.getElem?_eq_none_iff.mp (Pass.next?_of_compilationUnit agreed)
  have cursor_eq : behind.cursor = behind.tokens.size :=
    Nat.le_antisymm course.isAllowed_behind.cursor_le noneLeft
  rw [course.extends_before.tokens_eq, size_eq] at cursor_eq
  exact ⟨(success head rfl).1, cursor_eq⟩

/-- Every procedure ends, and its course is in order, wherever it begins within
the limit and among the tokens: its calls come to an end because each circle of
them opens a node, and its loops because each round takes a token. A whole
descent ends as well. If it succeeds, no node is open and no token is left. -/
theorem ends_orderly :
    (∀ (procedure : Procedure) (before : DescentState),
      before.depth ≤ Node.maxDepth → before.cursor ≤ before.tokens.size →
        procedure.IsIntroduced before → procedure.EndsOrderly before) ∧
      ∀ (tokens : List Token) (labels : LabelCounters),
        RunEndsOrderly tokens labels :=
  ⟨fun procedure _ depth_le cursor_le introduced =>
    procedure.endsOrderly depth_le cursor_le introduced, runEndsOrderly⟩

/-- A declaration that breaks off, a loop that just fits while its condition
does not, and an empty class. -/
theorem ends_orderly_small :
    let declaration : DescentState := {
      toPassState := {
        PassState.start
          [.symbol .leftBrace, .keyword .field, .keyword .int] .initial with
        cursor := 1 }
      depth := 1 }
    let loop : DescentState := {
      toPassState := PassState.start
        [.keyword .while, .symbol .leftParen, .keyword .true] .initial
      depth := 255 }
    let emptyClass : List Token :=
      [.keyword .classWord, .identifier "Main", .symbol .leftBrace,
        .symbol .rightBrace]
    (declaration.depth ≤ Node.maxDepth ∧
      declaration.cursor ≤ declaration.tokens.size ∧
      (Procedure.classVarDec .field .empty).IsIntroduced declaration ∧
      (Procedure.classVarDec .field .empty).EndsOrderly declaration) ∧
    (loop.depth ≤ Node.maxDepth ∧ loop.cursor ≤ loop.tokens.size ∧
      (Procedure.whileStatement ⟨"Main", .empty, .empty⟩).IsIntroduced loop ∧
      (Procedure.whileStatement ⟨"Main", .empty, .empty⟩).EndsOrderly loop) ∧
    ∃ visited behind,
      compilationUnit.Runs (.start emptyClass .initial) visited
        (.ok ⟨"Main", .empty⟩) behind ∧
      behind.depth = 0 ∧ behind.cursor = emptyClass.length := by
  intro declaration loop emptyClass
  refine ⟨⟨by decide, by decide, rfl, ?_⟩, ⟨by decide, by decide, trivial, ?_⟩,
    ?_⟩
  · exact ends_orderly.1 _ declaration (by decide) (by decide) rfl
  · exact ends_orderly.1 _ loop (by decide) (by decide) trivial
  · obtain ⟨visited, result, behind, ran, _, _, success, same⟩ :=
      ends_orderly.2 emptyClass .initial
    cases result with
    | error cause => cases same
    | ok head =>
        have sameHead : ⟨"Main", .empty⟩ = head := by
          injection same
        subst sameHead
        exact ⟨visited, behind, ran, success _ rfl⟩

end Descent

end JackToVm
