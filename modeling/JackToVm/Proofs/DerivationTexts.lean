import JackToVm.Derivation.Outline
import JackToVm.Proofs.Compilation
import JackToVm.Proofs.TokenDumps

/-!
# The texts of derivation trees

The text of a walk through a tree is the text of the tree. Where no token
breaks a line, it is an outline whose leaves are the token lines of the token
dump. So the text that is found while a token list is read shows the derivation
tree of the list, with every token once and in its place.
-/

namespace JackToVm

open Text (Unbroken ended margin)

/-! ## A walk has one tree -/

namespace DerivationTree

mutual

/-- A walk shows where the tree ends that it goes through, and which tree it
is. -/
theorem eq_of_walk_append :
    ∀ (tree other : DerivationTree) {behind otherBehind : List Step},
      tree.walk ++ behind = other.walk ++ otherBehind →
        tree = other ∧ behind = otherBehind
  | .leaf token, .leaf otherToken, _, _, same => by
      simpa [walk] using same
  | .leaf _, .branch _ _, _, _, same => by
      simp [walk] at same
  | .branch _ _, .leaf _, _, _, same => by
      simp [walk] at same
  | .branch node children, .branch otherNode otherChildren, _, _, same => by
      simp only [walk, List.cons_append, List.append_assoc,
        List.nil_append, List.cons.injEq, Step.enter.injEq] at same
      obtain ⟨rfl, inside⟩ := same
      obtain ⟨rfl, left⟩ := eq_of_walkOfList_append children otherChildren
        inside
      exact ⟨rfl, (List.cons.inj left).2⟩

/-- Several trees in front of the end of a node are found in the same way. -/
theorem eq_of_walkOfList_append :
    ∀ (trees others : List DerivationTree) {node otherNode : Node}
      {behind otherBehind : List Step},
      walkOfList trees ++ .leave node :: behind =
          walkOfList others ++ .leave otherNode :: otherBehind →
        trees = others ∧
          Step.leave node :: behind = .leave otherNode :: otherBehind
  | [], [], _, _, _, _, same => ⟨rfl, same⟩
  | [], other :: others, _, _, _, _, same => by
      cases other <;> simp [walkOfList, walk] at same
  | tree :: trees, [], _, _, _, _, same => by
      cases tree <;> simp [walkOfList, walk] at same
  | tree :: trees, other :: others, _, _, _, _, same => by
      simp only [walkOfList, List.append_assoc] at same
      obtain ⟨rfl, later⟩ := eq_of_walk_append tree other same
      obtain ⟨rfl, left⟩ := eq_of_walkOfList_append trees others later
      exact ⟨rfl, left⟩

end

theorem walk_injective : Function.Injective walk := by
  intro tree other same
  have ended : tree.walk ++ [] = other.walk ++ [] := by
    rw [same]
  exact (eq_of_walk_append tree other ended).1

end DerivationTree

/-! ## The text of a walk -/

namespace Step

/-- The text written and the number of open nodes behind one more step. -/
def write (written : String × Nat) (step : Step) : String × Nat :=
  (written.1 ++ (step.markup written.2).1, (step.markup written.2).2)

theorem markupOfList_eq (walk : List Step) :
    markupOfList walk = (walk.foldl write ("", 0)).1 := rfl

end Step

namespace DerivationTree

mutual

/-- A walk through a tree writes the text of the tree and leaves as many nodes
open as there were. -/
theorem foldl_walk :
    ∀ (tree : DerivationTree) (written : String) (depth : Nat),
      tree.walk.foldl Step.write (written, depth) =
        (written ++ tree.text depth, depth)
  | .leaf token, written, depth => rfl
  | .branch node children, written, depth => by
      have inside := foldl_walkOfList children
        (written ++ (Text.indent depth (Markup.openTag node.tag) ++ "\n"))
        (depth + 1)
      rw [walk, List.cons_append, List.foldl_cons, List.foldl_append]
      simp only [Step.write, Step.markup] at inside ⊢
      rw [inside]
      simp [Step.write, Step.markup, text, Markup.group, String.append_assoc]

theorem foldl_walkOfList :
    ∀ (trees : List DerivationTree) (written : String) (depth : Nat),
      (walkOfList trees).foldl Step.write (written, depth) =
        (written ++ textOfList depth trees, depth)
  | [], written, depth => by simp [walkOfList, textOfList]
  | tree :: trees, written, depth => by
      rw [walkOfList, List.foldl_append, foldl_walk tree,
        foldl_walkOfList trees, textOfList, String.append_assoc]

end

/-- The text of a walk through a tree is the text of the tree. -/
theorem markupOfList_walk (tree : DerivationTree) :
    Step.markupOfList tree.walk = tree.text 0 := by
  rw [Step.markupOfList_eq, foldl_walk, String.empty_append]

end DerivationTree

/-! ## The lines of a tree -/

namespace Node

theorem unbroken_tag (node : Node) : Unbroken node.tag := by
  cases node <;> decide

theorem unbroken_openingLine (node : Node) : Unbroken node.openingLine :=
  Markup.unbroken_openTag node.unbroken_tag

theorem unbroken_closingLine (node : Node) : Unbroken node.closingLine :=
  Markup.unbroken_closeTag node.unbroken_tag

end Node

/-- The line of a token holds a space, so it is not the line of a node. -/
theorem Token.line_ne_node (token : Token) (node : Node) :
    token.line ≠ node.openingLine ∧ token.line ≠ node.closingLine := by
  have space : ' ' ∈ token.line.toList := by
    simp [Token.line, Markup.leafLine]
  have noSpace :
      ' ' ∉ node.openingLine.toList ∧ ' ' ∉ node.closingLine.toList := by
    cases node <;> decide
  constructor
  · intro same
    exact noSpace.1 (same ▸ space)
  · intro same
    exact noSpace.2 (same ▸ space)

namespace DerivationTree

mutual

theorem unbroken_lines :
    ∀ (tree : DerivationTree) (depth : Nat),
      (∀ token ∈ tree.yield, Unbroken token.text) →
        ∀ line ∈ tree.lines depth, Unbroken line
  | .leaf token, depth, unbroken => by
      have unbrokenLine := Token.unbroken_line
        (unbroken token List.mem_cons_self)
      simp [lines, unbrokenLine]
  | .branch node children, depth, unbroken => by
      have inside := unbroken_linesOfList children (depth + 1) unbroken
      simp only [lines, List.mem_append, List.mem_cons, List.not_mem_nil,
        or_false]
      rintro line ((rfl | member) | rfl)
      · simp [node.unbroken_openingLine]
      · exact inside line member
      · simp [node.unbroken_closingLine]

theorem unbroken_linesOfList :
    ∀ (trees : List DerivationTree) (depth : Nat),
      (∀ token ∈ yieldOfList trees, Unbroken token.text) →
        ∀ line ∈ linesOfList depth trees, Unbroken line
  | [], depth, _ => List.forall_mem_nil _
  | tree :: trees, depth, unbroken => by
      rw [yieldOfList, List.forall_mem_append] at unbroken
      rw [linesOfList, List.forall_mem_append]
      exact ⟨unbroken_lines tree depth unbroken.1,
        unbroken_linesOfList trees depth unbroken.2⟩

end

mutual

/-- The text of a tree whose tokens do not break lines is made of its
lines. -/
theorem text_eq_ended :
    ∀ (tree : DerivationTree) (depth : Nat),
      (∀ token ∈ tree.yield, Unbroken token.text) →
        tree.text depth = ended (tree.lines depth)
  | .leaf token, depth, unbroken =>
      Token.markup_eq_ended (unbroken token List.mem_cons_self) depth
  | .branch node children, depth, unbroken => by
      rw [text, textOfList_eq_ended children (depth + 1) unbroken,
        Markup.group_eq_ended node.unbroken_tag]
      rfl

theorem textOfList_eq_ended :
    ∀ (trees : List DerivationTree) (depth : Nat),
      (∀ token ∈ yieldOfList trees, Unbroken token.text) →
        textOfList depth trees = ended (linesOfList depth trees)
  | [], depth, _ => rfl
  | tree :: trees, depth, unbroken => by
      rw [yieldOfList, List.forall_mem_append] at unbroken
      rw [textOfList, text_eq_ended tree depth unbroken.1,
        textOfList_eq_ended trees depth unbroken.2, linesOfList,
        Text.ended_append]

end

theorem lines_text {tree : DerivationTree}
    (unbroken : ∀ token ∈ tree.yield, Unbroken token.text) :
    Text.lines (tree.text 0) = tree.lines 0 ++ [""] := by
  rw [text_eq_ended tree 0 unbroken,
    Text.lines_ended (unbroken_lines tree 0 unbroken)]

mutual

/-- The lines of a tree are an outline with the lines of its tokens as leaves,
also in front of other such lines. -/
theorem isOutline_lines_append :
    ∀ (tree : DerivationTree) {depth : Nat} {behind leaves : List String},
      IsOutline depth behind leaves →
        IsOutline depth (tree.lines depth ++ behind)
          (tree.yield.map Token.line ++ leaves)
  | .leaf token, _, _, _, outline => .leaf token.line_ne_node outline
  | .branch node children, depth, behind, leaves, outline => by
      have nothing : IsOutline (depth + 1) [] [] := .nil
      have inside := isOutline_linesOfList_append children nothing
      rw [List.append_nil, List.append_nil] at inside
      have whole : IsOutline depth
          ((Text.margin depth ++ node.openingLine) ::
              linesOfList (depth + 1) children ++
            (Text.margin depth ++ node.closingLine) :: behind)
          ((yieldOfList children).map Token.line ++ leaves) :=
        .node inside outline
      simpa [lines, yield] using whole

theorem isOutline_linesOfList_append :
    ∀ (trees : List DerivationTree) {depth : Nat}
      {behind leaves : List String},
      IsOutline depth behind leaves →
        IsOutline depth (linesOfList depth trees ++ behind)
          ((yieldOfList trees).map Token.line ++ leaves)
  | [], _, _, _, outline => outline
  | tree :: trees, _, _, _, outline => by
      have others := isOutline_linesOfList_append trees outline
      have whole := isOutline_lines_append tree others
      simpa [linesOfList, yieldOfList] using whole

end

theorem isOutline_lines (tree : DerivationTree) :
    IsOutline 0 (tree.lines 0) (tree.yield.map Token.line) := by
  have nothing : IsOutline 0 [] [] := .nil
  have whole := isOutline_lines_append tree nothing
  rwa [List.append_nil, List.append_nil] at whole

end DerivationTree

/-! ## The derivation of a token list -/

/-- The walk that is found is the one through the tree of a class. -/
theorem derivation_tokens {declared : ClassDeclaration}
    (admissible : declared.Admissible)
    (allowed : LabelCounters.initial.Allow declared.count) :
    derivation declared.tokens = .ok declared.derivation.walk := by
  rw [derivation, runPass_tokens admissible allowed, declared.passage_eq]
  simp [PassState.after, PassState.start]

/-- A token list that has a derivation is the list of one class, and the walk
that is found goes through the tree of that class. -/
theorem exists_class_of_derivation {tokens : List Token} {walk : List Step}
    (derived : derivation tokens = .ok walk) :
    ∃ declared : ClassDeclaration, declared.derivation.yield = tokens ∧
      declared.Admissible ∧ LabelCounters.initial.Allow declared.count ∧
      walk = declared.derivation.walk := by
  cases run : runPass tokens LabelCounters.initial with
  | error cause final =>
      rw [derivation, run] at derived
      cases derived
  | ok head final =>
      obtain ⟨declared, admissible, rfl, allowed⟩ := recognizes_runPass run
      have found := derivation_tokens admissible allowed
      rw [derived] at found
      exact ⟨declared, rfl, admissible, allowed, Except.ok.inj found⟩

/-- The text that is found while a token list is read is the text of the one
derivation tree of the list. If no token breaks a line, it stands on the lines
of the tree, which are an outline, and the leaves of the outline are the lines
between the two tags of the token dump, in the same order. No list that is
scanned from a source breaks lines. -/
theorem outline_of_derivation :
    (∀ (source : String) (tokens : List Token),
      Token.scan source = .ok tokens →
        ∀ token ∈ tokens, Unbroken token.text) ∧
    ∀ (tokens : List Token) (walk : List Step),
      derivation tokens = .ok walk →
        ∃ declared : ClassDeclaration,
          declared.derivation.yield = tokens ∧ declared.Admissible ∧
          LabelCounters.initial.Allow declared.count ∧
          (∀ other : ClassDeclaration, other.derivation.yield = tokens →
            other.Admissible → LabelCounters.initial.Allow other.count →
              other.derivation = declared.derivation) ∧
          Step.markupOfList walk = declared.derivation.text 0 ∧
          ((∀ token ∈ tokens, Unbroken token.text) →
            Text.lines (Step.markupOfList walk) =
                declared.derivation.lines 0 ++ [""] ∧
              Text.lines (Token.markupOfList 0 tokens) =
                Token.dumpLines (tokens.map Token.line) ∧
              IsOutline 0 (declared.derivation.lines 0)
                (tokens.map Token.line)) := by
  refine ⟨fun _ _ => Token.unbroken_of_scan, ?_⟩
  intro tokens walk derived
  obtain ⟨declared, rfl, admissible, allowed, rfl⟩ :=
    exists_class_of_derivation derived
  refine ⟨declared, rfl, admissible, allowed, ?_,
    declared.derivation.markupOfList_walk, ?_⟩
  · intro other same otherAdmissible otherAllowed
    have found := derivation_tokens otherAdmissible otherAllowed
    rw [ClassDeclaration.tokens, same, derived] at found
    exact (DerivationTree.walk_injective (Except.ok.inj found)).symm
  · intro unbroken
    refine ⟨?_, ?_, declared.derivation.isOutline_lines⟩
    · rw [DerivationTree.markupOfList_walk,
        DerivationTree.lines_text unbroken]
    · rw [Token.lines_markupOfList unbroken, Token.dumpLines]
      simp [Text.margin]

theorem outline_of_derivation_countdown :
    let tokens := ClassDeclaration.countdown.tokens
    let walk := ClassDeclaration.countdown.derivation.walk
    Token.scan (Token.spelled tokens) = .ok tokens ∧
      derivation tokens = .ok walk ∧
      (∀ token ∈ tokens, Unbroken token.text) ∧
      ∃ declared : ClassDeclaration,
        Step.markupOfList walk = declared.derivation.text 0 ∧
          IsOutline 0 (declared.derivation.lines 0)
            (tokens.map Token.line) := by
  intro tokens walk
  have scanned := Token.scan_spelled ClassDeclaration.countdown_written
  have derived : derivation tokens = .ok walk :=
    derivation_tokens ClassDeclaration.countdown_admissible
      ClassDeclaration.countdown_allowed
  have unbroken := outline_of_derivation.1 _ tokens scanned
  obtain ⟨declared, -, -, -, -, sameText, outlined⟩ :=
    outline_of_derivation.2 tokens walk derived
  exact ⟨scanned, derived, unbroken, declared, sameText,
    (outlined unbroken).2.2⟩

end JackToVm
