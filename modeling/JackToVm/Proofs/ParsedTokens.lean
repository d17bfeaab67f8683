import JackToVm.Proofs.Parses

/-!
# Parsing single tokens

Each small step of a pass parses the language of the tokens that it asks for.
What is resolved, declared or counted in between takes no tokens, and fails for
reasons of names or limits only.
-/

namespace JackToVm

open Grammar
open scoped Computability

instance : Nonempty LabelPair := ⟨⟨"", ""⟩⟩

instance : Nonempty TypeName := ⟨.int⟩

instance : Nonempty SymbolTable := ⟨.empty⟩

instance : Nonempty Variable := ⟨⟨"", .static, 0⟩⟩

namespace Pass.Parses

variable {α β : Type} {next : Option (Option Token)}
variable {found : Option Token} {language other : Language Token}
variable {follow between : Option Token → Prop}

/-! ## The branch for the next token -/

/-- A language may be replaced by another one that is the same behind the next
token. -/
theorem change {step : Pass α}
    (parses : Parses (some found) step language follow)
    (larger : ∀ word ∈ language, word ∈ other)
    (same : ∀ word ∈ other, ∀ behind : List Token,
      (word ++ behind).head? = found → between behind.head? →
      word ∈ language ∧ follow behind.head?) :
    Parses (some found) step other between := by
  obtain ⟨word, member⟩ := parses.inhabited
  refine ⟨⟨word, larger word member⟩, ?_⟩
  intro labels tokens isNext
  refine (parses.parsesAt labels tokens isNext).change larger ?_
  intro word member behind cut holds
  exact same word member behind (cut ▸ isNext found rfl) holds

theorem left {step : Pass α}
    (parses : Parses (some found) step language follow)
    (different : Leads other follow (· ≠ found)) :
    Parses (some found) step (language + other) follow := by
  refine parses.change ?_ ?_
  · intro word member
    exact (Language.mem_add _ _ word).mpr (Or.inl member)
  · intro word member behind isNext follows
    refine ⟨?_, follows⟩
    rcases (Language.mem_add _ _ word).mp member with first | second
    · exact first
    · exact absurd isNext (different word second behind follows)

theorem right {step : Pass α}
    (parses : Parses (some found) step other follow)
    (different : Leads language follow (· ≠ found)) :
    Parses (some found) step (language + other) follow := by
  rw [add_comm]
  exact parses.left different

theorem of_unknown {step : Pass α}
    (parses : Parses none step language follow) :
    Parses next step language follow :=
  ⟨parses.inhabited, fun labels tokens _ =>
    parses.parsesAt labels tokens fun _ unknown => by cases unknown⟩

theorem ite_next {token : Token} {accepted refused : Pass α}
    (isNext : Parses (some (some token)) accepted language follow)
    (isNot : ∀ found, found ≠ some token →
      Parses (some found) refused language follow) :
    Parses next (do if ← nextIs token then accepted else refused) language
      follow := by
  have looked : ∀ later : Bool → Pass α,
      (nextIs token >>= later : Pass α) =
        (Pass.peek >>= fun found => later (found == some token)) :=
    fun _ => rfl
  rw [looked]
  refine .peek fun found _ => ?_
  by_cases same : found = some token
  · subst found
    simpa using isNext
  · have different : (found == some token) = false :=
      beq_eq_false_iff_ne.mpr same
    simpa [different] using isNot found same

/-! ## Tokens that are asked for -/

theorem expectKeyword (reserved : Keyword) :
    Parses next (Pass.expectKeyword reserved) (only (.keyword reserved))
      follow := by
  refine ite_next (.take _) fun found different => ?_
  exact .unexpected ⟨_, (), rfl⟩ (.oneOf fun _ => different.symm)

theorem expectSymbol (sign : Symbol) :
    Parses next (Pass.expectSymbol sign) (only (.symbol sign)) follow := by
  refine ite_next (.take _) fun found different => ?_
  exact .unexpected ⟨_, (), rfl⟩ (.oneOf fun _ => different.symm)

theorem expectName (role : NameRole) :
    Parses next (Pass.expectName role) (oneOf Token.identifier)
      follow := by
  refine .peek fun found _ => ?_
  split
  next name _ =>
    exact .bind_nothing (.advance Token.identifier name) fun _ => .pure name
  next _ _ unnamed =>
    exact .unexpected ⟨_, "", rfl⟩
      (.oneOf fun name same => unnamed name same.symm)

theorem expectType :
    Parses next Pass.expectType (oneOf TypeName.token) follow := by
  refine .peek fun found _ => ?_
  cases selected : found.bind TypeName.ofToken? with
  | none =>
      refine .unexpected ⟨_, .int, rfl⟩ (.oneOf fun type same => ?_)
      rw [← same, Option.bind_some,
        TypeName.ofToken?_eq_some_iff.mpr rfl] at selected
      cases selected
  | some type =>
      obtain ⟨token, rfl, named⟩ := Option.bind_eq_some_iff.mp selected
      rw [TypeName.ofToken?_eq_some_iff] at named
      subst named
      exact .bind_nothing (.advance TypeName.token type) fun _ => .pure type

/-! ## Steps that take no tokens -/

theorem tooDeep (node : Node) (inhabited : ∃ word, word ∈ language) :
    Parses next (Pass.tooDeep node : Pass α) language follow :=
  .refuse trivial inhabited

/-- Resolving a name leaves the next token where it is. -/
theorem require_bind (scope : Scope) (name : String)
    {later : Variable → Pass β}
    (parses : ∀ resolved, Parses next (later resolved) language follow) :
    Parses next (Pass.require scope name >>= later) language follow := by
  unfold Pass.require
  cases scope.resolve? name with
  | some resolved => exact parses resolved
  | none =>
      exact .refuse trivial (parses (Classical.arbitrary _)).inhabited

theorem addArguments (target : String) (count more : Nat) :
    Parses next (Pass.addArguments target count more) 1 follow := by
  unfold Pass.addArguments
  by_cases few : count + more ≤ maxCount
  · rw [if_pos few]
    exact .pure _
  · rw [if_neg few]
    exact .refuse trivial ⟨[], Language.nil_mem_one⟩

theorem declare (name type : String) (kind : VariableKind)
    (table : SymbolTable) :
    Parses next (Pass.declare name type kind table) 1 follow := by
  unfold Pass.declare
  cases inserted : table.insert name type kind with
  | mk answer behind =>
      cases answer with
      | ok index => exact .pure behind
      | error cause =>
          have refused := congrArg Prod.fst inserted
          exact .refuse (SymbolTable.isRule_of_insert refused).isSemantic
            ⟨[], Language.nil_mem_one⟩

/-! ## Lists with commas -/

/-- One item, and others behind a comma each. -/
theorem commaSeparated [Nonempty β] {item : β → Pass β} (initial : β)
    (parts : ∀ result, Parses none (item result) language between)
    (ends : ∀ next, follow next → next ≠ some (.symbol .comma))
    (goesOn : between (some (.symbol .comma)))
    (stops : ∀ next, follow next → between next) :
    Parses next (Pass.commaSeparated item initial)
      (language * (only (.symbol .comma) * language)∗) follow := by
  have begins : Leads (only (.symbol .comma) * language) (fun _ => True)
      (fun next => (next.bind (exactly (.symbol .comma))).isSome) :=
    .mul (.oneOf fun _ => rfl) .true
  refine .bind (of_unknown (parts initial)) ?_ fun first => ?_
  · exact .kstar (.mul (.oneOf fun _ => goesOn) .true) stops
  · refine .repeatWhile between follow begins ?_ ?_ ?_ stops first
    · intro token choice result selected
      rw [exactly_eq_some_iff] at selected
      subst selected
      exact .mul (.take _) fun _ => parts result
    · intro next follows
      exact bind_exactly_eq_none_iff.mpr (ends next follows)
    · intro token choice selected
      rw [exactly_eq_some_iff] at selected
      subst selected
      exact goesOn

end Pass.Parses

end JackToVm
