import JackToVm.Grammar.Class
import Mathlib.Computability.Language

/-!
# Languages of token lists

The token lists of a construct of the grammar are the yields of its trees. Such
a language is composed of those of the parts, and what begins its token lists
is found part by part.
-/

namespace JackToVm

namespace DerivationTree

@[simp]
theorem yieldOfList_nil : yieldOfList [] = [] := rfl

@[simp]
theorem yieldOfList_cons (tree : DerivationTree)
    (trees : List DerivationTree) :
    yieldOfList (tree :: trees) = tree.yield ++ yieldOfList trees := rfl

@[simp]
theorem yield_leaf (token : Token) : (leaf token).yield = [token] := rfl

@[simp]
theorem yield_branch (node : Node) (children : List DerivationTree) :
    (branch node children).yield = yieldOfList children := rfl

@[simp]
theorem yield_keyword (reserved : Keyword) :
    (keyword reserved).yield = [.keyword reserved] := rfl

@[simp]
theorem yield_symbol (sign : Symbol) :
    (symbol sign).yield = [.symbol sign] := rfl

@[simp]
theorem yield_name (text : String) :
    (name text).yield = [.identifier text] := rfl

end DerivationTree

namespace Grammar

open scoped Computability

/-- The token lists with one token, out of a family. -/
def oneOf {κ : Type} (token : κ → Token) : Language Token :=
  { tokens | ∃ choice, [token choice] = tokens }

/-- The token list with the given token only. -/
abbrev only (token : Token) : Language Token :=
  oneOf fun (_ : Unit) => token

/-- The token lists of a construct that is shown by trees. -/
def yields {γ : Type} (trees : γ → List DerivationTree) : Language Token :=
  { tokens |
    ∃ construct, DerivationTree.yieldOfList (trees construct) = tokens }

theorem mem_add_left {language other : Language Token} {word : List Token}
    (member : word ∈ language) : word ∈ language + other :=
  (Language.mem_add ..).mpr (Or.inl member)

theorem mem_add_right {language other : Language Token} {word : List Token}
    (member : word ∈ other) : word ∈ language + other :=
  (Language.mem_add ..).mpr (Or.inr member)

theorem mem_yields {γ : Type} (trees : γ → List DerivationTree)
    (construct : γ) :
    DerivationTree.yieldOfList (trees construct) ∈ yields trees :=
  ⟨construct, rfl⟩

theorem mem_only (token : Token) : [token] ∈ only token := ⟨(), rfl⟩

theorem mem_oneOf_mul {κ : Type} (token : κ → Token) (choice : κ)
    {language : Language Token} {rest : List Token}
    (member : rest ∈ language) :
    token choice :: rest ∈ oneOf token * language :=
  Language.mem_mul.mpr ⟨_, ⟨choice, rfl⟩, rest, member, rfl⟩

theorem mem_only_mul (token : Token) {language : Language Token}
    {rest : List Token} (member : rest ∈ language) :
    token :: rest ∈ only token * language :=
  mem_oneOf_mul (fun _ => token) () member

theorem mem_yields_mul {γ : Type} (trees : γ → List DerivationTree)
    (construct : γ) {language : Language Token} {rest : List Token}
    (member : rest ∈ language) :
    DerivationTree.yieldOfList (trees construct) ++ rest ∈
      yields trees * language :=
  Language.append_mem_mul ⟨construct, rfl⟩ member

theorem mem_oneOf_mul_iff {κ : Type} {token : κ → Token}
    {language : Language Token} {word : List Token} :
    word ∈ oneOf token * language ↔
      ∃ choice, ∃ rest ∈ language, token choice :: rest = word := by
  constructor
  · rintro ⟨_, ⟨choice, rfl⟩, rest, member, rfl⟩
    exact ⟨choice, rest, member, rfl⟩
  · rintro ⟨choice, rest, member, rfl⟩
    exact mem_oneOf_mul token choice member

theorem mem_yields_mul_iff {γ : Type} {trees : γ → List DerivationTree}
    {language : Language Token} {word : List Token} :
    word ∈ yields trees * language ↔
      ∃ construct, ∃ rest ∈ language,
        DerivationTree.yieldOfList (trees construct) ++ rest = word := by
  constructor
  · rintro ⟨_, ⟨construct, rfl⟩, rest, member, rfl⟩
    exact ⟨construct, rest, member, rfl⟩
  · rintro ⟨construct, rest, member, rfl⟩
    exact mem_yields_mul trees construct member

/-! ## What begins a token list -/

/-- Where a token list of the language stands in front of a token that `behind`
holds of, `first` holds of the first token. -/
def Leads (language : Language Token) (behind first : Option Token → Prop) :
    Prop :=
  ∀ word ∈ language, ∀ rest : List Token, behind rest.head? →
    first (word ++ rest).head?

namespace Leads

variable {language other : Language Token}
variable {behind between first : Option Token → Prop}

theorem true : Leads language behind fun _ => True :=
  fun _ _ _ _ => trivial

theorem imp {later : Option Token → Prop}
    (leads : Leads language behind first)
    (weaker : ∀ next, first next → later next) :
    Leads language behind later :=
  fun word member rest holds => weaker _ (leads word member rest holds)

theorem one (same : ∀ next, behind next → first next) :
    Leads 1 behind first := by
  intro word member rest holds
  rw [Language.mem_one] at member
  subst member
  exact same _ holds

theorem oneOf {κ : Type} {token : κ → Token}
    (begins : ∀ choice, first (some (token choice))) :
    Leads (oneOf token) behind first := by
  rintro word ⟨choice, rfl⟩ rest _
  exact begins choice

theorem mul (leads : Leads language between first)
    (leadsOther : Leads other behind between) :
    Leads (language * other) behind first := by
  intro word member rest holds
  obtain ⟨left, memberLeft, right, memberRight, rfl⟩ :=
    Language.mem_mul.mp member
  rw [List.append_assoc]
  exact leads left memberLeft _ (leadsOther right memberRight rest holds)

theorem add (leads : Leads language behind first)
    (leadsOther : Leads other behind first) :
    Leads (language + other) behind first := by
  intro word member
  rcases (Language.mem_add ..).mp member with left | right
  · exact leads word left
  · exact leadsOther word right

theorem kstar (leads : Leads language (fun _ => True) first)
    (same : ∀ next, behind next → first next) :
    Leads language∗ behind first := by
  intro word member rest holds
  obtain ⟨parts, rfl, members⟩ := Language.mem_kstar.mp member
  cases parts with
  | nil => exact same _ holds
  | cons part others =>
      rw [List.flatten_cons, List.append_assoc]
      exact leads part (members part List.mem_cons_self) _ trivial

end Leads

/-! ## Composed trees -/

section Yields

open DerivationTree (yieldOfList)

variable {γ : Type} {trees : γ → List DerivationTree}

/-- Constructs that are built up part by part are the star of the parts. -/
theorem yields_eq_kstar {part : Language Token}
    (members : ∀ construct, yieldOfList (trees construct) ∈ part∗)
    (nil : [] ∈ yields trees)
    (cons : ∀ first ∈ part, ∀ rest ∈ yields trees,
      first ++ rest ∈ yields trees) :
    yields trees = part∗ := by
  apply le_antisymm
  · rintro _ ⟨construct, rfl⟩
    exact members construct
  · rw [← mul_one part∗]
    apply kstar_mul_le
    · rintro _ rfl
      exact nil
    · intro word member
      obtain ⟨first, isPart, rest, behind, rfl⟩ :=
        Language.mem_mul.mp member
      exact cons first isPart rest behind

theorem append_mem_kstar {part : Language Token} {first rest : List Token}
    (member : first ∈ part) (members : rest ∈ part∗) :
    first ++ rest ∈ part∗ :=
  (mul_kstar_le_kstar : part * part∗ ≤ part∗)
    (Language.append_mem_mul member members)

/-- Constructs of any number, one behind the other. -/
theorem yields_flatMap :
    yields (fun list : List γ => list.flatMap trees) = (yields trees)∗ := by
  apply yields_eq_kstar
  · intro list
    induction list with
    | nil => exact Language.nil_mem_kstar _
    | cons first others inductionHypothesis =>
        rw [List.flatMap_cons, DerivationTree.yieldOfList_append]
        exact append_mem_kstar (mem_yields trees first) inductionHypothesis
  · exact ⟨[], rfl⟩
  · rintro _ ⟨first, rfl⟩ _ ⟨others, rfl⟩
    refine ⟨first :: others, ?_⟩
    simp [DerivationTree.yieldOfList_append]

/-- A construct between two tokens. -/
abbrev enclosed (opening closing : Token)
    (trees : γ → List DerivationTree) : Language Token :=
  only opening * (yields trees * only closing)

section Enclosed

variable {opening closing : Token} {language : Language Token}
variable {word rest : List Token}

theorem mem_enclosed (trees : γ → List DerivationTree) (construct : γ) :
    opening :: (yieldOfList (trees construct) ++ [closing]) ∈
      enclosed opening closing trees :=
  mem_only_mul _ (mem_yields_mul _ construct (mem_only _))

theorem mem_enclosed_mul (trees : γ → List DerivationTree) (construct : γ)
    (member : rest ∈ language) :
    opening :: (yieldOfList (trees construct) ++ closing :: rest) ∈
      enclosed opening closing trees * language := by
  rw [enclosed, mul_assoc, mul_assoc]
  exact mem_only_mul _ (mem_yields_mul _ construct (mem_only_mul _ member))

theorem mem_enclosed_iff :
    word ∈ enclosed opening closing trees ↔
      ∃ construct,
        opening :: (yieldOfList (trees construct) ++ [closing]) = word := by
  constructor
  · intro member
    obtain ⟨_, _, inner, rfl⟩ := mem_oneOf_mul_iff.mp member
    obtain ⟨construct, _, ⟨_, rfl⟩, rfl⟩ := mem_yields_mul_iff.mp inner
    exact ⟨construct, rfl⟩
  · rintro ⟨construct, rfl⟩
    exact mem_enclosed trees construct

theorem mem_enclosed_mul_iff :
    word ∈ enclosed opening closing trees * language ↔
      ∃ construct, ∃ rest ∈ language,
        opening :: (yieldOfList (trees construct) ++ closing :: rest) =
          word := by
  constructor
  · intro member
    obtain ⟨_, inside, rest, behind, rfl⟩ := Language.mem_mul.mp member
    obtain ⟨construct, rfl⟩ := mem_enclosed_iff.mp inside
    refine ⟨construct, rest, behind, ?_⟩
    simp
  · rintro ⟨construct, rest, behind, rfl⟩
    exact mem_enclosed_mul trees construct behind

end Enclosed

end Yields

end Grammar

end JackToVm
