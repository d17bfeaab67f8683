import JackToVm.Label
import Mathlib.Data.List.Nodup

/-!
# Labels are distinct

A label is a name without digits and a number in decimal digits. So two labels
are equal only if they have the same name and number, and the statements of a
run, which take different numbers, never share a label.
-/

namespace JackToVm

/-! ## Names and numbers -/

theorem toDigits_injective {first second : Nat}
    (same : Nat.toDigits 10 first = Nat.toDigits 10 second) :
    first = second := by
  have decoded := congrArg (fun digits => Nat.ofDigitChars 10 digits 0) same
  simpa only [Nat.ofDigitChars_ten_toDigits] using decoded

/-- The digits behind a text without digits begin where the first digit
stands. -/
theorem takeWhile_append_toDigits {letters : List Char}
    (noDigit : ∀ c ∈ letters, c.isDigit = false) (number : Nat) :
    (letters ++ Nat.toDigits 10 number).takeWhile (!·.isDigit) =
      letters := by
  have stops :
      (Nat.toDigits 10 number).takeWhile (!·.isDigit) = [] := by
    cases digits : Nat.toDigits 10 number with
    | nil => rfl
    | cons c others =>
        have isDigit : c.isDigit = true := by
          apply Nat.isDigit_of_mem_toDigits (by decide : 0 < 10)
            (by decide : 10 ≤ 10)
          rw [digits]
          exact List.mem_cons_self
        simp [isDigit]
  have passes : ∀ c ∈ letters, (!c.isDigit) = true := by
    intro c member
    rw [noDigit c member]
    rfl
  rw [List.takeWhile_append_of_pos passes, stops, List.append_nil]

theorem append_toString_injective {first second : String}
    {firstNumber secondNumber : Nat}
    (noDigitFirst : ∀ c ∈ first.toList, c.isDigit = false)
    (noDigitSecond : ∀ c ∈ second.toList, c.isDigit = false)
    (same : first ++ toString firstNumber =
      second ++ toString secondNumber) :
    first = second ∧ firstNumber = secondNumber := by
  have letters :
      first.toList ++ Nat.toDigits 10 firstNumber =
        second.toList ++ Nat.toDigits 10 secondNumber := by
    have texts := congrArg String.toList same
    simpa [String.toList_append] using texts
  have names : first.toList = second.toList := by
    have front := congrArg (List.takeWhile (!·.isDigit)) letters
    rwa [takeWhile_append_toDigits noDigitFirst,
      takeWhile_append_toDigits noDigitSecond] at front
  rw [names] at letters
  exact ⟨String.toList_inj.mp names,
    toDigits_injective (List.append_cancel_left letters)⟩

/-! ## The labels of a statement -/

/-- The two labels of a pair. -/
def LabelPair.labels (pair : LabelPair) : List String :=
  [pair.start, pair.finish]

namespace LabelKind

/-- The names of the two labels of a statement. -/
def names (kind : LabelKind) : List String :=
  [kind.startName, kind.endName]

theorem noDigit_names {kind : LabelKind} {name : String}
    (member : name ∈ kind.names) :
    ∀ c ∈ name.toList, c.isDigit = false := by
  have letters :
      kind.names.all (fun name =>
        name.toList.all fun c => !c.isDigit) := by
    cases kind <;> rfl
  intro c within
  have noDigit :=
    List.all_eq_true.mp (List.all_eq_true.mp letters name member) c within
  exact Bool.not_eq_true' _ |>.mp noDigit

/-- A name of labels belongs to one kind of statement only. -/
theorem names_disjoint {first second : LabelKind} {name : String}
    (ofFirst : name ∈ first.names) (ofSecond : name ∈ second.names) :
    first = second := by
  have disjoint :
      ∀ name ∈ first.names, name ∈ second.names → first = second := by
    cases first <;> cases second <;> decide
  exact disjoint name ofFirst ofSecond

theorem labels_pair (kind : LabelKind) (number : Nat) :
    (kind.pair number).labels =
      kind.names.map (· ++ toString number) := rfl

/-- A label belongs to one statement only. -/
theorem pair_injective {first second : LabelKind}
    {firstNumber secondNumber : Nat} {label : String}
    (ofFirst : label ∈ (first.pair firstNumber).labels)
    (ofSecond : label ∈ (second.pair secondNumber).labels) :
    first = second ∧ firstNumber = secondNumber := by
  rw [labels_pair] at ofFirst ofSecond
  obtain ⟨firstName, memberFirst, rfl⟩ := List.mem_map.mp ofFirst
  obtain ⟨secondName, memberSecond, same⟩ := List.mem_map.mp ofSecond
  obtain ⟨rfl, rfl⟩ := append_toString_injective
    (noDigit_names memberSecond) (noDigit_names memberFirst) same
  exact ⟨names_disjoint memberFirst memberSecond, rfl⟩

theorem nodup_labels (kind : LabelKind) (number : Nat) :
    (kind.pair number).labels.Nodup := by
  rw [labels_pair]
  refine List.Nodup.map_on ?_ ?_
  · intro first memberFirst second memberSecond same
    exact (append_toString_injective (noDigit_names memberFirst)
      (noDigit_names memberSecond) same).1
  · cases kind <;> decide

end LabelKind

/-! ## The labels of many statements -/

/-- The labels are distinct, and their numbers are taken while the numbers
used up grow from `used` to `behind`. -/
structure FreshLabels (used behind : NumbersUsed)
    (labels : List String) : Prop where
  nodup : labels.Nodup
  numbered : ∀ label ∈ labels, ∃ kind number,
    used kind ≤ number ∧ number < behind kind ∧
      label ∈ (LabelKind.pair kind number).labels

namespace FreshLabels

variable {used between behind : NumbersUsed}
variable {first second labels : List String}

theorem nil : FreshLabels used behind [] :=
  ⟨List.nodup_nil, List.forall_mem_nil _⟩

theorem perm (fresh : FreshLabels used behind first)
    (permuted : second.Perm first) : FreshLabels used behind second where
  nodup := permuted.nodup_iff.mpr fresh.nodup
  numbered := by
    intro label member
    exact fresh.numbered label (permuted.mem_iff.mp member)

theorem append (freshFirst : FreshLabels used between first)
    (freshSecond : FreshLabels between behind second)
    (below : ∀ kind, used kind ≤ between kind)
    (above : ∀ kind, between kind ≤ behind kind) :
    FreshLabels used behind (first ++ second) where
  nodup := by
    refine List.nodup_append.mpr
      ⟨freshFirst.nodup, freshSecond.nodup, ?_⟩
    intro label inFirst other inSecond same
    subst other
    obtain ⟨kind, number, _, early, ofNumber⟩ :=
      freshFirst.numbered label inFirst
    obtain ⟨otherKind, otherNumber, late, _, ofOther⟩ :=
      freshSecond.numbered label inSecond
    obtain ⟨rfl, rfl⟩ := LabelKind.pair_injective ofNumber ofOther
    exact absurd early (Nat.not_lt.mpr late)
  numbered := by
    intro label member
    obtain inFirst | inSecond := List.mem_append.mp member
    · obtain ⟨kind, number, least, early, ofNumber⟩ :=
        freshFirst.numbered label inFirst
      exact ⟨kind, number, least, Nat.lt_of_lt_of_le early (above kind),
        ofNumber⟩
    · obtain ⟨kind, number, late, greatest, ofNumber⟩ :=
        freshSecond.numbered label inSecond
      exact ⟨kind, number, Nat.le_trans (below kind) late, greatest,
        ofNumber⟩

theorem pair (used : NumbersUsed) (kind : LabelKind) :
    FreshLabels used (used.next kind)
      (LabelKind.pair kind (used kind)).labels where
  nodup := kind.nodup_labels (used kind)
  numbered := by
    intro label member
    refine ⟨kind, used kind, Nat.le_refl _, ?_, member⟩
    simp [NumbersUsed.next, NumbersUsed.one]

end FreshLabels

/-- The labels are those of the numbers that are taken while the numbers used
up grow from `used` to `behind`, of all of them and of no other ones. -/
structure TakenLabels (used behind : NumbersUsed) (labels : List String) :
    Prop extends FreshLabels used behind labels where
  complete : ∀ kind number, used kind ≤ number → number < behind kind →
    (LabelKind.pair kind number).labels ⊆ labels

namespace TakenLabels

variable {used between behind : NumbersUsed}
variable {first second labels : List String}

theorem nil : TakenLabels used used [] where
  toFreshLabels := .nil
  complete := by
    intro kind number least early
    exact absurd early (Nat.not_lt.mpr least)

theorem perm (taken : TakenLabels used behind first)
    (permuted : second.Perm first) : TakenLabels used behind second where
  toFreshLabels := taken.toFreshLabels.perm permuted
  complete := by
    intro kind number least early
    exact List.Subset.trans (taken.complete kind number least early)
      permuted.symm.subset

theorem append (takenFirst : TakenLabels used between first)
    (takenSecond : TakenLabels between behind second)
    (below : ∀ kind, used kind ≤ between kind)
    (above : ∀ kind, between kind ≤ behind kind) :
    TakenLabels used behind (first ++ second) where
  toFreshLabels := takenFirst.toFreshLabels.append
    takenSecond.toFreshLabels below above
  complete := by
    intro kind number least early
    by_cases inFirst : number < between kind
    · exact List.subset_append_of_subset_left _
        (takenFirst.complete kind number least inFirst)
    · exact List.subset_append_of_subset_right _
        (takenSecond.complete kind number (Nat.not_lt.mp inFirst) early)

theorem pair (used : NumbersUsed) (kind : LabelKind) :
    TakenLabels used (used.next kind)
      (LabelKind.pair kind (used kind)).labels where
  toFreshLabels := .pair used kind
  complete := by
    intro asked number least early
    by_cases same : kind = asked
    · subst same
      simp only [NumbersUsed.next, NumbersUsed.one, if_true] at early
      obtain rfl : number = used kind := by omega
      exact List.Subset.refl _
    · simp only [NumbersUsed.next, NumbersUsed.one, same,
        if_false] at early
      omega

end TakenLabels

end JackToVm
