import JackToVm.CommandLine
import Mathlib.Data.List.Forall2

/-!
# How arguments are split

What the arguments of a command line have to be like, said without the way of
reading them: they are a row of groups, each a flag argument with the runs of
parameters that its rules take, and each run is as long as its rule and the
arguments behind it allow.
-/

namespace JackToVm.CommandLine

variable {ι : Type}

/-- The first of some rules that has a property. -/
def IsFirst (rules : List (Rule ι)) (property : Rule ι → Prop)
    (rule : Rule ι) : Prop :=
  ∃ before behind, rules = before ++ rule :: behind ∧ property rule ∧
    ∀ other ∈ before, ¬ property other

/-- A flag argument names some rules, one after the other. -/
inductive Selects (rules : List (Rule ι)) :
    String → List (Rule ι) → Prop where
  /-- Two dashes and the long flag of a rule. -/
  | long {word : String} {rule : Rule ι} :
      IsFirst rules (·.longFlag = word) rule →
      Selects rules ("--" ++ word) [rule]
  /-- One dash and the flags of one or more rules. A second dash would make
  a long flag of them. -/
  | short {flags : List Char} {selected : List (Rule ι)} :
      flags ≠ [] →
      flags.head? ≠ some '-' →
      List.Forall₂ (fun flag => IsFirst rules (·.flag = flag)) flags
        selected →
      Selects rules ("-" ++ String.ofList flags) selected

/-- A rule takes a run of parameters where other arguments stand behind it. It
takes as many as it may, so it leaves a parameter only if it has its largest
number of them. -/
structure IsShare (rule : Rule ι) (run behind : List String) : Prop where
  isParameter : ∀ argument ∈ run, isFlagArgument argument = false
  least_le : rule.least ≤ run.length
  le_most : ∀ most, rule.most = some most → run.length ≤ most
  longest : rule.most = some run.length ∨
    ∀ next, behind.head? = some next → isFlagArgument next = true

/-- Some rules take their runs one after the other from the front of some
arguments, each for one request, and leave the arguments behind them. -/
inductive Takes :
    List (Rule ι) → List String → List (Request ι) → List String →
      Prop where
  | nil {left : List String} : Takes [] left [] left
  | cons {rule : Rule ι} {rules : List (Rule ι)}
      {run behind left : List String} {requests : List (Request ι)} :
      IsShare rule run behind →
      Takes rules behind requests left →
      Takes (rule :: rules) (run ++ behind)
        (⟨rule.type, rule.purpose, some run⟩ :: requests) left

/-- A flag argument and the requests that its rules make. -/
structure Group (ι : Type := Purpose) where
  argument : String
  requests : List (Request ι)

/-- The arguments that a group consists of. -/
def Group.arguments (group : Group ι) : List String :=
  group.argument ::
    group.requests.flatMap fun request => request.parameters.getD []

/-- Arguments are a row of groups. -/
inductive Splits (rules : List (Rule ι)) :
    List String → List (Group ι) → Prop where
  | nil : Splits rules [] []
  | cons {argument : String} {behind left : List String}
      {selected : List (Rule ι)} {requests : List (Request ι)}
      {groups : List (Group ι)} :
      Selects rules argument selected →
      Takes selected behind requests left →
      Splits rules left groups →
      Splits rules (argument :: behind) (⟨argument, requests⟩ :: groups)

/-- The command line that is there after arguments were tried: the one that
they make, or the old one if they are refused. -/
def behind (line : CommandLine ι) (arguments : List String) :
    CommandLine ι :=
  match line.read arguments with
  | .ok next => next
  | .error _ => line

end JackToVm.CommandLine
