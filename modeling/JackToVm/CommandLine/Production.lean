import JackToVm.CommandLine.Splitting
import Mathlib.Data.List.Perm.Basic

/-!
# Rules and the requests that they produce

Which rule each request of a command line comes from, and what it means to run
settings first: nothing is left out or repeated, and requests of one type keep
their order.
-/

namespace JackToVm.CommandLine

variable {ι : Type}

/-- Arguments make some requests, each one beside the rule that produces it.
The rules of a flag argument produce one request each, from the runs of
parameters that they take. -/
inductive Produces (rules : List (Rule ι)) :
    List String → List (Rule ι × Request ι) → Prop where
  | nil : Produces rules [] []
  | cons {argument : String} {behind left : List String}
      {selected : List (Rule ι)} {requests : List (Request ι)}
      {others : List (Rule ι × Request ι)} :
      Selects rules argument selected →
      Takes selected behind requests left →
      Produces rules left others →
      Produces rules (argument :: behind) (selected.zip requests ++ others)

/-- The same items, each as often as it was given, with those of the type
`setting` before the rest, and those of one type in the order in which they
were given. -/
structure IsSettingsFirst {α : Type} (type : α → RuleType)
    (given ordered : List α) : Prop where
  perm : ordered.Perm given
  settings_before : ordered.Pairwise fun first second =>
    type second = .setting → type first = .setting
  order_kept : ∀ wanted, ordered.filter (type · == wanted) =
    given.filter (type · == wanted)

end JackToVm.CommandLine
