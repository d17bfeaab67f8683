import JackToVm.Proofs.Blocks
import JackToVm.Proofs.ExpressionExecution

/-!
# Executing the commands of a block

A block is executed deterministically, so an execution that ends has only one
end, and cannot go on for longer. Code that lies somewhere in a block is
executed from its own place on; a jump leads to the place of its label, because
no label stands twice in the block.
-/

namespace JackToVm

namespace Configuration

variable {callees : Callees} {block : List Command}
variable {first second last other : Configuration}

/-! ## Executions -/

theorem Reaches.trans (reachesFirst : Reaches callees block first second)
    (reachesSecond : Reaches callees block second last) :
    Reaches callees block first last := by
  induction reachesFirst with
  | refl _ => exact reachesSecond
  | step next _ inductionHypothesis =>
      exact .step next (inductionHypothesis reachesSecond)

theorem Reaches.one (next : first.next? callees block = some second) :
    Reaches callees block first second :=
  .step next (.refl second)

/-- At least so many commands can be executed. -/
def Continues (callees : Callees) (block : List Command) :
    Nat → Configuration → Prop
  | 0, _ => True
  | steps + 1, first =>
      ∃ second : Configuration, first.next? callees block = some second ∧
        Continues callees block steps second

theorem Continues.of_succ {steps : Nat} :
    ∀ {first : Configuration}, Continues callees block (steps + 1) first →
      Continues callees block steps first := by
  induction steps with
  | zero =>
      intro first _
      trivial
  | succ steps inductionHypothesis =>
      intro first continues
      obtain ⟨second, next, later⟩ := continues
      exact ⟨second, next, inductionHypothesis later⟩

/-- What can go on from a configuration can go on from every one before. -/
theorem Continues.of_reaches {steps : Nat}
    (reaches : Reaches callees block first last)
    (continues : Continues callees block steps last) :
    Continues callees block steps first := by
  induction reaches with
  | refl _ => exact continues
  | step next _ inductionHypothesis =>
      exact Continues.of_succ ⟨_, next, inductionHypothesis continues⟩

/-- An execution that ends is not continued forever. -/
theorem exists_not_continues (reaches : Reaches callees block first last)
    (ends : last.next? callees block = none) :
    ∃ steps, ¬ Continues callees block steps first := by
  induction reaches with
  | refl configuration =>
      refine ⟨1, ?_⟩
      intro continues
      obtain ⟨second, next, _⟩ := continues
      rw [ends] at next
      cases next
  | step next _ inductionHypothesis =>
      obtain ⟨steps, stops⟩ := inductionHypothesis ends
      refine ⟨steps + 1, ?_⟩
      intro continues
      obtain ⟨second, sameNext, later⟩ := continues
      rw [next] at sameNext
      obtain rfl := Option.some.inj sameNext
      exact stops later

/-- An execution has only one end. -/
theorem Reaches.eq_of_ends (reaches : Reaches callees block first last)
    (reachesOther : Reaches callees block first other)
    (ends : last.next? callees block = none)
    (endsOther : other.next? callees block = none) : last = other := by
  induction reaches with
  | refl configuration =>
      cases reachesOther with
      | refl _ => rfl
      | step next _ =>
          rw [ends] at next
          cases next
  | step next _ inductionHypothesis =>
      cases reachesOther with
      | refl _ =>
          rw [endsOther] at next
          cases next
      | step nextOther later =>
          rw [next] at nextOther
          obtain rfl := Option.some.inj nextOther
          exact inductionHypothesis later ends

theorem Ends.next?_eq_none {ending : Ending}
    (ends : last.Ends block ending) : last.next? callees block = none := by
  cases ending with
  | completed =>
      have outside : block[last.position]? = none := by
        rw [ends.1]
        exact List.getElem?_eq_none (Nat.le_refl _)
      simp [next?, outside]
  | returned result =>
      simp [next?, ends.1, Command.effect?]

end Configuration

/-! ## Code inside of a block -/

theorem idxOf?_append_of_not_mem {front back : List Command}
    {command : Command} (absent : command ∉ front) :
    (front ++ command :: back).idxOf? command = some front.length := by
  induction front with
  | nil => simp [List.idxOf?_cons]
  | cons first others inductionHypothesis =>
      rw [List.mem_cons, not_or] at absent
      rw [List.cons_append, List.idxOf?_cons,
        inductionHypothesis absent.2]
      simp [Ne.symm absent.1]

/-- A block holds some code from a position on. -/
def Located (block : List Command) (position : Nat)
    (code : List Command) : Prop :=
  ∃ front back, block = front ++ code ++ back ∧ front.length = position

namespace Located

variable {block first second commands : List Command} {position : Nat}

theorem left (located : Located block position (first ++ second)) :
    Located block position first := by
  obtain ⟨front, back, rfl, same⟩ := located
  exact ⟨front, second ++ back, by simp, same⟩

theorem right (located : Located block position (first ++ second)) :
    Located block (position + first.length) second := by
  obtain ⟨front, back, rfl, rfl⟩ := located
  exact ⟨front ++ first, back, by simp, by simp⟩

theorem head {command : Command}
    (located : Located block position (command :: commands)) :
    block[position]? = some command := by
  obtain ⟨front, back, rfl, rfl⟩ := located
  simp

theorem tail {command : Command}
    (located : Located block position (command :: commands)) :
    Located block (position + 1) commands := by
  obtain ⟨front, back, rfl, rfl⟩ := located
  exact ⟨front ++ [command], back, by simp, by simp⟩

theorem whole (block : List Command) : Located block 0 block :=
  ⟨[], [], by simp, rfl⟩

/-- A label is found at its place. -/
theorem idxOf?_label {label : String}
    (distinct : (Command.labelsOf block).Nodup)
    (located : Located block position (.label label :: commands)) :
    block.idxOf? (.label label) = some position := by
  obtain ⟨front, back, rfl, rfl⟩ := located
  have absent : .label label ∉ front := by
    intro earlier
    simp only [List.append_assoc, Command.labelsOf_append] at distinct
    have apart := (List.nodup_append.mp distinct).2.2 label
      (List.mem_filterMap.mpr ⟨_, earlier, rfl⟩) label
    refine apart ?_ rfl
    simp [Command.label?]
  rw [List.append_assoc, List.cons_append]
  exact idxOf?_append_of_not_mem absent

/-! ## Execution of located code -/

variable {callees : Callees}

open JackToVm.Configuration (Reaches)

/-- Commands that act on the machine alone are executed one after the
other. -/
theorem reaches_runAll? :
    ∀ {commands : List Command} {position : Nat} {machine behind : Machine},
      Located block position commands →
      machine.runAll? callees commands = some behind →
      Reaches callees block ⟨position, machine⟩
        ⟨position + commands.length, behind⟩
  | [], position, machine, behind, _, run => by
      obtain rfl := Option.some.inj run
      exact .refl _
  | command :: commands, position, machine, behind, located, run => by
      obtain ⟨between, acts, later⟩ := Option.bind_eq_some_iff.mp run
      have next :
          Configuration.next? callees block ⟨position, machine⟩ =
            some ⟨position + 1, between⟩ := by
        cases command <;>
          simp_all [Configuration.next?, located.head, Command.effect?]
      have reaches := reaches_runAll? located.tail later
      rw [List.length_cons, Nat.add_comm commands.length 1,
        ← Nat.add_assoc]
      exact .step next reaches

end Located

end JackToVm
