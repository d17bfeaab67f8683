/-!
# Bounded counters

A counter hands out consecutive numbers starting at its value. It stands in a
16 bit cell: the number `65535` is never handed out, because the cell could
not hold the successor.
-/

namespace JackToVm

/-- A counter that hands out numbers in ascending order. -/
structure Counter where
  value : Nat
deriving DecidableEq, Repr, Inhabited

namespace Counter

/-- The largest value of a counter, at which it is exhausted. -/
def limit : Nat := 65535

def zero : Counter := ⟨0⟩

/-- Takes the next number; an exhausted counter has none. -/
def take? (counter : Counter) : Option (Nat × Counter) :=
  if counter.value < limit then
    some (counter.value, ⟨counter.value + 1⟩)
  else
    none

theorem take?_eq_some_iff {counter behind : Counter} {number : Nat} :
    counter.take? = some (number, behind) ↔
      counter.value < limit ∧ number = counter.value ∧
        behind = ⟨counter.value + 1⟩ := by
  unfold take?
  by_cases below : counter.value < limit
  · simp [below, eq_comm]
  · simp [below]

theorem take?_eq_none_iff {counter : Counter} :
    counter.take? = none ↔ limit ≤ counter.value := by
  unfold take?
  by_cases below : counter.value < limit
  · simp [below]
  · simp [below, Nat.le_of_not_lt below]

/-- How many numbers a counter can still hand out. -/
def left (counter : Counter) : Nat := limit - counter.value

/-- What is reported when a number is asked of an exhausted counter. -/
def exhaustedMessage : String := "u16 overflow while incrementing"

end Counter

end JackToVm
