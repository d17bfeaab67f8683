/-!
# Character sets

A set of characters given by closed ranges of code points, in ascending order.
The search for a character stops at the first range that does not end before
it; because the ranges ascend, no later one can hold the character
(`mem_iff_exists_range`).
-/

namespace JackToVm.Text

/-- Whether every range ends before the next one starts. -/
def rangesAscend : List (Nat × Nat) → Bool
  | first :: second :: rest =>
      decide (first.2 < second.1) && decide (second.1 ≤ second.2) && rangesAscend (second :: rest)
  | _ => true

/-- A set of characters, as closed ranges of code points. -/
structure CharSet where
  ranges : List (Nat × Nat)
  ascending : rangesAscend ranges = true := by decide

namespace CharSet

/-- Looks a code point up in ranges that ascend. -/
def holds : List (Nat × Nat) → Nat → Bool
  | [], _ => false
  | range :: rest, code =>
      if code ≤ range.2 then decide (range.1 ≤ code) else holds rest code

def contains (set : CharSet) (c : Char) : Bool :=
  holds set.ranges c.toNat

instance : Membership Char CharSet where
  mem set c := set.contains c = true

instance (c : Char) (set : CharSet) : Decidable (c ∈ set) :=
  inferInstanceAs (Decidable (set.contains c = true))

theorem lt_of_mem_tail {range : Nat × Nat} {rest : List (Nat × Nat)}
    (ascending : rangesAscend (range :: rest) = true) :
    ∀ later ∈ rest, range.2 < later.1 := by
  induction rest generalizing range with
  | nil => simp
  | cons second rest ih =>
      simp only [rangesAscend, Bool.and_eq_true, decide_eq_true_eq] at ascending
      obtain ⟨⟨before, proper⟩, ascending⟩ := ascending
      intro later member
      rcases List.mem_cons.1 member with rfl | member
      · exact before
      · have := ih ascending later member
        omega

theorem rangesAscend_tail {range : Nat × Nat} {rest : List (Nat × Nat)}
    (ascending : rangesAscend (range :: rest) = true) :
    rangesAscend rest = true := by
  cases rest with
  | nil => rfl
  | cons second rest =>
      simp only [rangesAscend, Bool.and_eq_true] at ascending
      exact ascending.2

theorem holds_eq_true_iff {ranges : List (Nat × Nat)} {code : Nat}
    (ascending : rangesAscend ranges = true) :
    holds ranges code = true ↔ ∃ range ∈ ranges, range.1 ≤ code ∧ code ≤ range.2 := by
  induction ranges with
  | nil => simp [holds]
  | cons range rest ih =>
      by_cases within : code ≤ range.2
      · have beyond : ∀ later ∈ rest, ¬ later.1 ≤ code := by
          intro later member
          have := lt_of_mem_tail ascending later member
          omega
        constructor
        · intro found
          simp only [holds, within, if_true, decide_eq_true_eq] at found
          exact ⟨range, List.mem_cons_self, found, within⟩
        · rintro ⟨place, member, lower, _⟩
          rcases List.mem_cons.1 member with rfl | member
          · simp [holds, within, lower]
          · exact absurd lower (beyond place member)
      · simp [holds, within, ih (rangesAscend_tail ascending)]

/-- A character is in the set exactly when one of the ranges holds it. -/
theorem mem_iff_exists_range {c : Char} {set : CharSet} :
    c ∈ set ↔ ∃ range ∈ set.ranges, range.1 ≤ c.toNat ∧ c.toNat ≤ range.2 :=
  holds_eq_true_iff set.ascending

end CharSet

end JackToVm.Text
