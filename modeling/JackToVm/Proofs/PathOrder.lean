import JackToVm.Build.Source
import JackToVm.Proofs.Paths
import Mathlib.Data.List.Destutter

/-!
# Lists in the order of their paths

The order of paths is total, and the paths that it takes for the same are those
with the same components. A list that is sorted by it and holds each path once
is determined by the paths in it, but for how they are written.
-/

namespace JackToVm

namespace Path

/-- The text of a component that is a name. -/
def Component.letters : Component → String
  | .name entry => entry
  | _ => ""

/-- Components are compared by their kinds and then by their names. -/
theorem Component.order_eq_compareLex :
    Component.order =
      compareLex (compareOn Component.rank) (compareOn Component.letters) := by
  funext first second
  cases first <;> cases second <;> rfl

instance : Std.TransCmp Component.order :=
  Component.order_eq_compareLex ▸ inferInstance

theorem orderComponents_eq_compareLex :
    orderComponents = List.compareLex Component.order := by
  funext first second
  induction first generalizing second with
  | nil => cases second <;> rfl
  | cons component components inductionHypothesis =>
      cases second with
      | nil => rfl
      | cons other others =>
          rw [orderComponents, inductionHypothesis, List.compareLex]
          cases component.order other <;> rfl

instance : Std.TransCmp order where
  eq_swap := by
    intro first second
    rw [order, order, orderComponents_eq_compareLex]
    exact Std.OrientedCmp.eq_swap
  isLE_trans := by
    intro first second third
    rw [order, order, order, orderComponents_eq_compareLex]
    exact Std.TransCmp.isLE_trans

theorem order_eq_iff {first second : Path} :
    order first second = .eq ↔ first.components = second.components := by
  refine ⟨components_eq_of_order, fun same => ?_⟩
  have reflexive : order first first = .eq := Std.ReflCmp.compare_self
  rw [order] at reflexive ⊢
  rw [← same]
  exact reflexive

end Path

namespace SourceFile

variable {α : Type} {path : α → Path} {items : List α} {item : α}

/-! ## Sorting -/

theorem pairwise_sortByPath (path : α → Path) (items : List α) :
    (sortByPath path items).Pairwise fun first second =>
      (Path.order (path first) (path second)).isLE := by
  apply List.pairwise_mergeSort
  · intro first second third
    exact Std.TransCmp.isLE_trans
  · intro first second
    have swapped : Path.order (path second) (path first) =
        (Path.order (path first) (path second)).swap :=
      Std.OrientedCmp.eq_swap
    rw [swapped]
    cases Path.order (path first) (path second) <;> rfl

/-- Adds an item to those that were kept before it, the last of them first, if
its path is not the last one again. -/
def keepNew (path : α → Path) (kept : List α) (item : α) : List α :=
  match kept with
  | last :: _ =>
      if Path.order (path last) (path item) = .eq then kept else item :: kept
  | [] => [item]

theorem foldl_keepNew (last : α) (before : List α) :
    (items.foldl (keepNew path) (last :: before)).reverse =
      before.reverse ++ items.destutter' (fun first second =>
        Path.order (path first) (path second) ≠ .eq) last := by
  induction items generalizing last before with
  | nil => simp
  | cons item items inductionHypothesis =>
      rw [List.foldl_cons, keepNew]
      by_cases same : Path.order (path last) (path item) = .eq
      · rw [if_pos same, inductionHypothesis,
          List.destutter'_cons_neg _ (not_not.mpr same)]
      · rw [if_neg same, inductionHypothesis, List.destutter'_cons_pos _ same,
          List.reverse_cons, List.append_assoc, List.singleton_append]

theorem dropRepeated_eq_destutter (path : α → Path) (items : List α) :
    dropRepeated path items = items.destutter fun first second =>
      Path.order (path first) (path second) ≠ .eq := by
  cases items with
  | nil => rfl
  | cons item items => exact foldl_keepNew item []

/-- Of items that are dropped another one with the same path stays. -/
theorem exists_mem_destutter' {last : α} (member : item ∈ last :: items) :
    ∃ kept ∈ items.destutter' (fun first second =>
        Path.order (path first) (path second) ≠ .eq) last,
      Path.order (path kept) (path item) = .eq := by
  induction items generalizing last item with
  | nil =>
      obtain rfl := List.mem_singleton.mp member
      exact ⟨item, by simp, Std.ReflCmp.compare_self⟩
  | cons next items inductionHypothesis =>
      by_cases same : Path.order (path last) (path next) = .eq
      · rw [List.destutter'_cons_neg _ (not_not.mpr same)]
        rcases List.mem_cons.mp member with rfl | behind
        · exact inductionHypothesis List.mem_cons_self
        · rcases List.mem_cons.mp behind with rfl | later
          · obtain ⟨kept, isKept, equal⟩ :=
              @inductionHypothesis last last List.mem_cons_self
            exact ⟨kept, isKept, Std.TransCmp.eq_trans equal same⟩
          · exact inductionHypothesis (List.mem_cons_of_mem _ later)
      · rw [List.destutter'_cons_pos _ same]
        rcases List.mem_cons.mp member with rfl | behind
        · exact ⟨item, List.mem_cons_self, Std.ReflCmp.compare_self⟩
        · obtain ⟨kept, isKept, equal⟩ := inductionHypothesis behind
          exact ⟨kept, List.mem_cons_of_mem _ isKept, equal⟩

theorem mem_of_mem_distinctByPath
    (member : item ∈ distinctByPath path items) : item ∈ items := by
  rw [distinctByPath, dropRepeated_eq_destutter] at member
  exact List.mem_mergeSort.mp ((List.destutter_sublist _ _).subset member)

theorem exists_mem_distinctByPath (path : α → Path) (member : item ∈ items) :
    ∃ kept ∈ distinctByPath path items,
      Path.order (path kept) (path item) = .eq := by
  have sorted : item ∈ sortByPath path items := List.mem_mergeSort.mpr member
  rw [distinctByPath, dropRepeated_eq_destutter]
  cases whole : sortByPath path items with
  | nil => simp [whole] at sorted
  | cons first others =>
      rw [whole] at sorted
      exact exists_mem_destutter' sorted

/-- Where a path is not repeated at once, it is not repeated in a sorted
list. -/
theorem pairwise_lt_of_sorted
    (sorted : items.Pairwise fun first second =>
      (Path.order (path first) (path second)).isLE)
    (different : items.IsChain fun first second =>
      Path.order (path first) (path second) ≠ .eq) :
    items.Pairwise fun first second =>
      Path.order (path first) (path second) = .lt := by
  induction items with
  | nil => exact .nil
  | cons first others inductionHypothesis =>
      rw [List.pairwise_cons] at sorted
      refine List.pairwise_cons.mpr
        ⟨?_, inductionHypothesis sorted.2 different.tail⟩
      cases others with
      | nil => simp
      | cons second others =>
          have less : Path.order (path first) (path second) = .lt :=
            (Ordering.isLE_iff_eq_lt_or_eq_eq.mp
              (sorted.1 second List.mem_cons_self)).resolve_right
                (List.isChain_cons_cons.mp different).1
          intro later member
          rcases List.mem_cons.mp member with rfl | behind
          · exact less
          · exact Std.TransCmp.lt_of_lt_of_isLE less
              ((List.pairwise_cons.mp sorted.2).1 later behind)

/-- Each path stands once in the list, before all greater ones. -/
theorem pairwise_distinctByPath (path : α → Path) (items : List α) :
    (distinctByPath path items).Pairwise fun first second =>
      Path.order (path first) (path second) = .lt := by
  rw [distinctByPath, dropRepeated_eq_destutter]
  exact pairwise_lt_of_sorted
    ((pairwise_sortByPath path items).sublist (List.destutter_sublist _ _))
    (List.isChain_destutter _ _)

/-- Items in the order of their paths, each path once, stay as they are. -/
theorem distinctByPath_eq
    (ordered : items.Pairwise fun first second =>
      Path.order (path first) (path second) = .lt) :
    distinctByPath path items = items := by
  have sorted : sortByPath path items = items := by
    apply List.mergeSort_of_pairwise
    apply ordered.imp
    intro first second less
    rw [less]
    rfl
  have different : items.IsChain fun first second =>
      Path.order (path first) (path second) ≠ .eq := by
    apply (ordered.imp _).isChain
    intro first second less
    rw [less]
    decide
  rw [distinctByPath, sorted, dropRepeated_eq_destutter,
    List.destutter_of_isChain _ _ different]

/-! ## The same paths -/

/-- An item that is greater than the first one of a list does not have the path
of its partner, which is the first one of another list. -/
theorem mem_tail_of_lt {first other later matching : α} {others : List α}
    (less : Path.order (path first) (path later) = .lt)
    (same : Path.order (path first) (path other) = .eq)
    (equal : Path.order (path later) (path matching) = .eq)
    (member : matching ∈ other :: others) : matching ∈ others := by
  rcases List.mem_cons.mp member with rfl | behind
  · have repeated : Path.order (path first) (path later) = .eq :=
      Std.TransCmp.eq_trans same (Std.OrientedCmp.eq_symm equal)
    rw [less] at repeated
    cases repeated
  · exact behind

/-- Two lists in the order of their paths have the same paths one by one if
every path of each list is one of the other, too. So what items with equal paths
have to do with each other holds one by one. -/
theorem forall₂_of_ordered {items others : List α} {Related : α → α → Prop}
    (ordered : items.Pairwise fun first second =>
      Path.order (path first) (path second) = .lt)
    (othersOrdered : others.Pairwise fun first second =>
      Path.order (path first) (path second) = .lt)
    (forth : ∀ item ∈ items, ∃ other ∈ others,
      Path.order (path item) (path other) = .eq)
    (back : ∀ other ∈ others, ∃ item ∈ items,
      Path.order (path item) (path other) = .eq)
    (related : ∀ item ∈ items, ∀ other ∈ others,
      Path.order (path item) (path other) = .eq → Related item other) :
    List.Forall₂ Related items others := by
  induction items generalizing others with
  | nil =>
      cases others with
      | nil => exact .nil
      | cons other others =>
          obtain ⟨item, member, _⟩ := back other List.mem_cons_self
          cases member
  | cons item items inductionHypothesis =>
      cases others with
      | nil =>
          obtain ⟨other, member, _⟩ := forth item List.mem_cons_self
          cases member
      | cons other others =>
          rw [List.pairwise_cons] at ordered othersOrdered
          -- If one of the heads had its partner behind the other one, it
          -- would be greater, and then the other one would have none.
          have same : Path.order (path item) (path other) = .eq := by
            obtain ⟨match₁, member₁, equal₁⟩ := forth item List.mem_cons_self
            obtain ⟨match₂, member₂, equal₂⟩ := back other List.mem_cons_self
            rcases List.mem_cons.mp member₁ with rfl | behind₁
            · exact equal₁
            · rcases List.mem_cons.mp member₂ with rfl | behind₂
              · exact equal₂
              · have up := Std.TransCmp.lt_of_lt_of_eq
                  (ordered.1 match₂ behind₂) equal₂
                have down := Std.TransCmp.lt_of_lt_of_eq
                  (othersOrdered.1 match₁ behind₁)
                  (Std.OrientedCmp.eq_symm equal₁)
                exact absurd down (Std.OrientedCmp.not_lt_of_lt up)
          refine .cons
            (related item List.mem_cons_self other List.mem_cons_self same)
            (inductionHypothesis ordered.2 othersOrdered.2 ?_ ?_
              fun item inItems other inOthers =>
                related item (List.mem_cons_of_mem _ inItems) other
                  (List.mem_cons_of_mem _ inOthers))
          · intro later behind
            obtain ⟨matching, member, equal⟩ :=
              forth later (List.mem_cons_of_mem _ behind)
            exact ⟨matching, mem_tail_of_lt (ordered.1 later behind) same
              equal member, equal⟩
          · intro later behind
            obtain ⟨matching, member, equal⟩ :=
              back later (List.mem_cons_of_mem _ behind)
            exact ⟨matching, mem_tail_of_lt (othersOrdered.1 later behind)
              (Std.OrientedCmp.eq_symm same)
              (Std.OrientedCmp.eq_symm equal) member, equal⟩

end SourceFile

end JackToVm
