import JackToVm.Disk.Place
import JackToVm.Text.Lines
import Mathlib.Data.List.TakeWhile

/-!
# Edits of paths

What the edits of a path do to its components: each of them is made of the
components above the last one and a new file name, or of all of them and a new
one behind them.
-/

namespace JackToVm.Path

/-! ## Stems and extensions -/

section Names

variable {name stem extension : String}

/-- A stem, a dot and an extension without a dot are cut apart again. -/
theorem splitName_nameOfParts (hasStem : stem ≠ "")
    (hasExtension : extension ≠ "") (plain : '.' ∉ extension.toList) :
    splitName (nameOfParts stem extension) = (stem, some extension) := by
  have letters : (nameOfParts stem extension).toList.reverse =
      extension.toList.reverse ++ '.' :: stem.toList.reverse := by
    simp [nameOfParts, hasExtension]
  have cut := Text.takeWhile_stop
    (fun member => plain (List.mem_reverse.mp member)) stem.toList.reverse
  cases reversed : stem.toList.reverse with
  | nil => simp [hasStem] at reversed
  | cons c others =>
      have whole : (c :: others).reverse = stem.toList := by
        rw [← reversed, List.reverse_reverse]
      rw [reversed] at cut letters
      simp only [splitName, letters, cut.1, cut.2, whole]
      simp

/-- A name without a dot behind its first character has no extension. -/
theorem splitName_of_not_mem (plain : '.' ∉ name.toList.tail) :
    splitName name = (name, none) := by
  cases letters : name.toList with
  | nil => simp [splitName, letters]
  | cons c others =>
      rw [letters, List.tail_cons] at plain
      have passes : ∀ d ∈ others.reverse, (d != '.') = true := by
        intro d member
        rw [bne_iff_ne]
        intro same
        exact plain (same ▸ List.mem_reverse.mp member)
      have short :
          (others.reverse ++ [c]).dropWhile (· != '.') =
            [c].dropWhile (· != '.') :=
        List.dropWhile_append_of_pos passes
      by_cases dot : c = '.'
      · simp_all [splitName]
      · simp_all [splitName]

/-- The stem of a name is its beginning. -/
theorem stem_isPrefix (name : String) :
    (splitName name).1.toList <+: name.toList := by
  cases reversed : name.toList.reverse.dropWhile (· != '.') with
  | nil => simp [splitName, reversed]
  | cons dot rest =>
      cases rest with
      | nil => simp [splitName, reversed]
      | cons c stem =>
          have dropped : (dot :: c :: stem) <:+ name.toList.reverse :=
            reversed ▸ List.dropWhile_suffix (· != '.')
          have behind := (List.suffix_cons dot (c :: stem)).trans dropped
          have front := List.reverse_prefix.mpr behind
          rw [List.reverse_reverse] at front
          simpa [splitName, reversed] using front

theorem stem_ne_empty (hasName : name ≠ "") : (splitName name).1 ≠ "" := by
  dsimp only [splitName]
  split
  · simp
  · exact hasName

theorem nameOfParts_injective (hasExtension : extension ≠ "") :
    Function.Injective (nameOfParts · extension) := by
  intro first second same
  simp only [nameOfParts, if_neg hasExtension] at same
  have letters := congrArg String.toList same
  simp only [String.toList_append, List.append_assoc] at letters
  exact String.toList_inj.mp (List.append_cancel_right letters)

end Names

/-! ## Pieces and components -/

section Pieces

variable {piece name : String}

theorem isEntryName_iff :
    IsEntryName piece ↔ isIdle piece = false ∧ piece ≠ ".." := by
  unfold IsEntryName componentOfPiece?
  by_cases idle : isIdle piece = true
  · simp [idle]
  · by_cases up : piece = ".."
    · simp [up]
    · simp [idle, up]

/-- A name that holds another character than dots is no dots. -/
theorem isEntryName_of_mem {c : Char} (member : c ∈ piece.toList)
    (other : c ≠ '.') : IsEntryName piece := by
  have different : ∀ dots ∈ ["", ".", ".."], piece ≠ dots := by
    rintro dots listed rfl
    simp at listed
    rcases listed with rfl | rfl | rfl <;> simp_all
  simp only [List.forall_mem_cons] at different
  simp [isEntryName_iff, isIdle, different]

theorem filterMap_idle {pieces : List String}
    (idle : ∀ piece ∈ pieces, isIdle piece = true) :
    pieces.filterMap componentOfPiece? = [] := by
  rw [List.filterMap_eq_nil_iff]
  intro piece member
  rw [componentOfPiece?, if_pos (idle piece member)]

/-- Pieces at the end that carry no meaning may be dropped. -/
theorem filterMap_reverse_dropWhile (pieces : List String) :
    ((pieces.dropWhile isIdle).reverse).filterMap componentOfPiece? =
      pieces.reverse.filterMap componentOfPiece? := by
  have parts := List.takeWhile_append_dropWhile (p := isIdle) (l := pieces)
  have idle : ((pieces.takeWhile isIdle).reverse).filterMap
      componentOfPiece? = [] := by
    apply filterMap_idle
    intro piece member
    exact List.mem_takeWhile_imp (List.mem_reverse.mp member)
  calc ((pieces.dropWhile isIdle).reverse).filterMap componentOfPiece?
      = ((pieces.dropWhile isIdle).reverse ++
          (pieces.takeWhile isIdle).reverse).filterMap componentOfPiece? := by
        rw [List.filterMap_append, idle, List.append_nil]
    _ = pieces.reverse.filterMap componentOfPiece? := by
        rw [← List.reverse_append, parts]

/-- The first component is found from the head alone, unless it is empty: then
it counts whether there is a slash. -/
theorem headComponent?_eq {head : String} {tail others : List String}
    (same : head ≠ "" ∨ tail ≠ [] ∧ others ≠ []) :
    headComponent? ⟨head, tail⟩ = headComponent? ⟨head, others⟩ := by
  by_cases absolute : head = ""
  · rcases same with relative | ⟨notEmpty, othersNotEmpty⟩
    · exact absurd absolute relative
    · simp [headComponent?, isAbsolute, absolute, notEmpty, othersNotEmpty]
  · simp [headComponent?, isAbsolute, absolute]

/-- Pieces behind a path that is not empty are components behind its own. -/
theorem components_append {head : String} {tail : List String}
    (notEmpty : head ≠ "" ∨ tail ≠ []) (more : List String) :
    components ⟨head, tail ++ more⟩ =
      components ⟨head, tail⟩ ++ more.filterMap componentOfPiece? := by
  have sameHead :
      headComponent? ⟨head, tail ++ more⟩ = headComponent? ⟨head, tail⟩ :=
    headComponent?_eq (notEmpty.imp_right fun inside =>
      ⟨List.append_ne_nil_of_left_ne_nil inside more, inside⟩)
  simp [components, sameHead]

end Pieces

/-! ## The last component -/

section Last

variable {path above : Path} {last name stem : String} {before : List String}

theorem components_of_reversedTail_nil (none : path.reversedTail = []) :
    path.components = path.headComponent?.toList := by
  have meaningful := filterMap_reverse_dropWhile path.tail.reverse
  rw [reversedTail] at none
  rw [none, List.reverse_reverse] at meaningful
  rw [components, ← meaningful]
  simp

/-- The last piece that carries a meaning is the last component. -/
theorem components_of_reversedTail_cons
    (found : path.reversedTail = last :: before) :
    path.tail ≠ [] ∧ isIdle last = false ∧
      path.components = path.headComponent?.toList ++
        before.reverse.filterMap componentOfPiece? ++
          (componentOfPiece? last).toList := by
  have meaningful := filterMap_reverse_dropWhile path.tail.reverse
  rw [reversedTail] at found
  rw [found, List.reverse_reverse] at meaningful
  refine ⟨?_, ?_, ?_⟩
  · intro empty
    rw [empty] at found
    cases found
  · have stops := List.head?_dropWhile_not isIdle path.tail.reverse
    rw [found] at stops
    simpa using stops
  · rw [components, ← meaningful, List.reverse_cons, List.filterMap_append]
    cases component : componentOfPiece? last <;> simp [component]

/-- The components above the last one are those of the pieces before it. -/
theorem dropLast_components (found : path.reversedTail = last :: before) :
    path.components.dropLast = path.headComponent?.toList ++
      before.reverse.filterMap componentOfPiece? := by
  obtain ⟨_, meaningful, whole⟩ := components_of_reversedTail_cons found
  rw [whole]
  by_cases up : last = ".."
  · subst last
    exact List.dropLast_concat
  · have entry := isEntryName_iff.mpr ⟨meaningful, up⟩
    rw [entry]
    exact List.dropLast_concat

/-- The file name is the last component. -/
theorem components_of_fileName? (found : path.fileName? = some name) :
    IsEntryName name ∧
      path.components = path.components.dropLast ++ [.name name] := by
  unfold fileName? at found
  split at found
  next last before reversed =>
    obtain ⟨_, meaningful, whole⟩ := components_of_reversedTail_cons reversed
    by_cases up : last = ".."
    · simp [up] at found
    · rw [if_neg up] at found
      obtain rfl := Option.some.inj found
      have entry : IsEntryName last := isEntryName_iff.mpr ⟨meaningful, up⟩
      rw [entry] at whole
      refine ⟨entry, ?_⟩
      rw [whole]
      simp
  next reversed =>
    have whole := components_of_reversedTail_nil reversed
    split at found
    · cases found
    · next named =>
      obtain rfl := Option.some.inj found
      simp only [Bool.or_eq_true, beq_iff_eq, not_or] at named
      have meaningful : isIdle path.head = false := by
        simpa using named.1
      have entry := isEntryName_iff.mpr ⟨meaningful, named.2⟩
      refine ⟨entry, ?_⟩
      rw [whole]
      simp [headComponent?, isAbsolute, isIdle] at meaningful ⊢
      simp [meaningful, named.2]

/-- A name that is the last component is the file name. -/
theorem fileName?_of_components {above : List Component}
    (whole : path.components = above ++ [.name name]) :
    path.fileName? = some name := by
  unfold fileName?
  cases reversed : path.reversedTail with
  | cons last before =>
      obtain ⟨_, meaningful, parts⟩ := components_of_reversedTail_cons reversed
      rw [parts] at whole
      by_cases up : last = ".."
      · subst last
        have parent :
            (componentOfPiece? "..").toList = [Component.parent] := rfl
        rw [parent] at whole
        have same := List.append_inj_right' whole rfl
        cases same
      · have entry := isEntryName_iff.mpr ⟨meaningful, up⟩
        rw [IsEntryName] at entry
        rw [entry] at whole
        have same := List.append_inj_right' whole rfl
        obtain rfl : last = name := by simpa using same
        exact if_neg up
  | nil =>
      rw [components_of_reversedTail_nil reversed] at whole
      have only : path.headComponent? = some (.name name) := by
        cases head : path.headComponent? with
        | none => simp [head] at whole
        | some component =>
            rw [head] at whole
            have same : [] ++ [component] = above ++ [.name name] := whole
            have last := List.append_inj_right' same rfl
            rw [(List.cons.inj last).1]
      unfold headComponent? at only
      split_ifs at only with absolute headless current up
      · cases only
      · cases only
      · cases only
      · obtain rfl := Component.name.inj (Option.some.inj only)
        simp [isIdle, headless, current, up]

/-- The path above is the path without its last component. -/
theorem components_parent? (found : path.parent? = some above) :
    above.components = path.components.dropLast := by
  unfold parent? at found
  split at found
  next last before reversed =>
    have notEmpty := (components_of_reversedTail_cons reversed).1
    have kept := filterMap_reverse_dropWhile before
    rw [dropLast_components reversed, ← kept]
    by_cases root : path.head = "" ∧ (before.dropWhile isIdle).reverse = []
    · rw [if_pos root] at found
      obtain rfl := Option.some.inj found
      have absolute : path.headComponent? = some .root := by
        simp [headComponent?, isAbsolute, root.1, notEmpty]
      rw [absolute, root.2]
      rfl
    · rw [if_neg root] at found
      obtain rfl := Option.some.inj found
      have sameHead : headComponent?
          ⟨path.head, (before.dropWhile isIdle).reverse⟩ =
            path.headComponent? := by
        apply headComponent?_eq
        by_cases relative : path.head ≠ ""
        · exact Or.inl relative
        · exact Or.inr
            ⟨fun empty => root ⟨not_not.mp relative, empty⟩, notEmpty⟩
      rw [components, sameHead]
  next reversed =>
    have whole := components_of_reversedTail_nil reversed
    split at found
    · cases found
    · obtain rfl := Option.some.inj found
      rw [whole]
      cases path.headComponent? <;> rfl

end Last

/-! ## Edits -/

section Edits

variable {path base : Path} {name stem extension : String}

theorem ofText_of_not_mem (noSlash : '/' ∉ name.toList) :
    ofText name = ⟨name, []⟩ := by
  have whole : name.toList.splitOn '/' = [name.toList] :=
    List.splitOnP_eq_singleton (by
      intro c member
      simp only [beq_eq_false_iff_ne]
      rintro rfl
      exact noSlash member)
  rw [ofText, whole]
  simp

theorem filterMap_entry (entry : IsEntryName name) :
    [name].filterMap componentOfPiece? = [.name name] := by
  rw [IsEntryName] at entry
  simp [entry]

theorem components_entry (entry : IsEntryName name) :
    components ⟨name, []⟩ = [.name name] := by
  obtain ⟨meaningful, notUp⟩ := isEntryName_iff.mp entry
  simp only [isIdle, Bool.or_eq_false_iff, beq_eq_false_iff_ne] at meaningful
  simp [components, headComponent?, isAbsolute, meaningful, notUp]

/-- A name that is put behind a path is one more component. -/
theorem components_join (noSlash : '/' ∉ name.toList)
    (entry : IsEntryName name) (base : Path) :
    (base.join (ofText name)).components =
      base.components ++ [.name name] := by
  have relative : isAbsolute ⟨name, []⟩ = false := by
    simp [isAbsolute]
  rw [ofText_of_not_mem noSlash]
  unfold join
  by_cases empty : base = Path.empty
  · subst base
    rw [if_pos (by simp), components_entry entry]
    rfl
  · obtain ⟨head, tail⟩ := base
    have notEmpty : head ≠ "" ∨ tail ≠ [] := by
      by_contra nothing
      simp only [not_or, not_not] at nothing
      exact empty (by simp [nothing, Path.empty])
    rw [if_neg (by simp [relative, empty])]
    split
    next slash =>
      obtain ⟨pieces, rfl⟩ := List.getLast?_eq_some_iff.mp slash
      have sameHead : headComponent? ⟨head, pieces ++ [name]⟩ =
          headComponent? ⟨head, pieces ++ [""]⟩ :=
        headComponent?_eq (Or.inr (by simp))
      have noSlashAtEnd :
          [""].filterMap componentOfPiece? = [] := rfl
      simp only [List.dropLast_concat]
      rw [components, sameHead, components, List.filterMap_append,
        List.filterMap_append, noSlashAtEnd, filterMap_entry entry,
        List.append_nil, List.append_assoc]
    next noEnd =>
      rw [components_append notEmpty, filterMap_entry entry]

theorem exists_parent_of_fileName? (found : path.fileName? = some name) :
    ∃ above, path.parent? = some above := by
  unfold fileName? at found
  unfold parent?
  split at found
  next last before reversed =>
    exact ⟨_, (apply_ite some _ _ _).symm⟩
  next reversed =>
    by_cases headless : path.head = ""
    · simp [headless, isIdle] at found
    · exact ⟨empty, if_neg headless⟩

/-- Another file name takes the place of the last component. -/
theorem components_withFileName (noSlash : '/' ∉ name.toList)
    (entry : IsEntryName name) {old : String}
    (named : path.fileName? = some old) :
    (path.withFileName name).components =
      path.components.dropLast ++ [.name name] := by
  obtain ⟨above, found⟩ := exists_parent_of_fileName? named
  rw [withFileName, named, found]
  simp only [Option.isSome_some, if_true, Option.getD_some]
  rw [components_join noSlash entry, components_parent? found]

/-- Another extension changes the last component only. -/
theorem components_withExtension (found : path.stem? = some stem)
    (entry : IsEntryName (nameOfParts stem extension)) :
    (path.withExtension extension).components =
      path.components.dropLast ++ [.name (nameOfParts stem extension)] := by
  obtain ⟨name, named, rfl⟩ := Option.map_eq_some_iff.mp found
  have old := (components_of_fileName? named).2
  unfold withExtension
  rw [found]
  cases reversed : path.reversedTail with
  | cons last before =>
      have notEmpty := (components_of_reversedTail_cons reversed).1
      have sameHead :
          headComponent? ⟨path.head,
              before.reverse ++ [nameOfParts (splitName name).1 extension]⟩ =
            path.headComponent? :=
        headComponent?_eq (Or.inr ⟨by simp, notEmpty⟩)
      rw [dropLast_components reversed, components]
      simp only
      rw [sameHead, List.filterMap_append, filterMap_entry entry,
        List.append_assoc]
  | nil =>
      have whole := components_of_reversedTail_nil reversed
      have above : path.components.dropLast = [] := by
        rw [whole]
        cases path.headComponent? <;> rfl
      rw [above]
      exact components_entry entry

end Edits

/-! ## The order of paths -/

theorem Component.eq_of_order {first second : Component}
    (same : first.order second = .eq) : first = second := by
  cases first <;> cases second <;>
    simp_all [Component.order, Component.rank]

/-- Paths that the order takes for the same have the same components. -/
theorem components_eq_of_order {first second : Path}
    (same : order first second = .eq) :
    first.components = second.components := by
  unfold order at same
  generalize first.components = firsts at same ⊢
  generalize second.components = seconds at same ⊢
  induction firsts generalizing seconds with
  | nil =>
      cases seconds with
      | nil => rfl
      | cons component components => cases same
  | cons component components inductionHypothesis =>
      cases seconds with
      | nil => cases same
      | cons other others =>
          rw [orderComponents, Ordering.then_eq_eq] at same
          rw [Component.eq_of_order same.1, inductionHypothesis others same.2]

end JackToVm.Path
