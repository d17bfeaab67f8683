import JackToVm.Build.Selection
import JackToVm.Proofs.Places

/-!
# Reading by components

Where a path leads is told by its components, unless it is too long or asks for
a directory by its end. The name of an entry behind the path of a directory
leads to that entry.
-/

namespace JackToVm

namespace Path

/-! ## Texts -/

section Texts

variable {path : Path} {c : Char}

theorem toList_text (path : Path) :
    path.text.toList =
      ['/'].intercalate ((path.head :: path.tail).map String.toList) := by
  rw [text, String.toList_intercalate]
  rfl

theorem text_ofText (text : String) : (ofText text).text = text := by
  have joined : ['/'].intercalate (text.toList.splitOn '/') = text.toList :=
    List.intercalate_splitOn '/'
  apply String.toList_inj.mp
  rw [toList_text, ← joined, ofText]
  cases text.toList.splitOn '/' with
  | nil => rfl
  | cons first others =>
      simp [Function.comp_def]

/-- The pieces of a path are found again in its text. -/
theorem ofText_text (isCut : path.IsCut) : ofText path.text = path := by
  have cut : path.text.toList.splitOn '/' =
      (path.head :: path.tail).map String.toList := by
    rw [toList_text]
    apply List.splitOn_intercalate
    · intro letters member
      obtain ⟨piece, within, rfl⟩ := List.mem_map.mp member
      exact isCut piece within
    · simp
  rw [ofText, cut]
  simp [Function.comp_def]

theorem text_cons (head piece : String) (pieces : List String) :
    text ⟨head, piece :: pieces⟩ = head ++ "/" ++ text ⟨piece, pieces⟩ :=
  String.intercalate_cons_cons

theorem text_concat (head last : String) (pieces : List String) :
    text ⟨head, pieces ++ [last]⟩ = text ⟨head, pieces⟩ ++ "/" ++ last := by
  induction pieces generalizing head with
  | nil => simp [text]
  | cons piece pieces inductionHypothesis =>
      rw [List.cons_append, text_cons, inductionHypothesis, text_cons]
      simp only [String.append_assoc]

theorem mem_text_iff (noSlash : c ≠ '/') {head : String}
    {tail : List String} :
    c ∈ (text ⟨head, tail⟩).toList ↔
      ∃ piece ∈ head :: tail, c ∈ piece.toList := by
  induction tail generalizing head with
  | nil => simp [text]
  | cons piece pieces inductionHypothesis =>
      rw [text_cons, List.exists_mem_cons_iff, ← inductionHypothesis]
      simp [noSlash]

/-- Whether the last piece behind a slash, if there is one, carries a
meaning. -/
def HasPlainEnd (path : Path) : Prop :=
  ∀ last ∈ path.tail.getLast?, isIdle last = false

theorem hasPlainEnd_of_endsPlainly (endsPlainly : EndsPlainly path.text) :
    path.HasPlainEnd := by
  intro last isLast
  obtain ⟨head, tail⟩ := path
  obtain ⟨pieces, rfl⟩ := List.getLast?_eq_some_iff.mp isLast
  rw [EndsPlainly, text_concat] at endsPlainly
  by_contra idle
  rw [Bool.not_eq_false, isIdle, Bool.or_eq_true, beq_iff_eq,
    beq_iff_eq] at idle
  rcases idle with rfl | rfl
  · exact endsPlainly.1 ⟨(text ⟨head, pieces⟩).toList, by simp⟩
  · exact endsPlainly.2 ⟨(text ⟨head, pieces⟩).toList, by simp⟩

end Texts

/-! ## Components -/

section Components

variable {path : Path} {name : String}

/-- The piece that asks for a component; none is needed for the root and for
the current directory. -/
def Component.piece? : Component → Option String
  | .parent => some ".."
  | .name entry => some entry
  | _ => none

theorem piece?_componentOfPiece? (piece : String) :
    (componentOfPiece? piece).bind Component.piece? =
      if isIdle piece then none else some piece := by
  unfold componentOfPiece?
  split_ifs with idle up
  · rfl
  · rw [up]
    rfl
  · rfl

/-- The components of pieces ask for the pieces that carry a meaning. -/
theorem filterMap_piece? (pieces : List String) :
    (pieces.filterMap componentOfPiece?).filterMap Component.piece? =
      pieces.filter (!isIdle ·) := by
  rw [List.filterMap_filterMap, ← List.filterMap_eq_filter]
  congr
  funext piece
  rw [piece?_componentOfPiece?]
  cases idle : isIdle piece <;> simp [Option.guard, idle]

theorem componentOfPiece?_eq_name_iff {piece : String} :
    componentOfPiece? piece = some (.name name) ↔
      piece = name ∧ IsEntryName name := by
  constructor
  · intro found
    have same : piece = name := by
      unfold componentOfPiece? at found
      split_ifs at found
      · cases found
      · exact Component.name.inj (Option.some.inj found)
    exact ⟨same, same ▸ found⟩
  · rintro ⟨rfl, entry⟩
    exact entry

theorem headComponent?_eq_name_iff :
    path.headComponent? = some (.name name) ↔
      path.head = name ∧ IsEntryName name := by
  constructor
  · intro found
    unfold headComponent? at found
    split_ifs at found with absolute headless current up
    · cases found
    · cases found
    · cases found
    · obtain rfl := Component.name.inj (Option.some.inj found)
      exact ⟨rfl, isEntryName_iff.mpr ⟨by simp [isIdle, headless, current], up⟩⟩
  · rintro ⟨rfl, entry⟩
    obtain ⟨meaningful, notUp⟩ := isEntryName_iff.mp entry
    simp only [isIdle, Bool.or_eq_false_iff, beq_eq_false_iff_ne] at meaningful
    simp [headComponent?, isAbsolute, meaningful, notUp]

/-- The names among the components are pieces. -/
theorem name_mem_components_iff :
    .name name ∈ path.components ↔
      name ∈ path.head :: path.tail ∧ IsEntryName name := by
  simp only [components, List.mem_append, Option.mem_toList,
    headComponent?_eq_name_iff, List.mem_filterMap,
    componentOfPiece?_eq_name_iff, List.mem_cons]
  constructor
  · rintro (⟨rfl, entry⟩ | ⟨_, member, rfl, entry⟩)
    · exact ⟨Or.inl rfl, entry⟩
    · exact ⟨Or.inr member, entry⟩
  · rintro ⟨rfl | member, entry⟩
    · exact Or.inl ⟨rfl, entry⟩
    · exact Or.inr ⟨name, member, rfl, entry⟩

/-- Other characters than slashes and dots stand in names only. -/
theorem mem_text_iff_components {c : Char} (noSlash : c ≠ '/')
    (noDot : c ≠ '.') :
    c ∈ path.text.toList ↔
      ∃ name, .name name ∈ path.components ∧ c ∈ name.toList := by
  rw [show path = ⟨path.head, path.tail⟩ from rfl, mem_text_iff noSlash]
  constructor
  · rintro ⟨piece, within, member⟩
    exact ⟨piece, name_mem_components_iff.mpr
      ⟨within, isEntryName_of_mem member noDot⟩, member⟩
  · rintro ⟨name, within, member⟩
    exact ⟨name, (name_mem_components_iff.mp within).1, member⟩

/-- A path that begins with a piece has a first component, which is not the
root and asks for this piece. -/
theorem exists_headComponent (relative : path.head ≠ "") :
    ∃ component, path.headComponent? = some component ∧ component ≠ .root ∧
      [component].filterMap Component.piece? =
        [path.head].filter (!isIdle ·) := by
  have notAbsolute : path.isAbsolute = false := by
    simp [isAbsolute, relative]
  by_cases current : path.head = "."
  · refine ⟨.current, by simp [headComponent?, notAbsolute, current],
      by simp, ?_⟩
    rw [current]
    rfl
  · by_cases up : path.head = ".."
    · refine ⟨.parent, by simp [headComponent?, notAbsolute, up],
        by simp, ?_⟩
      rw [up]
      rfl
    · refine ⟨.name path.head, ?_, by simp, ?_⟩
      · simp [headComponent?, notAbsolute, relative, current, up]
      · simp [Component.piece?, isIdle, relative, current]

/-- What the components of a path tell: whether it is empty, whether it begins
at the root, and the pieces to follow. -/
theorem components_cases (path : Path) :
    path = empty ∧ path.components = [] ∨
    path ≠ empty ∧ path.isAbsolute = true ∧
      path.components.head? = some .root ∧
      path.components.filterMap Component.piece? =
        path.tail.filter (!isIdle ·) ∨
    path ≠ empty ∧ path.isAbsolute = false ∧
      path.components.head? ≠ some .root ∧ path.components ≠ [] ∧
      path.components.filterMap Component.piece? =
        (path.head :: path.tail).filter (!isIdle ·) := by
  by_cases relative : path.head ≠ ""
  · obtain ⟨component, first, noRoot, asks⟩ := exists_headComponent relative
    have whole : path.components =
        component :: path.tail.filterMap componentOfPiece? := by
      rw [components, first]
      rfl
    refine Or.inr (Or.inr ⟨?_, by simp [isAbsolute, relative], ?_, ?_, ?_⟩)
    · rintro rfl
      exact relative rfl
    · simpa [whole] using noRoot
    · simp [whole]
    · rw [whole, ← List.singleton_append, List.filterMap_append, asks,
        filterMap_piece?, ← List.filter_append, List.singleton_append]
  · obtain ⟨head, tail⟩ := path
    obtain rfl : head = "" := not_not.mp relative
    cases tail with
    | nil => exact Or.inl ⟨rfl, rfl⟩
    | cons piece pieces =>
        have whole : components ⟨"", piece :: pieces⟩ =
            .root :: (piece :: pieces).filterMap componentOfPiece? := rfl
        refine Or.inr (Or.inl ⟨by simp [empty], rfl, by rw [whole]; rfl, ?_⟩)
        rw [whole, List.filterMap_cons_none rfl, filterMap_piece?]

/-- Equal paths have the same file name. -/
theorem fileName?_congr {first second : Path}
    (same : first.components = second.components) :
    first.fileName? = second.fileName? := by
  cases named : first.fileName? with
  | some name =>
      have whole := (components_of_fileName? named).2
      rw [same] at whole
      exact (fileName?_of_components whole).symm
  | none =>
      cases other : second.fileName? with
      | none => rfl
      | some name =>
          have whole := (components_of_fileName? other).2
          rw [← same] at whole
          rw [fileName?_of_components whole] at named
          cases named

theorem extension?_congr {first second : Path}
    (same : first.components = second.components) :
    first.extension? = second.extension? := by
  rw [extension?, extension?, fileName?_congr same]

theorem stem?_congr {first second : Path}
    (same : first.components = second.components) :
    first.stem? = second.stem? := by
  rw [stem?, stem?, fileName?_congr same]

theorem extension?_join (noSlash : '/' ∉ name.toList)
    (entry : IsEntryName name) (base : Path) :
    (base.join (ofText name)).extension? = (splitName name).2 := by
  rw [extension?, fileName?_of_components (components_join noSlash entry base)]
  rfl

theorem hasPlainEnd_join (noSlash : '/' ∉ name.toList)
    (entry : IsEntryName name) (base : Path) :
    (base.join (ofText name)).HasPlainEnd := by
  have meaningful := (isEntryName_iff.mp entry).1
  rw [ofText_of_not_mem noSlash]
  unfold join HasPlainEnd
  split_ifs
  · simp
  · simp [meaningful]
  · simp [meaningful]

end Components

end Path

namespace Disk

open JackToVm.Path (isIdle)
open JackToVm.Path.Component (piece?)

variable {disk : Disk} {start : Location} {pieces : List String}
variable {path first second : Path}

/-! ## Following components -/

/-- Pieces without meaning need not be followed, unless one of them stands at
the end and asks for a directory there. -/
theorem follow_filter
    (atEnd : ∀ last ∈ pieces.getLast?, isIdle last = true →
      ∀ piece ∈ pieces, isIdle piece = true) :
    disk.follow start pieces =
      disk.follow start (pieces.filter (!isIdle ·)) := by
  induction pieces generalizing start with
  | nil => rfl
  | cons piece pieces inductionHypothesis =>
      have behind : ∀ last ∈ pieces.getLast?, isIdle last = true →
          ∀ piece ∈ pieces, isIdle piece = true := by
        intro last isLast idle other member
        refine atEnd last ?_ idle other (List.mem_cons_of_mem _ member)
        rw [List.getLast?_cons, isLast]
        rfl
      by_cases idle : isIdle piece = true
      · rw [follow, if_pos idle, inductionHypothesis behind,
          List.filter_cons_of_neg (by simp [idle])]
      · -- A file stops the walk unless its name is the last piece, so the
        -- pieces behind it must not vanish.
        have kept : pieces.filter (!isIdle ·) = [] → pieces = [] := by
          intro none
          by_contra some
          have isLast := List.getLast?_eq_some_getLast some
          have idleLast : isIdle (pieces.getLast some) = true := by
            simpa using List.filter_eq_nil_iff.mp none _
              (List.getLast_mem some)
          refine idle (atEnd (pieces.getLast some) ?_ idleLast piece
            List.mem_cons_self)
          rw [List.getLast?_cons, isLast]
          rfl
        have atEndOf : pieces = [] ↔ pieces.filter (!isIdle ·) = [] :=
          ⟨fun none => by rw [none]; rfl, kept⟩
        rw [List.filter_cons_of_pos (by simp [idle]), follow, follow]
        simp only [inductionHypothesis behind, atEndOf]

/-- Where components lead. -/
def followComponents (disk : Disk) (components : List Path.Component) :
    Except DiskError Location :=
  if components = [] then
    .error .notFound
  else if components.head? = some .root then
    disk.follow [] (components.filterMap piece?)
  else
    disk.follow disk.workingDirectory (components.filterMap piece?)

/-- The components of a path ask for the pieces to follow from where the path
begins, and more components for more pieces. -/
theorem followComponents_of_origin
    (begins : disk.origin path = .ok (start, pieces))
    (more : List Path.Component) :
    disk.followComponents (path.components ++ more) = disk.follow start
      (pieces.filter (!isIdle ·) ++ more.filterMap piece?) := by
  unfold origin at begins
  split_ifs at begins with nul isEmpty long absolute
  · obtain ⟨rfl, rfl⟩ := Prod.mk.inj (Except.ok.inj begins)
    rcases path.components_cases with ⟨none, _⟩ | ⟨_, _, root, asks⟩ |
      ⟨_, relative, _⟩
    · exact absurd none isEmpty
    · obtain ⟨others, whole⟩ := List.head?_eq_some_iff.mp root
      rw [followComponents, whole, if_neg (by simp), if_pos (by simp), ← whole,
        List.filterMap_append, asks]
    · rw [absolute] at relative
      cases relative
  · obtain ⟨rfl, rfl⟩ := Prod.mk.inj (Except.ok.inj begins)
    rcases path.components_cases with ⟨none, _⟩ | ⟨_, root, _⟩ |
      ⟨_, _, noRoot, some, asks⟩
    · exact absurd none isEmpty
    · exact absurd root absolute
    · rw [followComponents, if_neg (by simp [some]), List.filterMap_append,
        asks, List.head?_append_of_ne_nil _ some, if_neg noRoot]

theorem exists_origin (noNul : '\x00' ∉ path.text.toList)
    (notEmpty : path ≠ Path.empty) (isShort : path.IsShort)
    (atEnd : path.HasPlainEnd) :
    ∃ start pieces, disk.origin path = .ok (start, pieces) ∧
      ∀ last ∈ pieces.getLast?, isIdle last = true →
        ∀ piece ∈ pieces, isIdle piece = true := by
  unfold origin
  rw [if_neg noNul, if_neg notEmpty, if_neg (Nat.not_lt.mpr isShort)]
  by_cases absolute : path.isAbsolute = true
  · refine ⟨_, _, if_pos absolute, fun last isLast idle => ?_⟩
    rw [atEnd last isLast] at idle
    cases idle
  · refine ⟨_, _, if_neg absolute, fun last isLast idle => ?_⟩
    cases tail : path.tail with
    | nil =>
        rw [tail] at isLast
        obtain rfl : path.head = last := by simpa using isLast
        simpa using idle
    | cons piece pieces =>
        rw [tail, List.getLast?_cons_cons, ← tail] at isLast
        rw [atEnd last isLast] at idle
        cases idle

/-- A short path that does not ask for a directory by its end leads where its
components lead. -/
theorem locate_eq_followComponents (noNul : '\x00' ∉ path.text.toList)
    (isShort : path.IsShort) (atEnd : path.HasPlainEnd) :
    disk.locate path = disk.followComponents path.components := by
  by_cases isEmpty : path = Path.empty
  · subst path
    rfl
  · obtain ⟨start, pieces, begins, onlyIdle⟩ :=
      exists_origin noNul isEmpty isShort atEnd
    have whole := followComponents_of_origin begins []
    rw [List.append_nil, List.filterMap_nil, List.append_nil] at whole
    rw [whole, locate, begins]
    exact follow_filter onlyIdle

theorem locate_of_nul (nul : '\x00' ∈ path.text.toList) :
    disk.locate path = .error .nulCharacter := by
  rw [locate, origin, if_pos nul]
  rfl

theorem locate_of_long (noNul : '\x00' ∉ path.text.toList)
    (long : ¬ path.IsShort) : disk.locate path = .error .longName := by
  have notEmpty : path ≠ Path.empty := by
    rintro rfl
    exact long (by decide)
  rw [locate, origin, if_neg noNul, if_neg notEmpty,
    if_pos (Nat.not_le.mp long)]
  rfl

/-- Equal paths lead to the same place, or nowhere for the same cause, if both
end plainly and both are short or both are not. -/
theorem locate_congr (same : first.components = second.components)
    (firstEnd : first.HasPlainEnd) (secondEnd : second.HasPlainEnd)
    (length : first.IsShort ↔ second.IsShort) :
    disk.locate first = disk.locate second := by
  have sameNul : '\x00' ∈ first.text.toList ↔ '\x00' ∈ second.text.toList := by
    rw [Path.mem_text_iff_components (by decide) (by decide),
      Path.mem_text_iff_components (by decide) (by decide), same]
  by_cases nul : '\x00' ∈ first.text.toList
  · rw [locate_of_nul nul, locate_of_nul (sameNul.mp nul)]
  · have secondNoNul := (not_congr sameNul).mp nul
    by_cases isShort : first.IsShort
    · rw [locate_eq_followComponents nul isShort firstEnd,
        locate_eq_followComponents secondNoNul (length.mp isShort) secondEnd,
        same]
    · rw [locate_of_long nul isShort,
        locate_of_long secondNoNul ((not_congr length).mp isShort)]

theorem noNul_of_locate {place : Location}
    (located : disk.locate path = .ok place) :
    '\x00' ∉ path.text.toList := by
  intro nul
  rw [locate_of_nul nul] at located
  cases located

theorem isShort_of_locate {place : Location}
    (located : disk.locate path = .ok place) : path.IsShort := by
  by_contra long
  rw [locate_of_long (noNul_of_locate located) long] at located
  cases located

/-! ## Texts at a place -/

theorem readText_congr (same : disk.locate first = disk.locate second) :
    disk.readText first = disk.readText second := by
  rw [readText, readText, same]

theorem find?_of_readText {text : String}
    (run : disk.readText path = .ok text) :
    disk.find? (path.place disk.workingDirectory) =
      some (.file (.text text)) := by
  obtain ⟨place, located, outcome⟩ := Except.bind_eq_ok_iff.mp run
  rw [← locate_eq located]
  split at outcome
  · next found =>
    obtain rfl := Except.ok.inj outcome
    exact found
  · cases outcome
  · cases outcome
  · cases outcome

/-- Equal paths that can both be read have the same text. -/
theorem text_eq_of_readText {text otherText : String}
    (same : Path.order first second = .eq)
    (run : disk.readText first = .ok text)
    (otherRun : disk.readText second = .ok otherText) : text = otherText := by
  have found := find?_of_readText run
  rw [Path.place, Path.components_eq_of_order same, ← Path.place,
    find?_of_readText otherRun] at found
  simpa using found.symm

/-! ## Entries of a directory -/

section Entries

variable {place : Location} {name : String} {base : Path}

/-- A slash behind a path that leads to a directory changes nothing. -/
theorem follow_slash (isDirectory : disk.find? place = some .directory)
    (followed : disk.follow start pieces = .ok place) :
    disk.follow start (pieces ++ [""]) = .ok place := by
  induction pieces generalizing start with
  | nil => exact followed
  | cons piece pieces inductionHypothesis =>
      rw [List.cons_append, follow]
      rw [follow] at followed
      by_cases idle : isIdle piece = true
      · rw [if_pos idle] at followed ⊢
        exact inductionHypothesis followed
      · rw [if_neg idle] at followed ⊢
        by_cases up : piece = ".."
        · rw [if_pos up] at followed ⊢
          exact inductionHypothesis followed
        · rw [if_neg up] at followed ⊢
          by_cases long : maxNameLength < piece.utf8ByteSize
          · rw [if_pos long] at followed
            cases followed
          · rw [if_neg long] at followed ⊢
            cases found : disk.find? (start ++ [piece]) with
            | none =>
                rw [found] at followed
                cases followed
            | some entry =>
                rw [found] at followed
                cases entry with
                | directory => exact inductionHypothesis followed
                | file content =>
                    simp only at followed
                    split_ifs at followed
                    obtain rfl := Except.ok.inj followed
                    rw [found] at isDirectory
                    cases isDirectory

theorem locate_of_isDirectory (leads : disk.isDirectory path = true) :
    disk.locate path = .ok (path.place disk.workingDirectory) ∧
      disk.find? (path.place disk.workingDirectory) = some .directory := by
  unfold isDirectory at leads
  split at leads
  · next place located =>
    rw [← locate_eq located]
    exact ⟨located, by simpa using leads⟩
  · cases leads

/-- A name behind the components of a path to a directory is looked up
there. -/
theorem followComponents_concat (entry : Path.IsEntryName name)
    (leads : disk.isDirectory base = true) :
    disk.followComponents (base.components ++ [.name name]) =
      disk.follow (base.place disk.workingDirectory) [name] := by
  obtain ⟨located, isThere⟩ := locate_of_isDirectory leads
  obtain ⟨⟨start, pieces⟩, begins, followed⟩ :=
    Except.bind_eq_ok_iff.mp located
  have goesOn := follow_append (.refl disk) (follow_slash isThere followed)
    [name]
  have meaningful := (Path.isEntryName_iff.mp entry).1
  have asked : [Path.Component.name name].filterMap piece? =
      [name].filter (!isIdle ·) := by
    simp [piece?, meaningful]
  rw [← goesOn, follow_filter (by simp [meaningful]), List.filter_append,
    followComponents_of_origin begins, asked]

/-- A short path made of a directory and a name behind it leads to what stands
there under this name. -/
theorem locate_join (isFileName : IsFileName name)
    (leads : disk.isDirectory base = true)
    (isShort : (base.join (Path.ofText name)).IsShort) :
    disk.locate (base.join (Path.ofText name)) =
      disk.follow (base.place disk.workingDirectory) [name] := by
  obtain ⟨entry, noSlash, noNul, _⟩ := isFileName
  have components := Path.components_join noSlash entry base
  have noNulAtAll :
      '\x00' ∉ (base.join (Path.ofText name)).text.toList := by
    rw [Path.mem_text_iff_components (by decide) (by decide), components]
    rintro ⟨other, member, nul⟩
    rcases List.mem_append.mp member with inBase | atEnd
    · exact noNul_of_locate (locate_of_isDirectory leads).1
        ((Path.mem_text_iff_components (by decide) (by decide)).mpr
          ⟨other, inBase, nul⟩)
    · obtain rfl : other = name := by simpa using atEnd
      exact noNul nul
  rw [locate_eq_followComponents noNulAtAll isShort
      (Path.hasPlainEnd_join noSlash entry base),
    components, followComponents_concat entry leads]

theorem isSome_find?_iff (place : Location) (name : String) :
    (disk.find? (place ++ [name])).isSome ↔
      ∃ entry ∈ disk.entries, entry.1 = place ++ [name] := by
  simp [find?]

theorem mem_childrenOf_iff :
    name ∈ (disk.childrenOf place).map Prod.fst ↔
      (disk.find? (place ++ [name])).isSome := by
  rw [isSome_find?_iff]
  constructor
  · intro member
    obtain ⟨⟨other, kind⟩, child, rfl⟩ := List.mem_map.mp member
    obtain ⟨⟨stand, entry⟩, within, found⟩ := List.mem_filterMap.mp child
    refine ⟨_, within, ?_⟩
    simp only at found
    split at found
    · next last isLast =>
      split_ifs at found with above
      obtain ⟨rfl, rfl⟩ := Prod.mk.inj (Option.some.inj found)
      rw [← above]
      exact (List.dropLast_append_getLast? _ isLast).symm
    · cases found
  · rintro ⟨⟨stand, entry⟩, within, rfl⟩
    exact List.mem_map.mpr
      ⟨(name, entry), List.mem_filterMap.mpr ⟨_, within, by simp⟩, rfl⟩

theorem HasFileNames.isFileName (hasFileNames : disk.HasFileNames)
    (isThere : (disk.find? (place ++ [name])).isSome) : IsFileName name := by
  obtain ⟨entry, within, stands⟩ := (isSome_find?_iff place name).mp isThere
  exact hasFileNames entry within name (by simp [stands])

theorem follow_name (isFileName : IsFileName name) (place : Location) :
    disk.follow place [name] =
      if (disk.find? (place ++ [name])).isSome then .ok (place ++ [name])
      else .error .notFound := by
  obtain ⟨entry, _, _, short⟩ := isFileName
  obtain ⟨meaningful, notUp⟩ := Path.isEntryName_iff.mp entry
  rw [follow, if_neg (by simp [meaningful]), if_neg notUp,
    if_neg (Nat.not_lt.mpr short)]
  cases found : disk.find? (place ++ [name]) with
  | none => rfl
  | some entry => cases entry <;> rfl

/-- A name behind a directory leads to a file if there is one of this name and
the path is short. -/
theorem isFile_join_iff (isFileName : IsFileName name)
    (leads : disk.isDirectory base = true) :
    disk.isFile (base.join (Path.ofText name)) = true ↔
      (base.join (Path.ofText name)).IsShort ∧
        ∃ content, disk.find? (base.place disk.workingDirectory ++ [name]) =
          some (.file content) := by
  constructor
  · intro isFile
    unfold Disk.isFile at isFile
    split at isFile
    · next place located =>
      have isShort := isShort_of_locate located
      rw [locate_join isFileName leads isShort, follow_name isFileName]
        at located
      split_ifs at located
      obtain rfl := Except.ok.inj located
      refine ⟨isShort, ?_⟩
      cases found : disk.find? (base.place disk.workingDirectory ++ [name]) with
      | none => simp [found] at isFile
      | some entry =>
          cases entry with
          | directory => simp [found] at isFile
          | file content => exact ⟨content, rfl⟩
    · cases isFile
  · rintro ⟨isShort, content, found⟩
    unfold Disk.isFile
    rw [locate_join isFileName leads isShort, follow_name isFileName, found]
    simp [found]

end Entries

end Disk

namespace SourceFile

variable {disk : Disk} {extension : String} {directory path : Path}

/-- What is found in a directory are the files with the extension that lie
there, as far as a short path leads to them. -/
theorem exists_pathsIn (hasFileNames : disk.HasFileNames)
    (leads : disk.isDirectory directory = true) (extension : String) :
    ∃ found, pathsIn disk extension directory = .ok found ∧
      ∀ path, path ∈ found ↔
        path.IsShort ∧ LiesIn disk extension directory path := by
  obtain ⟨located, _⟩ := Disk.locate_of_isDirectory leads
  have names : disk.names directory = .ok
      ((disk.childrenOf (directory.place disk.workingDirectory)).map
        Prod.fst) := by
    rw [Disk.names, located]
    rfl
  refine ⟨_, by rw [pathsIn, names], fun path => ?_⟩
  simp only [List.mem_filter, List.mem_map, Bool.and_eq_true, beq_iff_eq]
  constructor
  · rintro ⟨⟨name, member, rfl⟩, hasExtension, isFile⟩
    have named := hasFileNames.isFileName
      (Disk.mem_childrenOf_iff.mp (List.mem_map.mpr member))
    obtain ⟨isShort, content, isThere⟩ :=
      (Disk.isFile_join_iff named leads).mp isFile
    rw [Path.extension?_join named.2.1 named.1] at hasExtension
    exact ⟨isShort, name, content, rfl, isThere, hasExtension⟩
  · rintro ⟨isShort, name, content, rfl, isThere, hasExtension⟩
    have stands := Option.isSome_of_eq_some isThere
    have named := hasFileNames.isFileName stands
    refine ⟨⟨name, List.mem_map.mp (Disk.mem_childrenOf_iff.mpr stands), rfl⟩,
      ?_, (Disk.isFile_join_iff named leads).mpr ⟨isShort, content, isThere⟩⟩
    rw [Path.extension?_join named.2.1 named.1]
    exact hasExtension

end SourceFile

end JackToVm
