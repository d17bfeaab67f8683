import JackToVm.Proofs.Selection

/-!
# Long paths

A file in a directory is passed over where the path of the directory leaves no
room for its name, and of two equal paths to a file the first one decides
whether it can be read. Dots that carry no meaning make a path as long as one
likes.
-/

namespace JackToVm

namespace Path

/-- The current directory, named by dots. -/
def dots (count : Nat) : Path := ⟨".", List.replicate count "."⟩

/-- A name behind dots. -/
def behindDots (count : Nat) (name : String) : Path :=
  ⟨".", List.replicate count "." ++ [name]⟩

variable {count : Nat} {name : String}

theorem utf8ByteSize_dots (count : Nat) :
    (dots count).text.utf8ByteSize = 2 * count + 1 := by
  have dot : ".".utf8ByteSize = 1 := rfl
  have slash : "/".utf8ByteSize = 1 := rfl
  induction count with
  | zero => rfl
  | succ count inductionHypothesis =>
      have longer : (dots (count + 1)).text = "." ++ "/" ++ (dots count).text :=
        text_cons _ _ _
      rw [longer, String.utf8ByteSize_append, String.utf8ByteSize_append,
        inductionHypothesis, dot, slash]
      omega

theorem text_behindDots (count : Nat) (name : String) :
    (behindDots count name).text = (dots count).text ++ "/" ++ name :=
  text_concat _ _ _

theorem utf8ByteSize_behindDots (count : Nat) (name : String) :
    (behindDots count name).text.utf8ByteSize =
      2 * count + 2 + name.utf8ByteSize := by
  have slash : "/".utf8ByteSize = 1 := rfl
  rw [text_behindDots, String.utf8ByteSize_append, String.utf8ByteSize_append,
    utf8ByteSize_dots, slash]

theorem eq_dot_of_mem {piece : String}
    (member : piece ∈ (dots count).head :: (dots count).tail) :
    piece = "." := by
  rcases List.mem_cons.mp member with first | behind
  · exact first
  · exact List.eq_of_mem_replicate behind

theorem isCut_dots (count : Nat) : (dots count).IsCut := by
  intro piece member
  rw [eq_dot_of_mem member]
  decide

theorem isCut_behindDots (noSlash : '/' ∉ name.toList) :
    (behindDots count name).IsCut := by
  intro piece member
  have split : piece ∈ ((dots count).head :: (dots count).tail) ++ [name] :=
    member
  rcases List.mem_append.mp split with within | isName
  · exact isCut_dots count piece within
  · rw [List.mem_singleton.mp isName]
    exact noSlash

theorem filterMap_dots (count : Nat) :
    (List.replicate count ".").filterMap componentOfPiece? = [] := by
  apply filterMap_idle
  intro piece member
  rw [List.eq_of_mem_replicate member]
  rfl

theorem components_behindDots (entry : IsEntryName name) :
    (behindDots count name).components = [.current, .name name] := by
  rw [components, behindDots, List.filterMap_append, filterMap_dots,
    filterMap_entry entry]
  rfl

theorem place_dots (origin : Location) :
    (dots count).place origin = origin := by
  rw [place, components, dots, filterMap_dots]
  rfl

/-- A text ends plainly if its last character is neither a slash nor a dot. -/
theorem endsPlainly_of_getLast? {text : String} {c : Char}
    (last : text.toList.getLast? = some c) (noSlash : c ≠ '/')
    (noDot : c ≠ '.') : EndsPlainly text := by
  constructor
  · rintro ⟨front, whole⟩
    rw [← whole, List.getLast?_concat] at last
    exact noSlash (Option.some.inj last).symm
  · rintro ⟨front, whole⟩
    rw [← whole, List.append_cons, List.getLast?_concat] at last
    exact noDot (Option.some.inj last).symm

theorem join_dots (noSlash : '/' ∉ name.toList) :
    (dots count).join (ofText name) = behindDots count name := by
  have noSlashAtEnd : (dots count).tail.getLast? ≠ some "" := by
    intro last
    exact absurd (List.eq_of_mem_replicate (List.mem_of_getLast? last))
      (by decide)
  rw [ofText_of_not_mem noSlash, join,
    if_neg (by simp [isAbsolute, dots, empty]), if_neg noSlashAtEnd]
  rfl

end Path

namespace Disk

open JackToVm.Path (dots)

variable {disk : Disk} {count : Nat}

/-- Dots lead to the current directory, as long as they can be followed. -/
theorem locate_dots (isShort : (dots count).IsShort) :
    disk.locate (dots count) = .ok disk.workingDirectory := by
  have idle : ∀ piece ∈ (dots count).head :: (dots count).tail,
      Path.isIdle piece = true := by
    intro piece member
    rw [Path.eq_dot_of_mem member]
    rfl
  have noNul : '\x00' ∉ (dots count).text.toList := by
    intro nul
    obtain ⟨piece, member, inPiece⟩ :=
      (Path.mem_text_iff (by decide)).mp nul
    rw [Path.eq_dot_of_mem member] at inPiece
    exact absurd inPiece (by decide)
  have none : ((dots count).head :: (dots count).tail).filter
      (!Path.isIdle ·) = [] :=
    List.filter_eq_nil_iff.mpr fun piece member => by simp [idle piece member]
  have followed : disk.follow disk.workingDirectory _ = _ :=
    follow_filter fun _ _ _ => idle
  rw [none] at followed
  rw [locate, origin, if_neg noNul, if_neg (by simp [dots, Path.empty]),
    if_neg (Nat.not_lt.mpr isShort), if_neg (by simp [dots, Path.isAbsolute])]
  exact followed

theorem isDirectory_dots (isShort : (dots count).IsShort)
    (isThere : disk.find? disk.workingDirectory = some .directory) :
    disk.isDirectory (dots count) = true := by
  rw [isDirectory, locate_dots isShort]
  simp [isThere]

theorem locate_behindDots {name : String} (isFileName : IsFileName name)
    (long : ¬ (Path.behindDots count name).IsShort) :
    disk.locate (Path.behindDots count name) = .error .longName := by
  refine locate_of_long ?_ long
  rw [Path.mem_text_iff_components (by decide) (by decide),
    Path.components_behindDots isFileName.1]
  rintro ⟨other, member, nul⟩
  obtain rfl : other = name := by simpa using member
  exact isFileName.2.2.1 nul

end Disk

namespace SourceFile

open JackToVm.Path (dots behindDots ofText)

variable {disk : Disk} {count : Nat} {name extension text : String}
variable {paths : List String} {first second : Path}

/-- Where nothing is selected, nothing is read. -/
theorem readAll_eq_nil (hasFileNames : disk.HasFileNames)
    (isUniform : IsUniform disk paths)
    (nothing : ∀ path, ¬ IsSelected disk paths extension path) :
    readAll disk paths extension = .ok [] := by
  obtain ⟨files, run⟩ := (exists_readAll_iff hasFileNames isUniform).mpr
    ⟨fun path isListed => absurd (Or.inl isListed) (nothing path),
      fun path isSelected => absurd isSelected (nothing path)⟩
  have none : files = [] := by
    apply List.eq_nil_iff_forall_not_mem.mpr
    intro file member
    exact nothing file.path
      ((areSelected_of_readAll hasFileNames run).isSelected file member)
  rw [run, none]

/-- A directory behind so many dots that no name fits behind it seems to be
empty. -/
theorem readAll_dots (hasFileNames : disk.HasFileNames)
    (leads : disk.isDirectory (dots count) = true)
    (noRoom : ∀ name, disk.find? (disk.workingDirectory ++ [name]) ≠ none →
      Disk.maxPathLength < 2 * count + 2 + name.utf8ByteSize) :
    readAll disk [(dots count).text] extension = .ok [] := by
  have cut : ofText (dots count).text = dots count :=
    Path.ofText_text (Path.isCut_dots count)
  have noneListed : ∀ path, ¬ IsListed disk [(dots count).text] path := by
    rintro path ⟨text, member, rfl, noDirectory⟩
    obtain rfl := List.mem_singleton.mp member
    rw [cut, leads] at noDirectory
    cases noDirectory
  refine readAll_eq_nil hasFileNames ⟨?_, ?_⟩ ?_
  · intro text member noDirectory
    exact absurd ⟨text, member, rfl, noDirectory⟩ (noneListed (ofText text))
  · intro first second isListed
    exact absurd isListed (noneListed first)
  · rintro path (isListed | ⟨isShort, text, member, _, name, content, rfl,
      isThere, _⟩)
    · exact noneListed path isListed
    · obtain rfl := List.mem_singleton.mp member
      rw [cut, Path.place_dots] at isThere
      have named :=
        hasFileNames.isFileName (Option.isSome_of_eq_some isThere)
      rw [cut, Path.join_dots named.2.1, Path.IsShort,
        Path.utf8ByteSize_behindDots] at isShort
      exact absurd (noRoom name (by simp [isThere])) (Nat.not_lt.mpr isShort)

theorem distinctByPath_pair (same : Path.order first second = .eq) :
    distinctByPath id [first, second] = [first] := by
  have sorted : sortByPath id [first, second] = [first, second] := by
    apply List.mergeSort_of_pairwise
    simp [same, Ordering.isLE]
  have dropped : ¬ Path.order (id first) (id second) ≠ .eq :=
    not_not.mpr same
  rw [distinctByPath, sorted, dropRepeated_eq_destutter, List.destutter_pair,
    if_neg dropped]

/-- Of two equal paths to files the first one is read. -/
theorem readAll_pair {otherText : String}
    (noDirectory : disk.isDirectory (ofText text) = false)
    (noOtherDirectory : disk.isDirectory (ofText otherText) = false)
    (same : Path.order (ofText text) (ofText otherText) = .eq) :
    readAll disk [text, otherText] extension =
      (read disk (some extension) (ofText text)).map ([·]) := by
  have noneIsDirectory :
      ([text, otherText].map ofText).partition disk.isDirectory =
        ([], [ofText text, ofText otherText]) := by
    rw [List.partition_eq_filter_filter]
    simp [noDirectory, noOtherDirectory]
  have noneFound : distinctByPath id ([] : List Path) = [] :=
    distinctByPath_eq .nil
  rw [readAll, noneIsDirectory]
  simp only [List.mapM_nil, pure_bind, List.flatten_nil, noneFound,
    distinctByPath_pair same, List.mapM_cons, List.nil_append]
  cases read disk (some extension) (ofText text) with
  | error cause => rfl
  | ok file =>
      have single : distinctByPath SourceFile.path [file] = [file] :=
        distinctByPath_eq (List.pairwise_singleton _ _)
      simp [bind, Except.bind, pure, Except.pure, single, Except.map]

/-- A path with too many dots spoils a list if it stands before an equal path,
but not behind it. -/
theorem readAll_behindDots (isFileName : Disk.IsFileName name)
    (long : ¬ (behindDots count name).IsShort)
    (noDirectory : disk.isDirectory (ofText text) = false)
    (same : Path.order (ofText text) (behindDots count name) = .eq)
    (hasExtension : (ofText text).extension? = some extension) :
    readAll disk [(behindDots count name).text, text] extension =
        .error (.read (behindDots count name) .longName) ∧
      readAll disk [text, (behindDots count name).text] extension =
        (read disk (some extension) (ofText text)).map ([·]) := by
  have cut : ofText (behindDots count name).text = behindDots count name :=
    Path.ofText_text (Path.isCut_behindDots isFileName.2.1)
  have located :
      disk.locate (behindDots count name) = .error .longName :=
    Disk.locate_behindDots isFileName long
  have noDirectoryThere :
      disk.isDirectory (ofText (behindDots count name).text) = false := by
    rw [cut, Disk.isDirectory, located]
  rw [← cut] at same
  refine ⟨?_, readAll_pair noDirectory noDirectoryThere same⟩
  have hasSameExtension :
      (behindDots count name).extension? = some extension := by
    rw [← cut, ← Path.extension?_congr (Path.components_eq_of_order same)]
    exact hasExtension
  have noText : disk.readText (behindDots count name) = .error .longName := by
    rw [Disk.readText, located]
    rfl
  obtain ⟨stem, _, run⟩ := read_of_extension disk hasSameExtension
  rw [readAll_pair noDirectoryThere noDirectory (Std.OrientedCmp.eq_symm same),
    cut, run, noText]
  rfl

end SourceFile

end JackToVm
