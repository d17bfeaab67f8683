import JackToVm.Proofs.PathOrder
import JackToVm.Proofs.PathReading
import JackToVm.Proofs.Sources

/-!
# Reading the selected files

Reading a list of paths comes down to two loops, over the files that are found in
directories and over those that are listed. The list can be read if each of them
can, by whichever of its paths, and the files that are read are the selected
ones.
-/

namespace JackToVm

namespace SourceFile

variable {disk : Disk} {paths others : List String} {extension : String}
variable {first second path : Path} {file : SourceFile}

/-! ## Selected paths -/

section Selected

/-- A file that is found has the extension, and a short path with a name at its
end leads to it. -/
theorem IsFound.leads (hasFileNames : disk.HasFileNames)
    (isFound : IsFound disk paths extension path) :
    path.IsShort ∧ path.HasPlainEnd ∧ path.extension? = some extension ∧
      disk.isFile path = true := by
  obtain ⟨isShort, text, _, isDirectory, name, content, rfl, isThere,
    hasExtension⟩ := isFound
  have named := hasFileNames.isFileName (Option.isSome_of_eq_some isThere)
  refine ⟨isShort, Path.hasPlainEnd_join named.2.1 named.1 _, ?_,
    (Disk.isFile_join_iff named isDirectory).mpr ⟨isShort, content, isThere⟩⟩
  rw [Path.extension?_join named.2.1 named.1]
  exact hasExtension

theorem locate_congr_of_isFound (hasFileNames : disk.HasFileNames)
    (firstFound : IsFound disk paths extension first)
    (secondFound : IsFound disk others extension second)
    (same : Path.order first second = .eq) :
    disk.locate first = disk.locate second := by
  obtain ⟨firstShort, firstEnd, _⟩ := firstFound.leads hasFileNames
  obtain ⟨secondShort, secondEnd, _⟩ := secondFound.leads hasFileNames
  exact Disk.locate_congr (Path.components_eq_of_order same) firstEnd secondEnd
    (iff_of_true firstShort secondShort)

theorem IsUniform.hasPlainEnd (isUniform : IsUniform disk paths)
    (isListed : IsListed disk paths path) : path.HasPlainEnd := by
  obtain ⟨text, member, rfl, noDirectory⟩ := isListed
  apply Path.hasPlainEnd_of_endsPlainly
  rw [Path.text_ofText]
  exact isUniform.endsPlainly text member noDirectory

theorem IsUniform.locate_congr (isUniform : IsUniform disk paths)
    (firstListed : IsListed disk paths first)
    (secondListed : IsListed disk paths second)
    (same : Path.order first second = .eq) :
    disk.locate first = disk.locate second :=
  Disk.locate_congr (Path.components_eq_of_order same)
    (isUniform.hasPlainEnd firstListed) (isUniform.hasPlainEnd secondListed)
    (isUniform.isShort_iff first second firstListed secondListed same)

end Selected

/-! ## Reading one file -/

section Reading

theorem withLineFeeds_cons (c : Char) (letters : List Char) :
    withLineFeeds (c :: letters) =
      if c = '\r' ∧ letters.head? = some '\n' then withLineFeeds letters
      else c :: withLineFeeds letters := by
  by_cases dropped : c = '\r' ∧ letters.head? = some '\n'
  · obtain ⟨rfl, feed⟩ := dropped
    obtain ⟨others, rfl⟩ := List.head?_eq_some_iff.mp feed
    rw [if_pos ⟨rfl, rfl⟩, withLineFeeds, withLineFeeds]
    simp
  · rw [if_neg dropped, withLineFeeds]
    rintro others rfl rfl
    exact dropped ⟨rfl, rfl⟩

theorem normalizeLineBreaks_eq (text : String) :
    normalizeLineBreaks text = String.ofList (withLineFeeds text.toList) := by
  let step (c : Char) (behind : Option Char × List Char) :=
    (some c,
      if c = '\r' ∧ behind.1 = some '\n' then behind.2 else c :: behind.2)
  have folded : ∀ letters : List Char,
      letters.foldr step (none, []) =
        (letters.head?, withLineFeeds letters) := by
    intro letters
    induction letters with
    | nil => rfl
    | cons c letters inductionHypothesis =>
        rw [List.foldr_cons, inductionHypothesis, withLineFeeds_cons]
        rfl
  exact congrArg (fun outcome => String.ofList outcome.2) (folded text.toList)

/-- A path with the extension is read as if no extension were asked for. -/
theorem read_none_eq (hasExtension : path.extension? = some extension) :
    read disk none path = read disk (some extension) path := by
  simp [read, hasExtension]

theorem read_of_other_extension
    (noExtension : path.extension? ≠ some extension) :
    read disk (some extension) path = .error (.extension path extension) := by
  simp [read, noExtension]
  rfl

/-- A path with the extension has a stem, so that only its text can be
missing. -/
theorem read_of_extension (disk : Disk)
    (hasExtension : path.extension? = some extension) :
    ∃ stem, path.stem? = some stem ∧
      read disk (some extension) path =
        match disk.readText path with
        | .ok text => .ok ⟨path.text, stem, path, normalizeLineBreaks text⟩
        | .error cause => .error (.read path cause) := by
  obtain ⟨name, named, _⟩ := Option.bind_eq_some_iff.mp hasExtension
  have hasStem : path.stem? = some (Path.splitName name).1 := by
    rw [Path.stem?, named]
    rfl
  refine ⟨_, hasStem, ?_⟩
  rw [← read_none_eq hasExtension]
  unfold read
  cases run : disk.readText path with
  | ok text => simp [make, stemOf, hasStem]
  | error cause => rfl

theorem exists_read_iff :
    (∃ file, read disk (some extension) path = .ok file) ↔
      path.extension? = some extension ∧
        ∃ text, disk.readText path = .ok text := by
  by_cases hasExtension : path.extension? = some extension
  · obtain ⟨stem, _, run⟩ := read_of_extension disk hasExtension
    rw [run]
    cases disk.readText path <;> simp [hasExtension]
  · rw [read_of_other_extension hasExtension]
    simp [hasExtension]

/-- A file that is read has the stem of its path and the text that its path
leads to. -/
theorem read_eq_ok (run : read disk (some extension) path = .ok file) :
    file.path = path ∧ file.name = path.text ∧
      path.stem? = some file.stem ∧
      ∃ text, disk.readText path = .ok text ∧
        file.content = String.ofList (withLineFeeds text.toList) := by
  by_cases hasExtension : path.extension? = some extension
  · obtain ⟨stem, hasStem, outcome⟩ := read_of_extension disk hasExtension
    rw [outcome] at run
    split at run
    · next text found =>
      obtain rfl := Except.ok.inj run
      exact ⟨rfl, rfl, hasStem, text, found, normalizeLineBreaks_eq text⟩
    · cases run
  · rw [read_of_other_extension hasExtension] at run
    cases run

/-- Equal paths that lead to the same place are read alike. -/
theorem alike_read (same : Path.order first second = .eq)
    (located : disk.locate first = disk.locate second) :
    Alike Respells (read disk (some extension) first)
      (read disk (some extension) second) := by
  have components := Path.components_eq_of_order same
  have sameExtension := Path.extension?_congr components
  by_cases hasExtension : first.extension? = some extension
  · obtain ⟨stem, hasStem, run⟩ := read_of_extension disk hasExtension
    obtain ⟨otherStem, hasOtherStem, otherRun⟩ :=
      read_of_extension disk (sameExtension ▸ hasExtension)
    rw [run, otherRun, Disk.readText_congr located]
    cases disk.readText second with
    | error cause => exact .error (.read same)
    | ok text =>
        refine .ok ⟨same, ?_, rfl⟩
        rw [Path.stem?_congr components, hasOtherStem] at hasStem
        exact (Option.some.inj hasStem).symm
  · rw [read_of_other_extension hasExtension,
      read_of_other_extension (sameExtension ▸ hasExtension)]
    exact .error (.extension same)

end Reading

/-! ## Alike outcomes -/

section Alike

variable {α β : Type} {same : β → β → Prop} {step : α → Except BuildError β}

theorem Alike.exists_ok {result : β} {run : Except BuildError β}
    (alike : Alike same (.ok result) run) :
    ∃ other, run = .ok other ∧ same result other := by
  cases alike with
  | ok related => exact ⟨_, rfl, related⟩

theorem Alike.exists_error {cause : BuildError} {run : Except BuildError β}
    (alike : Alike same (.error cause) run) :
    ∃ other, run = .error other ∧ RefusesAlike cause other := by
  cases alike with
  | error related => exact ⟨_, rfl, related⟩

/-- Two loops are alike if their steps are, one by one. -/
theorem alike_mapM {items others : List α}
    (stepsAlike : List.Forall₂ (fun item other =>
      Alike same (step item) (step other)) items others) :
    Alike (List.Forall₂ same) (items.mapM step) (others.mapM step) := by
  induction stepsAlike with
  | nil => exact .ok .nil
  | @cons item other items others alike _ inductionHypothesis =>
      rw [List.mapM_cons, List.mapM_cons]
      cases run : step item with
      | error cause =>
          rw [run] at alike
          obtain ⟨otherCause, otherRun, related⟩ := alike.exists_error
          rw [otherRun]
          exact .error related
      | ok result =>
          rw [run] at alike
          obtain ⟨otherResult, otherRun, related⟩ := alike.exists_ok
          rw [otherRun]
          cases runs : items.mapM step with
          | error cause =>
              rw [runs] at inductionHypothesis
              obtain ⟨otherCause, otherRuns, alikeCauses⟩ :=
                inductionHypothesis.exists_error
              rw [otherRuns]
              exact .error alikeCauses
          | ok results =>
              rw [runs] at inductionHypothesis
              obtain ⟨otherResults, otherRuns, alikeResults⟩ :=
                inductionHypothesis.exists_ok
              rw [otherRuns]
              exact .ok (.cons related alikeResults)

end Alike

/-! ## Reading distinct files -/

section Each

/-- Reads the files of some paths in the order of the paths, each path once. -/
def readEach (disk : Disk) (extension : String) (list : List Path) :
    Except BuildError (List SourceFile) :=
  (distinctByPath id list).mapM (read disk (some extension))

/-- What listing all directories among some paths finds. -/
theorem mem_flatten_iff_isFound (hasFileNames : disk.HasFileNames)
    {groups : List (List Path)}
    (run : ((paths.map Path.ofText).filter disk.isDirectory).mapM
      (pathsIn disk extension) = .ok groups) :
    path ∈ groups.flatten ↔ IsFound disk paths extension path := by
  rw [List.mem_flatten]
  constructor
  · rintro ⟨group, isGroup, member⟩
    obtain ⟨directory, isDirectory, listed⟩ :=
      Except.exists_of_mem_mapM run isGroup
    obtain ⟨isPath, leads⟩ := List.mem_filter.mp isDirectory
    obtain ⟨text, within, rfl⟩ := List.mem_map.mp isPath
    obtain ⟨found, listing, isIn⟩ := exists_pathsIn hasFileNames leads extension
    obtain rfl := Except.ok.inj (listed.symm.trans listing)
    obtain ⟨isShort, lies⟩ := (isIn path).mp member
    exact ⟨isShort, text, within, leads, lies⟩
  · rintro ⟨isShort, text, within, leads, lies⟩
    obtain ⟨group, isGroup, listed⟩ := Except.exists_mem_of_mapM run
      (List.mem_filter.mpr ⟨List.mem_map_of_mem within, leads⟩)
    obtain ⟨found, listing, isIn⟩ := exists_pathsIn hasFileNames leads extension
    obtain rfl := Except.ok.inj (listed.symm.trans listing)
    exact ⟨group, isGroup, (isIn path).mpr ⟨isShort, lies⟩⟩

theorem mem_filter_iff_isListed :
    path ∈ (paths.map Path.ofText).filter (not ∘ disk.isDirectory) ↔
      IsListed disk paths path := by
  simp only [List.mem_filter, List.mem_map, Function.comp_apply,
    Bool.not_eq_true', IsListed]
  constructor
  · rintro ⟨⟨text, within, rfl⟩, noDirectory⟩
    exact ⟨text, within, rfl, noDirectory⟩
  · rintro ⟨text, within, rfl, noDirectory⟩
    exact ⟨⟨text, within, rfl⟩, noDirectory⟩

/-- Reading a list of paths comes down to two loops, over the files that are
found and over those that are listed. -/
structure Gathers (disk : Disk) (paths : List String) (extension : String)
    (found listed : List Path) : Prop where
  mem_found_iff : ∀ path,
    path ∈ found ↔ IsFound disk paths extension path
  mem_listed_iff : ∀ path, path ∈ listed ↔ IsListed disk paths path
  readAll_eq : readAll disk paths extension =
    readEach disk extension found >>= fun fromDirectories =>
      readEach disk extension listed >>= fun fromList =>
        .ok (distinctByPath SourceFile.path (fromDirectories ++ fromList))

theorem exists_gathers (hasFileNames : disk.HasFileNames)
    (paths : List String) (extension : String) :
    ∃ found listed, Gathers disk paths extension found listed := by
  have ofDirectories : ∀ directory ∈
      (paths.map Path.ofText).filter disk.isDirectory,
      ∃ found, pathsIn disk extension directory = .ok found := by
    intro directory member
    obtain ⟨found, run, _⟩ :=
      exists_pathsIn hasFileNames (List.mem_filter.mp member).2 extension
    exact ⟨found, run⟩
  obtain ⟨groups, run⟩ := Except.exists_mapM_eq_ok_iff.mpr ofDirectories
  have noneRead : (distinctByPath id groups.flatten).mapM (read disk none) =
      readEach disk extension groups.flatten := by
    apply Except.mapM_congr
    intro path member
    obtain ⟨_, _, hasExtension, _⟩ := IsFound.leads hasFileNames
      ((mem_flatten_iff_isFound hasFileNames run).mp
        (mem_of_mem_distinctByPath member))
    exact read_none_eq hasExtension
  refine ⟨groups.flatten,
    (paths.map Path.ofText).filter (not ∘ disk.isDirectory),
    fun path => mem_flatten_iff_isFound hasFileNames run,
    fun path => mem_filter_iff_isListed, ?_⟩
  rw [← noneRead, readAll, List.partition_eq_filter_filter]
  simp only [run]
  rfl

/-- Paths that are the same lead to the same place. -/
def LocatesAlike (disk : Disk) (list : List Path) : Prop :=
  ∀ first ∈ list, ∀ second ∈ list, Path.order first second = .eq →
    disk.locate first = disk.locate second

/-- All files are read if each of them can be read by any of its paths. -/
theorem exists_readEach_iff {list : List Path}
    (locatesAlike : LocatesAlike disk list) :
    (∃ files, readEach disk extension list = .ok files) ↔
      ∀ path ∈ list, ∃ file, read disk (some extension) path = .ok file := by
  rw [readEach, Except.exists_mapM_eq_ok_iff]
  constructor
  · intro each path member
    obtain ⟨kept, isKept, same⟩ := exists_mem_distinctByPath id member
    obtain ⟨file, run⟩ := each kept isKept
    have alike : Alike Respells (read disk (some extension) kept)
        (read disk (some extension) path) :=
      alike_read same
        (locatesAlike kept (mem_of_mem_distinctByPath isKept) path member same)
    rw [run] at alike
    obtain ⟨other, otherRun, _⟩ := alike.exists_ok
    exact ⟨other, otherRun⟩
  · intro each path member
    exact each path (mem_of_mem_distinctByPath member)

theorem exists_of_mem_readEach {list : List Path} {files : List SourceFile}
    (run : readEach disk extension list = .ok files) (member : file ∈ files) :
    ∃ path ∈ list, read disk (some extension) path = .ok file := by
  obtain ⟨path, isKept, found⟩ := Except.exists_of_mem_mapM run member
  exact ⟨path, mem_of_mem_distinctByPath isKept, found⟩

theorem exists_mem_readEach {list : List Path} {files : List SourceFile}
    (run : readEach disk extension list = .ok files) (member : path ∈ list) :
    ∃ file ∈ files, Path.order file.path path = .eq := by
  obtain ⟨kept, isKept, same⟩ := exists_mem_distinctByPath id member
  obtain ⟨file, within, found⟩ := Except.exists_mem_of_mapM run isKept
  refine ⟨file, within, ?_⟩
  rw [(read_eq_ok found).1]
  exact same

end Each

/-! ## Reading a list of paths -/

section All

variable {found listed : List Path}

theorem Gathers.locatesAlike_found (hasFileNames : disk.HasFileNames)
    (gathers : Gathers disk paths extension found listed) :
    LocatesAlike disk found := by
  intro first inFirst second inSecond same
  exact locate_congr_of_isFound hasFileNames
    ((gathers.mem_found_iff first).mp inFirst)
    ((gathers.mem_found_iff second).mp inSecond) same

theorem Gathers.locatesAlike_listed (isUniform : IsUniform disk paths)
    (gathers : Gathers disk paths extension found listed) :
    LocatesAlike disk listed := by
  intro first inFirst second inSecond same
  exact isUniform.locate_congr ((gathers.mem_listed_iff first).mp inFirst)
    ((gathers.mem_listed_iff second).mp inSecond) same

theorem exists_readAll_iff (hasFileNames : disk.HasFileNames)
    (isUniform : IsUniform disk paths) :
    (∃ files, readAll disk paths extension = .ok files) ↔
      (∀ path, IsListed disk paths path →
        path.extension? = some extension) ∧
      ∀ path, IsSelected disk paths extension path →
        ∃ text, disk.readText path = .ok text := by
  obtain ⟨found, listed, gathers⟩ :=
    exists_gathers hasFileNames paths extension
  have parts : (∃ files, readAll disk paths extension = .ok files) ↔
      (∃ files, readEach disk extension found = .ok files) ∧
        ∃ files, readEach disk extension listed = .ok files := by
    rw [gathers.readAll_eq]
    cases readEach disk extension found <;>
      cases readEach disk extension listed <;>
        simp [bind, Except.bind]
  rw [parts, exists_readEach_iff (gathers.locatesAlike_found hasFileNames),
    exists_readEach_iff (gathers.locatesAlike_listed isUniform)]
  simp only [exists_read_iff, gathers.mem_found_iff, gathers.mem_listed_iff]
  constructor
  · rintro ⟨readFound, readListed⟩
    refine ⟨fun path member => (readListed path member).1, ?_⟩
    rintro path (isOnList | isThere)
    · exact (readListed path isOnList).2
    · exact (readFound path isThere).2
  · rintro ⟨hasExtension, readable⟩
    exact ⟨fun path member => ⟨(member.leads hasFileNames).2.2.1,
        readable path (Or.inr member)⟩,
      fun path member => ⟨hasExtension path member,
        readable path (Or.inl member)⟩⟩

theorem areSelected_of_readAll (hasFileNames : disk.HasFileNames)
    {files : List SourceFile}
    (run : readAll disk paths extension = .ok files) :
    AreSelected disk paths extension files := by
  obtain ⟨found, listed, gathers⟩ :=
    exists_gathers hasFileNames paths extension
  rw [gathers.readAll_eq] at run
  obtain ⟨fromDirectories, readFound, run⟩ := Except.bind_eq_ok_iff.mp run
  obtain ⟨fromList, readListed, run⟩ := Except.bind_eq_ok_iff.mp run
  obtain rfl := Except.ok.inj run
  have ofPath : ∀ file ∈ distinctByPath SourceFile.path
      (fromDirectories ++ fromList), ∃ path,
        IsSelected disk paths extension path ∧
          read disk (some extension) path = .ok file := by
    intro file member
    rcases List.mem_append.mp (mem_of_mem_distinctByPath member) with
      ofDirectory | ofList
    · obtain ⟨path, within, outcome⟩ :=
        exists_of_mem_readEach readFound ofDirectory
      exact ⟨path, Or.inr ((gathers.mem_found_iff path).mp within), outcome⟩
    · obtain ⟨path, within, outcome⟩ :=
        exists_of_mem_readEach readListed ofList
      exact ⟨path, Or.inl ((gathers.mem_listed_iff path).mp within), outcome⟩
  have ofSelected : ∀ path, IsSelected disk paths extension path →
      ∃ file ∈ fromDirectories ++ fromList,
        Path.order file.path path = .eq := by
    rintro path (isOnList | isThere)
    · obtain ⟨file, within, same⟩ :=
        exists_mem_readEach readListed
          ((gathers.mem_listed_iff path).mpr isOnList)
      exact ⟨file, List.mem_append_right _ within, same⟩
    · obtain ⟨file, within, same⟩ :=
        exists_mem_readEach readFound
          ((gathers.mem_found_iff path).mpr isThere)
      exact ⟨file, List.mem_append_left _ within, same⟩
  constructor
  case ascending => exact pairwise_distinctByPath _ _
  case isSelected =>
    intro file member
    obtain ⟨path, isSelected, outcome⟩ := ofPath file member
    rw [(read_eq_ok outcome).1]
    exact isSelected
  case complete =>
    intro path isSelected
    obtain ⟨file, within, same⟩ := ofSelected path isSelected
    obtain ⟨kept, isKept, equal⟩ :=
      exists_mem_distinctByPath SourceFile.path within
    exact ⟨kept, isKept, Std.TransCmp.eq_trans equal same⟩
  case content_eq =>
    intro file member
    obtain ⟨path, _, outcome⟩ := ofPath file member
    rw [(read_eq_ok outcome).1]
    exact (read_eq_ok outcome).2.2.2
  case name_eq =>
    intro file member
    obtain ⟨path, _, outcome⟩ := ofPath file member
    rw [(read_eq_ok outcome).1]
    exact (read_eq_ok outcome).2.1
  case stem_eq =>
    intro file member
    obtain ⟨path, _, outcome⟩ := ofPath file member
    rw [(read_eq_ok outcome).1]
    exact (read_eq_ok outcome).2.2.1

end All

end SourceFile

end JackToVm
