import JackToVm.Build.Target
import JackToVm.Proofs.PathOrder
import JackToVm.Proofs.Running

/-!
# Lists of sources

The source files that are read from a disk have the stems of their paths, and
the pieces of their paths hold no slash.
-/

namespace JackToVm

namespace Path

theorem isCut_ofText (text : String) : (ofText text).IsCut := by
  have apart : ∀ letters ∈ text.toList.splitOn '/', '/' ∉ letters :=
    fun letters => Text.not_mem_of_mem_splitOn
  intro piece member
  unfold ofText at member
  split at member
  · obtain rfl : piece = "" := by simpa using member
    simp
  · next first others cut =>
    rw [cut] at apart
    have mapped : piece ∈ (first :: others).map String.ofList := member
    obtain ⟨letters, within, rfl⟩ := List.mem_map.mp mapped
    rw [String.toList_ofList]
    exact apart letters within

theorem isCut_join {base added : Path} (baseCut : base.IsCut)
    (addedCut : added.IsCut) : (base.join added).IsCut := by
  intro piece member
  rw [IsCut, List.forall_mem_cons] at baseCut
  unfold join at member
  split_ifs at member
  · exact addedCut piece member
  · rcases List.mem_cons.mp member with rfl | behind
    · exact baseCut.1
    · rcases List.mem_append.mp behind with inBase | inAdded
      · exact baseCut.2 piece (List.dropLast_subset _ inBase)
      · exact addedCut piece inAdded
  · rcases List.mem_cons.mp member with rfl | behind
    · exact baseCut.1
    · rcases List.mem_append.mp behind with inBase | inAdded
      · exact baseCut.2 piece inBase
      · exact addedCut piece inAdded

/-- The file name is one of the pieces of a path. -/
theorem mem_of_fileName? {path : Path} {name : String}
    (found : path.fileName? = some name) : name ∈ path.head :: path.tail := by
  unfold fileName? at found
  split at found
  · next last before reversed =>
    split_ifs at found
    obtain rfl := Option.some.inj found
    have first : last ∈ path.reversedTail := by
      rw [reversed]
      exact List.mem_cons_self
    have inTail : last ∈ path.tail.reverse :=
      (List.dropWhile_suffix isIdle).subset first
    exact List.mem_cons_of_mem _ (List.mem_reverse.mp inTail)
  · split_ifs at found
    obtain rfl := Option.some.inj found
    exact List.mem_cons_self

end Path

namespace SourceFile

variable {disk : Disk} {extension : String}

theorem exists_make_of_read {expected : Option String} {path : Path}
    {file : SourceFile} (run : read disk expected path = .ok file) :
    ∃ content, make path.text path content = .ok file := by
  unfold read at run
  cases expected with
  | none =>
      simp only at run
      split at run
      · exact ⟨_, run⟩
      · cases run
  | some extension =>
      by_cases other : path.extension? ≠ some extension
      · simp only [if_pos other] at run
        cases run
      · simp only [if_neg other] at run
        split at run
        · exact ⟨_, run⟩
        · cases run

theorem wellNamed_of_read {expected : Option String} {path : Path}
    {file : SourceFile} (isCut : path.IsCut)
    (run : read disk expected path = .ok file) : file.WellNamed := by
  obtain ⟨content, made⟩ := exists_make_of_read run
  obtain ⟨stem, named, made⟩ := Except.bind_eq_ok_iff.mp made
  obtain rfl := Except.ok.inj made
  unfold stemOf at named
  split at named
  · next stem found =>
    obtain rfl := Except.ok.inj named
    obtain ⟨name, isName, rfl⟩ := Option.map_eq_some_iff.mp found
    have noSlash : '/' ∉ name.toList :=
      isCut name (Path.mem_of_fileName? isName)
    exact ⟨found, fun inStem =>
      noSlash ((Path.stem_isPrefix name).subset inStem)⟩
  · cases named

theorem isCut_of_mem_pathsIn {directory : Path} {paths : List Path}
    {path : Path} (isCut : directory.IsCut)
    (run : pathsIn disk extension directory = .ok paths)
    (member : path ∈ paths) : path.IsCut := by
  unfold pathsIn at run
  split at run
  · next names listed =>
    obtain rfl := Except.ok.inj run
    obtain ⟨name, _, rfl⟩ :=
      List.mem_map.mp (List.mem_filter.mp member).1
    exact Path.isCut_join isCut (Path.isCut_ofText name)
  · cases run

theorem path_of_read {expected : Option String} {path : Path}
    {file : SourceFile} (run : read disk expected path = .ok file) :
    file.path = path := by
  obtain ⟨content, made⟩ := exists_make_of_read run
  obtain ⟨stem, _, made⟩ := Except.bind_eq_ok_iff.mp made
  obtain rfl := Except.ok.inj made
  rfl

/-- Files that are named in the order of their paths, each once, are read one
after the other. -/
theorem readAll_eq {paths : List String} {files : List SourceFile}
    (noDirectory : ∀ path ∈ paths, disk.isDirectory (Path.ofText path) = false)
    (ordered : (paths.map Path.ofText).Pairwise fun first second =>
      Path.order first second = .lt)
    (readPaths : (paths.map Path.ofText).mapM (read disk (some extension)) =
      .ok files) :
    readAll disk paths extension = .ok files := by
  have noneIsDirectory :
      (paths.map Path.ofText).partition disk.isDirectory =
        ([], paths.map Path.ofText) := by
    rw [List.partition_eq_filter_filter]
    simp only [Prod.mk.injEq, List.filter_eq_nil_iff, List.filter_eq_self,
      List.forall_mem_map, Function.comp_apply]
    exact ⟨fun path member => by simp [noDirectory path member],
      fun path member => by simp [noDirectory path member]⟩
  have filePaths :
      files.map SourceFile.path = (paths.map Path.ofText).map id :=
    Except.map_of_mapM (fun _ _ _ found => path_of_read found) readPaths
  rw [List.map_id] at filePaths
  have orderedFiles : files.Pairwise fun first second =>
      Path.order first.path second.path = .lt := by
    rw [← filePaths] at ordered
    exact List.pairwise_map.mp ordered
  unfold readAll
  rw [noneIsDirectory]
  have noneFound : distinctByPath id ([] : List Path) = [] :=
    distinctByPath_eq List.Pairwise.nil
  refine Except.bind_eq_ok_iff.mpr ⟨[], rfl, ?_⟩
  refine Except.bind_eq_ok_iff.mpr
    ⟨[], by rw [List.flatten_nil, noneFound]; rfl, ?_⟩
  refine Except.bind_eq_ok_iff.mpr ⟨files, ?_, ?_⟩
  · rw [show distinctByPath id _ = _ from distinctByPath_eq ordered]
    exact readPaths
  · rw [List.nil_append, distinctByPath_eq orderedFiles]
    rfl

/-- Every file of a list of sources has the stem of its path. -/
theorem wellNamed_of_readAll {paths : List String} {files : List SourceFile}
    (run : readAll disk paths extension = .ok files) :
    ∀ file ∈ files, file.WellNamed := by
  have cut : ∀ path ∈ paths.map Path.ofText, path.IsCut := by
    intro path member
    obtain ⟨text, _, rfl⟩ := List.mem_map.mp member
    exact Path.isCut_ofText text
  unfold readAll at run
  obtain ⟨found, listDirectories, run⟩ := Except.bind_eq_ok_iff.mp run
  obtain ⟨fromDirectories, readFound, run⟩ := Except.bind_eq_ok_iff.mp run
  obtain ⟨listed, readListed, run⟩ := Except.bind_eq_ok_iff.mp run
  obtain rfl := Except.ok.inj run
  intro file member
  have inParts := mem_of_mem_distinctByPath member
  rcases List.mem_append.mp inParts with ofDirectory | ofList
  · obtain ⟨path, within, readFile⟩ :=
      Except.exists_of_mem_mapM readFound ofDirectory
    obtain ⟨group, isGroup, inGroup⟩ :=
      List.mem_flatten.mp (mem_of_mem_distinctByPath within)
    obtain ⟨directory, isDirectory, listDirectory⟩ :=
      Except.exists_of_mem_mapM listDirectories isGroup
    have listedPath : directory ∈ paths.map Path.ofText :=
      (List.mem_partition.mpr (Or.inl isDirectory))
    exact wellNamed_of_read
      (isCut_of_mem_pathsIn (cut directory listedPath) listDirectory inGroup)
      readFile
  · obtain ⟨path, within, readFile⟩ :=
      Except.exists_of_mem_mapM readListed ofList
    have listedPath : path ∈ paths.map Path.ofText :=
      List.mem_partition.mpr (Or.inr (mem_of_mem_distinctByPath within))
    exact wellNamed_of_read (cut path listedPath) readFile

end SourceFile

end JackToVm
