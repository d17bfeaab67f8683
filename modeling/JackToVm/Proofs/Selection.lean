import JackToVm.Proofs.SelectedFiles

/-!
# Reading what a list of paths selects

The source files read for a list of paths are the ones that it selects, each of
them once, whichever path to a file the list gives, and however often.
-/

namespace JackToVm

namespace SourceFile

variable {disk : Disk} {paths others : List String} {extension : String}
variable {first second path : Path}

/-! ## Listing paths again -/

section Again

/-- A path that leads to a file does not lead to a directory under an equal
one. -/
theorem isDirectory_eq_false_of_isFile
    (isFile : disk.isFile first = true)
    (same : Path.order second first = .eq) :
    disk.isDirectory second = false := by
  unfold Disk.isFile at isFile
  split at isFile
  · next place located =>
    rw [Disk.locate_eq located, Path.place,
      ← Path.components_eq_of_order same, ← Path.place] at isFile
    by_contra leads
    rw [(Disk.locate_of_isDirectory (Bool.not_eq_false _ ▸ leads)).2] at isFile
    cases isFile
  · cases isFile

/-- Listing paths again finds no other files. -/
theorem ListsAgain.isFound_iff (hasFileNames : disk.HasFileNames)
    (listsAgain : ListsAgain disk paths extension others) :
    IsFound disk others extension path ↔
      IsFound disk paths extension path := by
  constructor
  · rintro ⟨isShort, text, member, leads, lies⟩
    rcases listsAgain.mem_or_found text member with within |
      ⟨_, found, isFound, same⟩
    · exact ⟨isShort, text, within, leads, lies⟩
    · have noDirectory := isDirectory_eq_false_of_isFile
        (isFound.leads hasFileNames).2.2.2 same
      rw [leads] at noDirectory
      cases noDirectory
  · rintro ⟨isShort, text, member, leads, lies⟩
    exact ⟨isShort, text, listsAgain.subset member, leads, lies⟩

/-- Two successful readings give the same files, but for how their paths are
written. -/
theorem AreSelected.respells {files otherFiles : List SourceFile}
    (areSelected : AreSelected disk paths extension files)
    (othersSelected : AreSelected disk others extension otherFiles)
    (forth : ∀ path, IsSelected disk paths extension path →
      ∃ other, IsSelected disk others extension other ∧
        Path.order path other = .eq)
    (back : ∀ other, IsSelected disk others extension other →
      ∃ path, IsSelected disk paths extension path ∧
        Path.order path other = .eq) :
    List.Forall₂ Respells files otherFiles := by
  refine SourceFile.forall₂_of_ordered areSelected.ascending
    othersSelected.ascending ?_ ?_ ?_
  · intro file member
    obtain ⟨path, isSelected, same⟩ :=
      forth file.path (areSelected.isSelected file member)
    obtain ⟨other, within, equal⟩ := othersSelected.complete path isSelected
    exact ⟨other, within,
      Std.TransCmp.eq_trans same (Std.OrientedCmp.eq_symm equal)⟩
  · intro other member
    obtain ⟨path, isSelected, same⟩ :=
      back other.path (othersSelected.isSelected other member)
    obtain ⟨file, within, equal⟩ := areSelected.complete path isSelected
    exact ⟨file, within, Std.TransCmp.eq_trans equal same⟩
  · intro file member other otherMember same
    refine ⟨same, ?_, ?_⟩
    · have stems := Path.stem?_congr (Path.components_eq_of_order same)
      rw [areSelected.stem_eq file member,
        othersSelected.stem_eq other otherMember] at stems
      exact Option.some.inj stems
    · obtain ⟨text, run, content⟩ := areSelected.content_eq file member
      obtain ⟨otherText, otherRun, otherContent⟩ :=
        othersSelected.content_eq other otherMember
      rw [content, otherContent, Disk.text_eq_of_readText same run otherRun]

/-- The files of some paths are read as among more paths, if those that are
added are left out there. -/
theorem alike_readEach {list others : List Path} (extension : String)
    (subset : list ⊆ others) (locatesAlike : LocatesAlike disk others) :
    Alike (List.Forall₂ Respells) (readEach disk extension list)
      (((distinctByPath id others).filter fun other =>
        list.any fun path => Path.order path other == .eq).mapM
          (read disk (some extension))) := by
  refine alike_mapM (forall₂_of_ordered (pairwise_distinctByPath id list)
    ((pairwise_distinctByPath id others).sublist List.filter_sublist)
    ?_ ?_ ?_)
  · intro path member
    have within := mem_of_mem_distinctByPath member
    obtain ⟨kept, isKept, same⟩ :=
      exists_mem_distinctByPath id (subset within)
    have equal : Path.order path kept = .eq := Std.OrientedCmp.eq_symm same
    exact ⟨kept, List.mem_filter.mpr ⟨isKept,
      List.any_eq_true.mpr ⟨path, within, beq_iff_eq.mpr equal⟩⟩, equal⟩
  · intro other member
    obtain ⟨path, within, same⟩ :=
      List.any_eq_true.mp (List.mem_filter.mp member).2
    obtain ⟨kept, isKept, equal⟩ := exists_mem_distinctByPath id within
    exact ⟨kept, isKept, Std.TransCmp.eq_trans equal (beq_iff_eq.mp same)⟩
  · intro path member other otherMember same
    exact alike_read same (locatesAlike path
      (subset (mem_of_mem_distinctByPath member)) other
      (mem_of_mem_distinctByPath (List.mem_filter.mp otherMember).1) same)

/-- With the same paths all files are read alike. -/
theorem alike_readEach_of_subset {list others : List Path}
    (subset : list ⊆ others) (supset : others ⊆ list)
    (locatesAlike : LocatesAlike disk others) :
    Alike (List.Forall₂ Respells) (readEach disk extension list)
      (readEach disk extension others) := by
  have alike := alike_readEach extension subset locatesAlike
  rwa [List.filter_eq_self.mpr] at alike
  intro other member
  exact List.any_eq_true.mpr ⟨other,
    supset (mem_of_mem_distinctByPath member),
    beq_iff_eq.mpr Std.ReflCmp.compare_self⟩

/-- A reading fails alike if there are more paths, but only such as can be
read. -/
theorem exists_readEach_error {list others : List Path} {cause : BuildError}
    (subset : list ⊆ others) (locatesAlike : LocatesAlike disk others)
    (more : ∀ path ∈ others, path ∉ list →
      ∃ file, read disk (some extension) path = .ok file)
    (fails : readEach disk extension list = .error cause) :
    ∃ other, readEach disk extension others = .error other ∧
      RefusesAlike cause other := by
  have alike := alike_readEach extension subset locatesAlike
  rw [fails] at alike
  obtain ⟨other, keptFail, related⟩ := alike.exists_error
  refine ⟨other, Except.mapM_eq_error_of_filter ?_ keptFail, related⟩
  intro path member left
  refine more path (mem_of_mem_distinctByPath member) fun within => ?_
  have found := List.any_eq_false.mp left path within
  exact found (beq_iff_eq.mpr Std.ReflCmp.compare_self)

/-- A reading succeeds if there are more paths, but only such as can be
read. -/
theorem exists_readEach_ok {list others : List Path}
    {files : List SourceFile} (subset : list ⊆ others)
    (locatesAlike : LocatesAlike disk others)
    (more : ∀ path ∈ others, path ∉ list →
      ∃ file, read disk (some extension) path = .ok file)
    (run : readEach disk extension list = .ok files) :
    ∃ otherFiles, readEach disk extension others = .ok otherFiles := by
  have listLocatesAlike : LocatesAlike disk list := by
    intro first inFirst second inSecond
    exact locatesAlike first (subset inFirst) second (subset inSecond)
  have each := (exists_readEach_iff listLocatesAlike).mp ⟨files, run⟩
  refine (exists_readEach_iff locatesAlike).mpr fun path member => ?_
  by_cases old : path ∈ list
  · exact each path old
  · exact more path member old

/-- What is listed in addition can be read if all files that are found can. -/
theorem ListsAgain.exists_read (hasFileNames : disk.HasFileNames)
    (isUniform : IsUniform disk others)
    (listsAgain : ListsAgain disk paths extension others)
    (readFound : ∀ path, IsFound disk paths extension path →
      ∃ file, read disk (some extension) path = .ok file)
    (isListed : IsListed disk others path)
    (isNew : ¬ IsListed disk paths path) :
    ∃ file, read disk (some extension) path = .ok file := by
  have isPlain := isUniform.hasPlainEnd isListed
  obtain ⟨text, member, rfl, noDirectory⟩ := isListed
  rcases listsAgain.mem_or_found text member with within |
    ⟨isShort, found, isFound, same⟩
  · exact absurd ⟨text, within, rfl, noDirectory⟩ isNew
  · obtain ⟨foundShort, foundPlain, _⟩ := isFound.leads hasFileNames
    have equal : Path.order found (Path.ofText text) = .eq :=
      Std.OrientedCmp.eq_symm same
    obtain ⟨file, run⟩ := readFound found isFound
    have alike : Alike Respells (read disk (some extension) found)
        (read disk (some extension) (Path.ofText text)) :=
      alike_read equal (Disk.locate_congr (Path.components_eq_of_order equal)
        foundPlain isPlain (iff_of_true foundShort isShort))
    rw [run] at alike
    obtain ⟨other, otherRun, _⟩ := alike.exists_ok
    exact ⟨other, otherRun⟩

/-- Listing paths again selects the same files, but for how their paths are
written. -/
theorem ListsAgain.isSelected (hasFileNames : disk.HasFileNames)
    (listsAgain : ListsAgain disk paths extension others) :
    (∀ path, IsSelected disk paths extension path →
      IsSelected disk others extension path) ∧
    ∀ other, IsSelected disk others extension other →
      ∃ path, IsSelected disk paths extension path ∧
        Path.order path other = .eq := by
  constructor
  · rintro path (⟨text, member, rfl, noDirectory⟩ | isFound)
    · exact Or.inl ⟨text, listsAgain.subset member, rfl, noDirectory⟩
    · exact Or.inr ((listsAgain.isFound_iff hasFileNames).mpr isFound)
  · rintro other (⟨text, member, rfl, noDirectory⟩ | isFound)
    · rcases listsAgain.mem_or_found text member with within |
        ⟨_, found, isFound, same⟩
      · exact ⟨_, Or.inl ⟨text, within, rfl, noDirectory⟩,
          Std.ReflCmp.compare_self⟩
      · exact ⟨found, Or.inr isFound, Std.OrientedCmp.eq_symm same⟩
    · exact ⟨other, Or.inr ((listsAgain.isFound_iff hasFileNames).mp isFound),
        Std.ReflCmp.compare_self⟩

theorem ListsAgain.respells (hasFileNames : disk.HasFileNames)
    (listsAgain : ListsAgain disk paths extension others)
    {files otherFiles : List SourceFile}
    (run : readAll disk paths extension = .ok files)
    (otherRun : readAll disk others extension = .ok otherFiles) :
    List.Forall₂ Respells files otherFiles := by
  obtain ⟨forth, back⟩ := listsAgain.isSelected hasFileNames
  refine (areSelected_of_readAll hasFileNames run).respells
    (areSelected_of_readAll hasFileNames otherRun) ?_ back
  intro path isSelected
  exact ⟨path, forth path isSelected, Std.ReflCmp.compare_self⟩

variable {found listed otherFound otherListed : List Path}

theorem Gathers.alike_found (hasFileNames : disk.HasFileNames)
    (listsAgain : ListsAgain disk paths extension others)
    (gathers : Gathers disk paths extension found listed)
    (again : Gathers disk others extension otherFound otherListed) :
    Alike (List.Forall₂ Respells) (readEach disk extension found)
      (readEach disk extension otherFound) := by
  have same : ∀ path, path ∈ found ↔ path ∈ otherFound := by
    intro path
    rw [gathers.mem_found_iff, again.mem_found_iff,
      listsAgain.isFound_iff hasFileNames]
  exact alike_readEach_of_subset (fun path => (same path).mp)
    (fun path => (same path).mpr) (again.locatesAlike_found hasFileNames)

theorem Gathers.listed_subset
    (listsAgain : ListsAgain disk paths extension others)
    (gathers : Gathers disk paths extension found listed)
    (again : Gathers disk others extension otherFound otherListed) :
    listed ⊆ otherListed := by
  intro path member
  obtain ⟨text, within, rfl, noDirectory⟩ :=
    (gathers.mem_listed_iff path).mp member
  exact (again.mem_listed_iff _).mpr
    ⟨text, listsAgain.subset within, rfl, noDirectory⟩

/-- The loops over what is found have the same outcome. So have those over what
is listed, as all that is listed in addition can be read by then. -/
theorem alike_readAll (hasFileNames : disk.HasFileNames)
    (isUniform : IsUniform disk others)
    (listsAgain : ListsAgain disk paths extension others) :
    Alike (List.Forall₂ Respells) (readAll disk paths extension)
      (readAll disk others extension) := by
  obtain ⟨found, listed, gathers⟩ :=
    exists_gathers hasFileNames paths extension
  obtain ⟨otherFound, otherListed, again⟩ :=
    exists_gathers hasFileNames others extension
  have subset := gathers.listed_subset listsAgain again
  have locatesAlike := again.locatesAlike_listed isUniform
  have foundAlike := gathers.alike_found hasFileNames listsAgain again
  have whole := gathers.readAll_eq
  have otherWhole := again.readAll_eq
  -- What is found is read first, so that a failure there is the outcome.
  cases readFound : readEach disk extension found with
  | error cause =>
      rw [readFound] at foundAlike
      obtain ⟨other, otherFails, related⟩ := foundAlike.exists_error
      rw [whole, otherWhole, readFound, otherFails]
      exact .error related
  | ok files =>
      rw [readFound] at foundAlike
      obtain ⟨otherFiles, readOtherFound, _⟩ := foundAlike.exists_ok
      have each := (exists_readEach_iff
        (gathers.locatesAlike_found hasFileNames)).mp ⟨files, readFound⟩
      have more : ∀ path ∈ otherListed, path ∉ listed →
          ∃ file, read disk (some extension) path = .ok file := by
        intro path member isNew
        exact listsAgain.exists_read hasFileNames isUniform
          (fun path isThere =>
            each path ((gathers.mem_found_iff path).mpr isThere))
          ((again.mem_listed_iff path).mp member)
          (fun old => isNew ((gathers.mem_listed_iff path).mpr old))
      rw [readFound] at whole
      rw [readOtherFound] at otherWhole
      cases readListed : readEach disk extension listed with
      | error cause =>
          obtain ⟨other, otherFails, related⟩ :=
            exists_readEach_error subset locatesAlike more readListed
          rw [whole, otherWhole, readListed, otherFails]
          exact .error related
      | ok fromList =>
          obtain ⟨otherFromList, readOtherListed⟩ :=
            exists_readEach_ok subset locatesAlike more readListed
          rw [readListed] at whole
          rw [readOtherListed] at otherWhole
          rw [whole, otherWhole]
          exact .ok (listsAgain.respells hasFileNames whole otherWhole)

end Again

/-! ## Sets of paths -/

section Sets

/-- Among short paths it is only the ends that matter. -/
theorem isUniform_of_isShort
    (endsPlainly : ∀ text ∈ paths,
      disk.isDirectory (Path.ofText text) = false → Path.EndsPlainly text)
    (isShort : ∀ text ∈ paths, (Path.ofText text).IsShort) :
    IsUniform disk paths where
  endsPlainly := endsPlainly
  isShort_iff := by
    rintro _ _ ⟨text, member, rfl, _⟩ ⟨other, otherMember, rfl, _⟩ _
    exact iff_of_true (isShort text member) (isShort other otherMember)

end Sets

end SourceFile

end JackToVm
