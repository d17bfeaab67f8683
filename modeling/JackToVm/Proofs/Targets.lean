import Mathlib.Data.List.Nodup
import JackToVm.Build.Target
import JackToVm.Proofs.Paths
import JackToVm.Proofs.Running

/-!
# Places of outputs

The path of an output leads to the place that the target of its source names.
Different targets have different places, and the file that a token dump is
named after has the target of the source with a `T` behind the stem.
-/

namespace JackToVm

namespace Path

variable {path : Path} {above : List Component} {name : String}

theorem place_of_components (origin : Location)
    (whole : path.components = above ++ [.name name]) :
    path.place origin = above.foldl Component.lead origin ++ [name] := by
  rw [place, whole, List.foldl_append]
  rfl

theorem stem?_of_components (whole : path.components = above ++ [.name name]) :
    path.stem? = some (splitName name).1 := by
  rw [stem?, fileName?_of_components whole, Option.map_some]

/-- The directory of a named file is where the components above its name
lead. -/
theorem dropLast_place (origin : Location)
    (named : path.fileName? = some name) :
    (path.place origin).dropLast =
      path.components.dropLast.foldl Component.lead origin := by
  have whole := (components_of_fileName? named).2
  rw [place_of_components origin whole, List.dropLast_concat]

end Path

open JackToVm.Path (nameOfParts IsEntryName isEntryName_of_mem)

namespace SourceFile

variable {file dump : SourceFile} {directory : Option Path}
variable {origin : Location} {extension stem : String} {path : Path}

/-- Whether a text can stand behind the dot of an output. -/
structure IsOutputExtension (extension : String) : Prop where
  noSlash : '/' ∉ extension.toList
  noDot : '.' ∉ extension.toList
  ne_empty : extension ≠ ""

theorem isOutputExtension_program : IsOutputExtension programExtension := by
  constructor <;> decide

theorem isOutputExtension_markup : IsOutputExtension markupExtension := by
  constructor <;> decide

theorem isEntryName_nameOfParts (proper : IsOutputExtension extension)
    (stem : String) : IsEntryName (nameOfParts stem extension) := by
  cases letters : extension.toList with
  | nil => exact absurd (String.toList_eq_nil_iff.mp letters) proper.ne_empty
  | cons c others =>
      have noDot := proper.noDot
      rw [letters] at noDot
      have inName : c ∈ (nameOfParts stem extension).toList := by
        simp [nameOfParts, proper.ne_empty, letters]
      exact isEntryName_of_mem inName
        (Ne.symm (List.ne_of_not_mem_cons noDot))

theorem noSlash_nameOfParts (proper : IsOutputExtension extension)
    (noSlash : '/' ∉ stem.toList) :
    '/' ∉ (nameOfParts stem extension).toList := by
  simp [nameOfParts, proper.ne_empty, noSlash, proper.noSlash]

/-- A path with an extension that is replaced has the components above its
name, and the new name. -/
theorem components_of_replaceExtension (proper : IsOutputExtension extension)
    {source : Path} (named : source.stem? = some stem)
    (run : replaceExtension source extension = .ok path) :
    path.components =
      source.components.dropLast ++ [.name (nameOfParts stem extension)] := by
  rw [replaceExtension, if_neg proper.noSlash] at run
  obtain rfl := Except.ok.inj run
  exact Path.components_withExtension named
    (isEntryName_nameOfParts proper stem)

/-- An output stands beside its source or in the directory given, under the
stem of its source. -/
theorem components_of_outputPath (proper : IsOutputExtension extension)
    (wellNamed : file.WellNamed)
    (run : Build.outputPath directory extension file = .ok path) :
    path.components = file.outputDirectory directory ++
      [.name (nameOfParts file.stem extension)] := by
  obtain ⟨beside, replaced, run⟩ := Except.bind_eq_ok_iff.mp run
  have whole :=
    components_of_replaceExtension proper wellNamed.stem_eq replaced
  cases directory with
  | none =>
      obtain rfl := Except.ok.inj run
      exact whole
  | some given =>
      simp only [Path.fileName?_of_components whole] at run
      obtain rfl := Except.ok.inj run
      exact Path.components_join
        (noSlash_nameOfParts proper wellNamed.noSlash)
        (isEntryName_nameOfParts proper file.stem) given

/-- An output stands at the place of its target. -/
theorem place_of_outputPath (proper : IsOutputExtension extension)
    (wellNamed : file.WellNamed)
    (run : Build.outputPath directory extension file = .ok path) :
    path.place origin =
      outputPlace extension (file.target origin directory) := by
  obtain ⟨name, named, _⟩ := Option.map_eq_some_iff.mp wellNamed.stem_eq
  have whole := components_of_outputPath proper wellNamed run
  rw [Path.place_of_components origin whole]
  cases directory with
  | none => rw [outputPlace, target, Path.dropLast_place origin named]; rfl
  | some given => rfl

theorem outputPlace_injective (proper : IsOutputExtension extension) :
    Function.Injective (outputPlace extension) := by
  intro first second same
  obtain ⟨directories, names⟩ := List.append_inj' same rfl
  have stems :=
    Path.nameOfParts_injective proper.ne_empty (List.cons.inj names).1
  exact Prod.ext directories stems

theorem splitName_dump (plain : '.' ∉ stem.toList.tail) :
    Path.splitName (stem ++ "T") = (stem ++ "T", none) := by
  apply Path.splitName_of_not_mem
  cases letters : stem.toList with
  | nil => simp [letters]
  | cons c others =>
      rw [letters, List.tail_cons] at plain
      simp [letters, plain]

/-- A token dump is named after a file that stands beside the source. A dot in
the stem of the source counts as the beginning of an extension. -/
theorem components_of_rename (wellNamed : file.WellNamed)
    (run : file.rename (file.stem ++ "T") markupExtension = .ok dump) :
    let stem := (Path.splitName (file.stem ++ "T")).1
    dump.stem = stem ∧ dump.path.stem? = some stem ∧
      dump.path.components = file.path.components.dropLast ++
        [.name (nameOfParts stem markupExtension)] := by
  intro stem
  have noSlash : '/' ∉ (file.stem ++ "T").toList := by
    simp [wellNamed.noSlash]
  have last : 'T' ∈ (file.stem ++ "T").toList := by
    simp
  have hasStem : stem ≠ "" := by
    apply Path.stem_ne_empty
    intro empty
    simp [empty] at last
  obtain ⟨name, named, _⟩ := Option.map_eq_some_iff.mp wellNamed.stem_eq
  have renamed := Path.components_withFileName noSlash
    (isEntryName_of_mem last (by decide)) named
  obtain ⟨path, replaced, run⟩ := Except.bind_eq_ok_iff.mp run
  have whole := components_of_replaceExtension isOutputExtension_markup
    (Path.stem?_of_components renamed) replaced
  rw [renamed, List.dropLast_concat] at whole
  have dumpStem := Path.stem?_of_components whole
  rw [Path.splitName_nameOfParts hasStem isOutputExtension_markup.ne_empty
    isOutputExtension_markup.noDot] at dumpStem
  simp only [stemOf, dumpStem] at run
  obtain rfl := Except.ok.inj run
  exact ⟨rfl, dumpStem, whole⟩

theorem wellNamed_of_rename (wellNamed : file.WellNamed)
    (run : file.rename (file.stem ++ "T") markupExtension = .ok dump) :
    dump.WellNamed := by
  obtain ⟨dumpStem, stem, _⟩ := components_of_rename wellNamed run
  refine ⟨dumpStem ▸ stem, ?_⟩
  intro inStem
  rw [dumpStem] at inStem
  have inName := (Path.stem_isPrefix (file.stem ++ "T")).subset inStem
  simp [wellNamed.noSlash] at inName

theorem target_of_rename (wellNamed : file.WellNamed)
    (plain : file.HasPlainStem)
    (run : file.rename (file.stem ++ "T") markupExtension = .ok dump) :
    dump.target origin directory =
      dumpTarget (file.target origin directory) := by
  obtain ⟨dumpStem, _, whole⟩ := components_of_rename wellNamed run
  rw [splitName_dump plain] at dumpStem
  obtain ⟨name, named, _⟩ := Option.map_eq_some_iff.mp wellNamed.stem_eq
  cases directory with
  | none =>
      have sameDirectory :
          (dump.path.place origin).dropLast =
            (file.path.place origin).dropLast := by
        rw [Path.dropLast_place origin (Path.fileName?_of_components whole),
          Path.dropLast_place origin named, whole, List.dropLast_concat]
      rw [target, target, sameDirectory, dumpStem]
      rfl
  | some given =>
      rw [target, target, dumpStem]
      rfl

variable {files dumps : List SourceFile}

theorem wellNamed_of_renameAll (wellNamed : ∀ file ∈ files, file.WellNamed)
    (run : (files.mapM fun file =>
      file.rename (file.stem ++ "T") markupExtension) = .ok dumps) :
    ∀ dump ∈ dumps, dump.WellNamed := by
  intro dump member
  obtain ⟨file, within, found⟩ := Except.exists_of_mem_mapM run member
  exact wellNamed_of_rename (wellNamed file within) found

/-- The token dumps of several sources have the targets of the sources, with a
`T` behind each stem. -/
theorem targets_of_rename (wellNamed : ∀ file ∈ files, file.WellNamed)
    (plain : ∀ file ∈ files, file.HasPlainStem)
    (run : (files.mapM fun file =>
      file.rename (file.stem ++ "T") markupExtension) = .ok dumps) :
    dumps.map (target origin directory) =
      (files.map (target origin directory)).map dumpTarget := by
  rw [List.map_map]
  exact Except.map_of_mapM
    (fun file member dump found =>
      target_of_rename (wellNamed file member) (plain file member) found)
    run

/-- Sources and their token dumps go to different places if no two sources
have one target, and no token dump has the target of a source. -/
theorem nodup_dumpTargets (targets : List (Location × String)) :
    (targets.map dumpTarget ++ targets).Nodup ↔
      targets.Nodup ∧ ∀ target ∈ targets, dumpTarget target ∉ targets := by
  have injective : Function.Injective dumpTarget := by
    intro first second same
    obtain ⟨directories, stems⟩ := Prod.mk.inj same
    exact Prod.ext directories ((String.append_left_inj _).mp stems)
  rw [List.nodup_append', List.nodup_map_iff injective,
    List.disjoint_left, List.forall_mem_map]
  exact ⟨fun both => ⟨both.1, both.2.2⟩,
    fun both => ⟨both.1, both.1, both.2⟩⟩

end SourceFile

end JackToVm
