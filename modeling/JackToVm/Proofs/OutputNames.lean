import JackToVm.Proofs.KeptOutputs

/-!
# Names of outputs

Under which names token dumps and derivation trees are written. A derivation
tree is named after the whole stem of its source. The name of a token dump is
the stem with a `T` and then loses what stands behind its last dot, so that it
is the wrong one for every source with a dot inside its stem.
-/

namespace JackToVm

open JackToVm.Path (nameOfParts splitName)

namespace SourceFile

variable {file dump : SourceFile} {directory : Option Path}
variable {stem dumpStem : String} {path : Path}

/-! ## Stems of token dumps -/

/-- A dot behind the first character of a stem cuts it, and there is a last
such dot. -/
theorem exists_cut_of_dot (dot : '.' ∈ stem.toList.tail) :
    ∃ front rest : String, stem = front ++ "." ++ rest ∧ front ≠ "" ∧
      '.' ∉ rest.toList := by
  cases letters : stem.toList with
  | nil => simp [letters] at dot
  | cons first others =>
      rw [letters, List.tail_cons, ← List.mem_reverse] at dot
      obtain ⟨rest, between, cut, noDot⟩ := List.eq_append_cons_of_mem dot
      have whole : others = between.reverse ++ '.' :: rest.reverse := by
        rw [← List.reverse_reverse others, cut]
        simp
      refine ⟨String.ofList (first :: between.reverse),
        String.ofList rest.reverse, ?_, by simp, by simpa using noDot⟩
      rw [← String.toList_inj, letters, whole]
      simp

theorem isDumpStem_splitName (stem : String) :
    IsDumpStem stem (splitName (stem ++ "T")).1 := by
  by_cases plain : '.' ∉ stem.toList.tail
  · rw [splitName_dump plain]
    exact .plain plain
  · obtain ⟨front, rest, rfl, notEmpty, noDot⟩ :=
      exists_cut_of_dot (not_not.mp plain)
    have name : front ++ "." ++ rest ++ "T" =
        nameOfParts front (rest ++ "T") := by
      simp [nameOfParts, String.append_assoc]
    rw [name, Path.splitName_nameOfParts notEmpty (by simp)
      (by simp [noDot])]
    exact .cut notEmpty noDot

/-- Only a stem without a dot behind its first character is kept whole. -/
theorem IsDumpStem.eq_append_iff (isDumpStem : IsDumpStem stem dumpStem) :
    dumpStem = stem ++ "T" ↔ '.' ∉ stem.toList.tail := by
  cases isDumpStem with
  | plain plain => exact iff_of_true rfl plain
  | @cut _ rest notEmpty noDot =>
      refine iff_of_false ?_ ?_
      · intro same
        have lengths := congrArg String.length same
        have letter : "T".length = 1 := rfl
        simp only [String.length_append] at lengths
        omega
      · cases letters : dumpStem.toList with
        | nil => exact absurd (String.toList_eq_nil_iff.mp letters) notEmpty
        | cons first others => simp [letters]

/-! ## Paths of outputs -/

theorem nameOfParts_markup (stem : String) :
    nameOfParts stem markupExtension = stem ++ ".xml" := by
  have behindDot : "." ++ markupExtension = ".xml" := by decide
  rw [nameOfParts, if_neg isOutputExtension_markup.ne_empty,
    String.append_assoc, behindDot]

theorem isOutput_of_outputPath (wellNamed : file.WellNamed)
    (run : Build.outputPath directory markupExtension file = .ok path) :
    file.IsOutput directory (file.stem ++ ".xml") path := by
  rw [← nameOfParts_markup]
  exact components_of_outputPath isOutputExtension_markup wellNamed run

/-- The file that a token dump is named after stands in the directory of its
source. -/
theorem outputDirectory_of_rename (wellNamed : file.WellNamed)
    (renamed : file.rename (file.stem ++ "T") markupExtension = .ok dump) :
    dump.outputDirectory directory = file.outputDirectory directory := by
  cases directory with
  | none =>
      have whole := (components_of_rename wellNamed renamed).2.2
      rw [outputDirectory, whole, List.dropLast_concat]
      rfl
  | some given => rfl

theorem isOutput_inj {first second : String}
    (isOutput : file.IsOutput directory first path) :
    file.IsOutput directory second path ↔ first = second := by
  rw [IsOutput] at isOutput
  rw [IsOutput, isOutput, List.append_cancel_left_eq]
  simp

theorem isOutput_dump (wellNamed : file.WellNamed)
    (renamed : file.rename (file.stem ++ "T") markupExtension = .ok dump)
    (run : Build.outputPath directory markupExtension dump = .ok path) :
    (∃ stem, IsDumpStem file.stem stem ∧
      file.IsOutput directory (stem ++ ".xml") path) ∧
    (file.IsOutput directory (file.stem ++ "T.xml") path ↔
      file.HasPlainStem) := by
  have isDumpStem := isDumpStem_splitName file.stem
  have isOutput :=
    isOutput_of_outputPath (wellNamed_of_rename wellNamed renamed) run
  rw [IsOutput, outputDirectory_of_rename wellNamed renamed,
    (components_of_rename wellNamed renamed).1] at isOutput
  refine ⟨⟨_, isDumpStem, isOutput⟩, ?_⟩
  have wanted : file.stem ++ "T.xml" = file.stem ++ "T" ++ ".xml" := by
    rw [String.append_assoc]
    rfl
  rw [isOutput_inj isOutput, wanted, String.append_left_inj,
    isDumpStem.eq_append_iff, HasPlainStem]

end SourceFile

namespace Build

variable {directory : Option Path} {extension : String}
variable {disk after : Disk} {outputs : List (String × SourceFile)}
variable {written : List (Path × String)}

theorem Delivers.forall₂
    (delivers : Delivers directory extension disk outputs written after) :
    List.Forall₂ (fun output wrote =>
      outputPath directory extension output.2 = .ok wrote.1 ∧
        wrote.2 = output.1) outputs written := by
  induction delivers with
  | nil => exact .nil
  | cons found _ _ inductionHypothesis =>
      exact .cons ⟨found, rfl⟩ inductionHypothesis

/-- Of each source the first step makes a text and names a file, and the second
one writes the text to the path of this file. -/
theorem forall₂_of_delivers {making : SourceFile → String → Prop}
    {naming : SourceFile → SourceFile → Prop} {files named : List SourceFile}
    {texts : List String} (made : List.Forall₂ making files texts)
    (names : List.Forall₂ naming files named)
    (delivers : Delivers directory extension disk (texts.zip named) written
      after) :
    List.Forall₂ (fun file output => making file output.2 ∧
      ∃ other, naming file other ∧
        outputPath directory extension other = .ok output.1) files
      written := by
  induction made generalizing named disk written with
  | nil =>
      cases delivers
      exact .nil
  | cons makes _ inductionHypothesis =>
      cases names with
      | cons isNamed othersNamed =>
          cases delivers with
          | cons found wrote later =>
              exact .cons ⟨makes, _, isNamed, found⟩
                (inductionHypothesis othersNamed later)

/-! ## The outputs of a build -/

variable {paths : List String} {files : List SourceFile}
variable {before behind : BuildState}

open SourceFile (IsDumpStem)

/-- After a build of markup that succeeds there is a token dump for each source,
and then a derivation tree for each, all beside their sources or in the
directory given. A derivation tree has the stem of its source. A token dump has
this stem with a `T` behind it exactly if the stem has no dot behind its first
character; otherwise it loses the `T` and what stands behind the last dot. -/
theorem names_of_markup
    (listed : SourceFile.readAll disk paths sourceExtension = .ok files)
    (directory : Option Path)
    (run : (markupFiles files directory).run before = .ok written behind) :
    ∃ dumps trees, written = dumps ++ trees ∧
      List.Forall₂ (fun file output => file.tokenDump = .ok output.2 ∧
        (∃ stem, IsDumpStem file.stem stem ∧
          file.IsOutput directory (stem ++ ".xml") output.1) ∧
        (file.IsOutput directory (file.stem ++ "T.xml") output.1 ↔
          file.HasPlainStem)) files dumps ∧
      List.Forall₂ (fun file output => file.derivationText = .ok output.2 ∧
        file.IsOutput directory (file.stem ++ ".xml") output.1) files trees ∧
      behind.disk.HoldsLast written := by
  have wellNamed := SourceFile.wellNamed_of_readAll listed
  obtain ⟨_, _, writes, _⟩ := writes_of_markupFiles run
  have holdsLast := writes.holdsLast
  obtain ⟨dumps, trees, dumpFiles, writtenDumps, writtenTrees, made, dumped,
    parsed, planted, rfl, scanned, derived, rename, _, writeDumps, _,
    writeTrees, _⟩ := markupFiles_eq_ok run
  refine ⟨writtenDumps, writtenTrees, rfl, ?_, ?_, holdsLast⟩
  · have each := forall₂_of_delivers
      ((List.forall₂_and_left _ _).mpr ⟨wellNamed, scanned⟩)
      (Except.mapM_eq_ok_iff.mp rename) (delivers_of_writeAll writeDumps)
    refine each.imp ?_
    rintro file output ⟨⟨wellNamed, dump⟩, other, renamed, found⟩
    exact ⟨dump, SourceFile.isOutput_dump wellNamed renamed found⟩
  · have itself : List.Forall₂ (· = ·) files files :=
      List.forall₂_eq_eq_eq ▸ rfl
    have each := forall₂_of_delivers
      ((List.forall₂_and_left _ _).mpr ⟨wellNamed, derived⟩) itself
      (delivers_of_writeAll writeTrees)
    refine each.imp ?_
    rintro file output ⟨⟨wellNamed, tree⟩, other, rfl, found⟩
    exact ⟨tree, SourceFile.isOutput_of_outputPath wellNamed found⟩

/-- A source without a dot in its stem and one with a dot, with an output
directory. -/
theorem names_of_markup_mixed :
    let files :=
      [sourceAt none "A" "class A { }", sourceAt none "a.b" "class B { }"]
    let disk := diskOf files
    let out := some (Path.ofText "out")
    SourceFile.readAll disk ["A.jack", "a.b.jack"] sourceExtension =
        .ok files ∧
      ((markupFiles files out).run ⟨disk, #[]⟩).Yields fun written behind =>
        behind.disk.HoldsLast written ∧
        ∃ first second others, written = first :: second :: others ∧
          (sourceAt none "A" "class A { }").IsOutput out "AT.xml" first.1 ∧
          ¬ (sourceAt none "a.b" "class B { }").IsOutput out "a.bT.xml"
            second.1 := by
  intro files disk out
  have listed : SourceFile.readAll disk ["A.jack", "a.b.jack"]
      sourceExtension = .ok files :=
    SourceFile.readAll_eq (by decide +kernel) (by decide +kernel)
      (by decide +kernel)
  have succeeds : ((markupFiles files out).run ⟨disk, #[]⟩).Yields
      fun _ _ => True := by
    decide +kernel
  obtain ⟨written, behind, run, _⟩ := succeeds
  obtain ⟨dumps, trees, rfl, ofDumps, _, holdsLast⟩ :=
    names_of_markup listed out run
  refine ⟨listed, _, behind, run, holdsLast, ?_⟩
  obtain ⟨_, _, ⟨_, _, first⟩, others, rfl⟩ :=
    List.forall₂_cons_left_iff.mp ofDumps
  obtain ⟨_, _, ⟨_, _, second⟩, none, rfl⟩ :=
    List.forall₂_cons_left_iff.mp others
  obtain rfl := List.forall₂_nil_left_iff.mp none
  exact ⟨_, _, trees, rfl, first.mpr (by decide),
    fun named => absurd (second.mp named) (by decide)⟩

/-- The token dump of a source with a dot in its stem is not written to the file
that is named after the whole stem, and there is no such file. -/
theorem dump_misnamed :
    let file := sourceAt none "a.b" "class A { }"
    SourceFile.readAll (diskOf [file]) ["a.b.jack"] sourceExtension =
        .ok [file] ∧
      ((markupFiles [file] none).run ⟨diskOf [file], #[]⟩).Yields
        fun written behind =>
          written.map (·.1) = [⟨"a.xml", []⟩, ⟨"a.b.xml", []⟩] ∧
          written.map (Except.ok ·.2) =
            [file.tokenDump, file.derivationText] ∧
          behind.disk.readText ⟨"a.bT.xml", []⟩ = .error .notFound := by
  refine ⟨?_, by decide +kernel⟩
  exact SourceFile.readAll_eq (by decide +kernel) (by decide +kernel)
    (by decide +kernel)

end Build

end JackToVm
