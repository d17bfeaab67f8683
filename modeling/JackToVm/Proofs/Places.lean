import JackToVm.Proofs.Paths
import JackToVm.Proofs.Running

/-!
# Reading and writing at places

A path that is followed leads to its place and to no other one. Writing a text
changes one place and keeps all directories, so that the paths of earlier
outputs still lead to their places; there the last text is found that was
written to the place.
-/

namespace JackToVm.Disk

open JackToVm.Path (IsEntryName componentOfPiece? isIdle isEntryName_iff)
open JackToVm.Path.Component (lead)

section Following

variable {disk before after : Disk} {path : Path}
variable {start place found directory : Location} {pieces : List String}

/-- Following pieces leads to where their components lead. -/
theorem follow_eq (followed : disk.follow start pieces = .ok found) :
    found = (pieces.filterMap componentOfPiece?).foldl lead start := by
  induction pieces generalizing start with
  | nil =>
      simp only [follow, Except.ok.injEq] at followed
      exact followed.symm
  | cons piece pieces inductionHypothesis =>
      rw [follow] at followed
      by_cases idle : isIdle piece = true
      · rw [if_pos idle] at followed
        have nothing : componentOfPiece? piece = none := by
          rw [componentOfPiece?, if_pos idle]
        rw [List.filterMap_cons_none nothing]
        exact inductionHypothesis followed
      · rw [if_neg idle] at followed
        by_cases up : piece = ".."
        · rw [if_pos up] at followed
          have parent : componentOfPiece? piece = some .parent := by
            rw [componentOfPiece?, if_neg idle, if_pos up]
          rw [List.filterMap_cons_some parent]
          exact inductionHypothesis followed
        · rw [if_neg up] at followed
          have entry : componentOfPiece? piece = some (.name piece) := by
            rw [componentOfPiece?, if_neg idle, if_neg up]
          rw [List.filterMap_cons_some entry]
          split at followed
          · cases followed
          · split at followed
            · cases followed
            · exact inductionHypothesis followed
            · split at followed
              · next last =>
                subst last
                exact (Except.ok.inj followed).symm
              · cases followed

/-- A path begins where its first component leads. -/
theorem place_of_origin (begins : disk.origin path = .ok (start, pieces)) :
    path.place disk.workingDirectory =
      (pieces.filterMap componentOfPiece?).foldl lead start := by
  obtain ⟨head, tail⟩ := path
  unfold origin at begins
  split at begins
  · cases begins
  · split at begins
    · cases begins
    · next notEmpty =>
      split at begins
      · cases begins
      · split at begins
        · next absolute =>
          obtain ⟨rfl, rfl⟩ := Prod.mk.inj (Except.ok.inj begins)
          have root : Path.headComponent? ⟨head, tail⟩ = some .root := by
            rw [Path.headComponent?, if_pos absolute]
          rw [Path.place, Path.components, root]
          rfl
        · next relative =>
          obtain ⟨rfl, rfl⟩ := Prod.mk.inj (Except.ok.inj begins)
          have named : head ≠ "" := by
            rintro rfl
            cases tail with
            | nil => exact notEmpty rfl
            | cons piece pieces => exact relative rfl
          simp only [Path.place, Path.components, Path.headComponent?,
            if_neg relative, if_neg named, List.filterMap_cons]
          by_cases current : head = "."
          · subst head
            rfl
          · by_cases up : head = ".."
            · subst head
              rfl
            · have entry : componentOfPiece? head = some (.name head) :=
                isEntryName_iff.mpr ⟨by simp [isIdle, named, current], up⟩
              simp [current, up, entry]

/-- A path that leads somewhere leads to its place. -/
theorem locate_eq (located : disk.locate path = .ok found) :
    found = path.place disk.workingDirectory := by
  unfold locate at located
  cases begins : disk.origin path with
  | error cause =>
      rw [begins] at located
      cases located
  | ok origin =>
      obtain ⟨start, pieces⟩ := origin
      rw [begins] at located
      rw [place_of_origin begins]
      exact follow_eq located

/-- Pieces that lead to a directory lead there as long as the directories on
the way are kept, and more pieces go on from there. The empty piece at the end
stands for the slash that asks for a directory. -/
theorem follow_append (keeps : before.KeepsDirectories after)
    (followed : before.follow start (pieces ++ [""]) = .ok directory)
    (others : List String) :
    after.follow start (pieces ++ others) = after.follow directory others := by
  induction pieces generalizing start with
  | nil =>
      have stays : before.follow start [""] = .ok start := rfl
      rw [List.nil_append, stays] at followed
      obtain rfl := Except.ok.inj followed
      rfl
  | cons piece pieces inductionHypothesis =>
      rw [List.cons_append, follow] at followed ⊢
      by_cases idle : isIdle piece = true
      · rw [if_pos idle] at followed ⊢
        exact inductionHypothesis followed
      · rw [if_neg idle] at followed ⊢
        by_cases up : piece = ".."
        · rw [if_pos up] at followed ⊢
          exact inductionHypothesis followed
        · rw [if_neg up] at followed ⊢
          by_cases long : maxNameLength < piece.utf8ByteSize
          · rw [if_pos long] at followed
            cases followed
          · rw [if_neg long] at followed ⊢
            cases entered : before.find? (start ++ [piece]) with
            | none =>
                rw [entered] at followed
                cases followed
            | some entry =>
                rw [entered] at followed
                cases entry with
                | directory =>
                    rw [keeps.find?_eq _ entered]
                    exact inductionHypothesis followed
                | file content => simp at followed

end Following

/-! ## Directories that are kept -/

namespace KeepsDirectories

variable {before between after : Disk}

theorem refl (disk : Disk) : disk.KeepsDirectories disk :=
  ⟨rfl, fun _ isDirectory => isDirectory⟩

theorem trans (first : before.KeepsDirectories between)
    (second : between.KeepsDirectories after) :
    before.KeepsDirectories after :=
  ⟨second.workingDirectory_eq.trans first.workingDirectory_eq,
    fun place isDirectory =>
      second.find?_eq place (first.find?_eq place isDirectory)⟩

theorem origin_eq (keeps : before.KeepsDirectories after) (path : Path) :
    after.origin path = before.origin path := by
  rw [origin, origin, keeps.workingDirectory_eq]

end KeepsDirectories

/-! ## Offered places -/

section Offers

variable {disk before after : Disk} {path : Path}
variable {start place : Location} {content : String}

/-- What is left of pieces without the empty ones at their end are the pieces
themselves if they do not end with an empty one. -/
theorem append_of_reverse_dropWhile {pieces reversed : List String}
    {last : String}
    (cut : pieces.reverse.dropWhile (· == "") = last :: reversed)
    (noSlash : (pieces.getLast? == some "") = false) :
    pieces = reversed.reverse ++ [last] ∧ last ≠ "" := by
  have stops := List.head?_dropWhile_not (· == "") pieces.reverse
  rw [cut] at stops
  refine ⟨?_, by simpa using stops⟩
  cases back : pieces.reverse with
  | nil => simp [back] at cut
  | cons piece others =>
      have ends : piece ≠ "" := by
        rintro rfl
        simp [List.getLast?_eq_head?_reverse, back] at noSlash
      rw [back, List.dropWhile_cons_of_neg (by simpa using ends)] at cut
      obtain ⟨rfl, rfl⟩ := List.cons_eq_cons.mp cut
      rw [← List.reverse_cons, ← back, List.reverse_reverse]

/-- The pieces of a path that asks for an entry are those that lead to its
directory, and its name. -/
theorem newPlace_eq_name {directory : Location} {name : String}
    (asked : disk.newPlace path = .ok (.name directory name false)) :
    ∃ start above, disk.origin path = .ok (start, above ++ [name]) ∧
      disk.follow start (above ++ [""]) = .ok directory ∧
      IsEntryName name := by
  unfold newPlace at asked
  obtain ⟨⟨start, pieces⟩, begins, asked⟩ := Except.bind_eq_ok_iff.mp asked
  cases cut : pieces.reverse.dropWhile (· == "") with
  | nil =>
      simp only [cut] at asked
      cases asked
  | cons last reversed =>
      simp only [cut] at asked
      obtain ⟨found, followed, asked⟩ := Except.bind_eq_ok_iff.mp asked
      by_cases dots : last = "." ∨ last = ".."
      · rw [if_pos dots] at asked
        cases asked
      · rw [if_neg dots] at asked
        obtain ⟨rfl, rfl, noSlash⟩ :=
          NewPlace.name.inj (Except.ok.inj asked)
        obtain ⟨whole, ends⟩ := append_of_reverse_dropWhile cut noSlash
        rw [not_or] at dots
        have entry : IsEntryName last :=
          isEntryName_iff.mpr ⟨by simp [isIdle, ends, dots.1], dots.2⟩
        exact ⟨start, reversed.reverse, whole ▸ begins, followed, entry⟩

theorem newPlace_of_follow {directory : Location} {name : String}
    {above : List String}
    (begins : disk.origin path = .ok (start, above ++ [name]))
    (followed : disk.follow start (above ++ [""]) = .ok directory)
    (entry : IsEntryName name) :
    disk.newPlace path = .ok (.name directory name false) := by
  obtain ⟨meaningful, notUp⟩ := isEntryName_iff.mp entry
  simp only [isIdle, Bool.or_eq_false_iff, beq_eq_false_iff_ne] at meaningful
  have cut :
      (above ++ [name]).reverse.dropWhile (· == "") =
        name :: above.reverse := by
    rw [List.reverse_concat,
      List.dropWhile_cons_of_neg (by simpa using meaningful.1)]
  have noSlash : ((above ++ [name]).getLast? == some "") = false := by
    simp [meaningful.1]
  unfold newPlace
  refine Except.bind_eq_ok_iff.mpr ⟨_, begins, ?_⟩
  simp only [cut, List.reverse_reverse, noSlash]
  refine Except.bind_eq_ok_iff.mpr ⟨_, followed, ?_⟩
  rw [if_neg (by simp [meaningful.2, notUp])]
  rfl

/-- An offered place is the place of its path. -/
theorem Offers.place_eq (offers : disk.Offers path place) :
    place = path.place disk.workingDirectory := by
  obtain ⟨directory, name, asked, _, rfl⟩ := offers
  obtain ⟨start, above, begins, followed, entry⟩ := newPlace_eq_name asked
  have found := follow_eq followed
  have nothing : [""].filterMap componentOfPiece? = [] := rfl
  rw [List.filterMap_append, nothing, List.append_nil] at found
  rw [place_of_origin begins, List.filterMap_append,
    Path.filterMap_entry entry, List.foldl_append, ← found]
  rfl

theorem Offers.ne_root (offers : disk.Offers path place) : place ≠ [] := by
  obtain ⟨directory, name, _, _, rfl⟩ := offers
  exact List.append_ne_nil_of_right_ne_nil directory (List.cons_ne_nil _ _)

/-- A place is offered as long as the directories on the way are kept. -/
theorem Offers.of_keepsDirectories (offers : before.Offers path place)
    (keeps : before.KeepsDirectories after) : after.Offers path place := by
  obtain ⟨directory, name, asked, short, rfl⟩ := offers
  obtain ⟨start, above, begins, followed, entry⟩ := newPlace_eq_name asked
  have beginsAfter := (keeps.origin_eq path).trans begins
  have followedAfter : after.follow start (above ++ [""]) = .ok directory :=
    follow_append keeps followed [""]
  exact ⟨directory, name,
    newPlace_of_follow beginsAfter followedAfter entry, short, rfl⟩

/-- A file at an offered place is read through the path that asks for it. -/
theorem readText_of_offers (offers : disk.Offers path place)
    (found : disk.find? place = some (.file (.text content))) :
    disk.readText path = .ok content := by
  obtain ⟨directory, name, asked, short, rfl⟩ := offers
  obtain ⟨start, above, begins, followed, entry⟩ := newPlace_eq_name asked
  obtain ⟨meaningful, notUp⟩ := isEntryName_iff.mp entry
  have last : disk.follow directory [name] = .ok (directory ++ [name]) := by
    rw [follow, if_neg (by simp [meaningful]), if_neg notUp,
      if_neg (Nat.not_lt.mpr short), found]
    rfl
  have located : disk.locate path = .ok (directory ++ [name]) := by
    refine Except.bind_eq_ok_iff.mpr ⟨_, begins, ?_⟩
    exact (follow_append (.refl disk) followed [name]).trans last
  refine Except.bind_eq_ok_iff.mpr ⟨_, located, ?_⟩
  rw [found]

end Offers

/-! ## Writing -/

section Writing

variable {disk before after : Disk} {path : Path}
variable {place : Location} {content : String} {entry : DiskEntry}

theorem workingDirectory_put (disk : Disk) (place : Location)
    (entry : DiskEntry) :
    (disk.put place entry).workingDirectory = disk.workingDirectory := by
  unfold put
  split <;> rfl

/-- Replacing what stands at a place does not change which entry is found for
which place. -/
theorem find?_replace (entries : List (Location × DiskEntry))
    (place asked : Location) (entry : DiskEntry) :
    (entries.map fun old =>
        if old.1 == place then (place, entry) else old).find?
          (·.1 == asked) =
      (entries.find? (·.1 == asked)).map fun old =>
        if old.1 == place then (place, entry) else old := by
  rw [List.find?_map]
  congr 1
  apply congrArg fun wanted => List.find? wanted entries
  funext old
  by_cases same : old.1 = place
  · simp [same]
  · simp [same]

/-- An entry that is put at a place is found there, and elsewhere nothing
changes. -/
theorem find?_put (named : place ≠ []) (asked : Location) :
    (disk.put place entry).find? asked =
      if asked = place then some entry else disk.find? asked := by
  by_cases root : asked = []
  · subst asked
    simp [find?, named.symm]
  · unfold put
    by_cases present : disk.entries.any (·.1 == place) = true
    · rw [if_pos present]
      simp only [find?, if_neg root, find?_replace, Option.map_map]
      by_cases same : asked = place
      · subst asked
        obtain ⟨old, member, isThere⟩ := List.any_eq_true.mp present
        have found : (disk.entries.find? (·.1 == place)).isSome = true :=
          List.find?_isSome.mpr ⟨old, member, isThere⟩
        obtain ⟨first, isFirst⟩ := Option.isSome_iff_exists.mp found
        have atPlace : first.1 = place := by
          simpa using List.find?_some isFirst
        simp [isFirst, atPlace]
      · rw [if_neg same]
        cases found : disk.entries.find? (·.1 == asked) with
        | none => rfl
        | some old =>
            have atPlace : old.1 = asked := by
              simpa using List.find?_some found
            simp [atPlace, same]
    · rw [if_neg present]
      have absent : disk.entries.find? (·.1 == place) = none := by
        rw [List.find?_eq_none]
        intro old member isThere
        exact present (List.any_eq_true.mpr ⟨old, member, isThere⟩)
      simp only [find?, if_neg root, List.find?_append]
      by_cases same : asked = place
      · subst asked
        simp [absent]
      · simp [same, Ne.symm same]

theorem keepsDirectories_put (named : place ≠ [])
    (noDirectory : disk.find? place ≠ some .directory) :
    disk.KeepsDirectories (disk.put place entry) where
  workingDirectory_eq := disk.workingDirectory_put place entry
  find?_eq := by
    intro asked isDirectory
    rw [find?_put named]
    by_cases same : asked = place
    · subst asked
      exact absurd isDirectory noDirectory
    · rw [if_neg same]
      exact isDirectory

/-- A text that is written stands at the place that its path asks for, which
was no directory. -/
theorem writeText_eq_ok (written : disk.writeText path content = .ok after) :
    ∃ place, disk.Offers path place ∧
      disk.find? place ≠ some .directory ∧
      after = disk.put place (.file (.text content)) := by
  unfold writeText at written
  obtain ⟨asked, offered, written⟩ := Except.bind_eq_ok_iff.mp written
  cases asked with
  | directory => cases written
  | name directory name slash =>
      simp only at written
      split_ifs at written with goesOn long isDirectory
      · have noSlash : slash = false := by simpa using goesOn
        subst slash
        obtain rfl := Except.ok.inj written
        exact ⟨directory ++ [name],
          ⟨directory, name, offered, Nat.not_lt.mp long, rfl⟩,
          isDirectory, rfl⟩

end Writing

/-! ## Making directories -/

section Making

variable {disk after : Disk} {path : Path}

theorem makeDirectory_eq_ok (made : disk.makeDirectory path = .ok after) :
    ∃ place, place ≠ [] ∧ disk.find? place = none ∧
      after = disk.put place .directory := by
  unfold makeDirectory at made
  obtain ⟨asked, _, made⟩ := Except.bind_eq_ok_iff.mp made
  cases asked with
  | directory => cases made
  | name directory name slash =>
      simp only at made
      split_ifs at made with long taken
      · obtain rfl := Except.ok.inj made
        rw [Option.not_isSome_iff_eq_none] at taken
        exact ⟨directory ++ [name],
          List.append_ne_nil_of_right_ne_nil directory (List.cons_ne_nil _ _),
          taken, rfl⟩

theorem keepsDirectories_makeDirectory
    (made : disk.makeDirectory path = .ok after) :
    disk.KeepsDirectories after := by
  obtain ⟨place, named, free, rfl⟩ := makeDirectory_eq_ok made
  apply keepsDirectories_put named
  rw [free]
  exact Option.some_ne_none _ |>.symm

/-- What holds between two disks whenever one directory is made, and carries
over from one step to the next, holds when several are made. -/
theorem makeAncestors_of_makeDirectory {Related : Disk → Disk → Prop}
    (refl : ∀ disk, Related disk disk)
    (trans : ∀ {first second third},
      Related first second → Related second third → Related first third)
    (made : ∀ {disk after path},
      disk.makeDirectory path = .ok after → Related disk after)
    (disk : Disk) (paths : List Path) :
    Related disk (disk.makeAncestors paths).1 := by
  induction paths generalizing disk with
  | nil => exact refl disk
  | cons path above inductionHypothesis =>
      rw [makeAncestors]
      by_cases present : path = Path.empty
      · rw [if_pos present]
        exact refl disk
      · rw [if_neg present]
        split
        · next first => exact made first
        · next missing =>
          have ancestors := inductionHypothesis disk
          split
          · next failed =>
            rw [failed] at ancestors
            exact ancestors
          · next between succeeded =>
            rw [succeeded] at ancestors
            split
            · next last => exact trans ancestors (made last)
            · exact ancestors
        · exact refl disk

/-- Making directories keeps those that there are, also when it fails. -/
theorem keepsDirectories_makeDirectories (disk : Disk) (path : Path) :
    disk.KeepsDirectories (disk.makeDirectories path).1 :=
  makeAncestors_of_makeDirectory .refl .trans keepsDirectories_makeDirectory
    disk path.ancestors

end Making

/-! ## Several texts -/

section Texts

variable {before between after : Disk} {origin place : Location}
variable {outputs others : List (Path × String)} {output : Path × String}

theorem textsAt_cons (origin : Location) (output : Path × String)
    (outputs : List (Path × String)) (place : Location) :
    textsAt origin (output :: outputs) place =
      (if output.1.place origin = place then [output.2] else []) ++
        textsAt origin outputs place := by
  by_cases same : output.1.place origin = place <;>
    simp [textsAt, same]

theorem mem_textsAt (member : output ∈ outputs) :
    output.2 ∈ textsAt origin outputs (output.1.place origin) :=
  List.mem_filterMap.mpr ⟨output, member, if_pos rfl⟩

/-- Where the places of outputs are different, one text goes to each. -/
theorem textsAt_of_nodup
    (distinct : (outputs.map (·.1.place origin)).Nodup)
    (member : output ∈ outputs) :
    textsAt origin outputs (output.1.place origin) = [output.2] := by
  induction outputs with
  | nil => cases member
  | cons first others inductionHypothesis =>
      rw [List.map_cons, List.nodup_cons] at distinct
      have none : ∀ one ∈ others,
          one.1.place origin ≠ first.1.place origin := by
        intro one within same
        exact distinct.1 (List.mem_map.mpr ⟨one, within, same⟩)
      rw [textsAt_cons]
      rcases List.mem_cons.mp member with rfl | behind
      · have nothing : textsAt origin others (output.1.place origin) = [] := by
          rw [textsAt, List.filterMap_eq_nil_iff]
          intro one within
          exact if_neg (none one within)
        rw [if_pos rfl, nothing, List.append_nil]
      · rw [if_neg (none output behind).symm, List.nil_append]
        exact inductionHypothesis distinct.2 behind

namespace Writes

theorem keepsDirectories (writes : Writes before outputs after) :
    before.KeepsDirectories after := by
  induction writes with
  | nil => exact .refl _
  | cons written _ later =>
      obtain ⟨place, offers, noDirectory, rfl⟩ := writeText_eq_ok written
      exact (keepsDirectories_put offers.ne_root noDirectory).trans later

theorem append (first : Writes before outputs between)
    (second : Writes between others after) :
    Writes before (outputs ++ others) after := by
  induction first with
  | nil => exact second
  | cons written _ inductionHypothesis =>
      exact .cons written (inductionHypothesis second)

/-- A place holds the last text that was written to it, and what stood there
before if there is none. -/
theorem find?_eq (writes : Writes before outputs after) (place : Location) :
    after.find? place =
      ((textsAt before.workingDirectory outputs place).getLast?.map
        fun content => .file (.text content)).or (before.find? place) := by
  induction writes with
  | nil => rfl
  | @cons before between after path content others written later
      inductionHypothesis =>
      obtain ⟨offered, offers, noDirectory, rfl⟩ := writeText_eq_ok written
      rw [inductionHypothesis, workingDirectory_put, textsAt_cons,
        find?_put offers.ne_root, ← offers.place_eq, List.getLast?_append]
      by_cases same : offered = place
      · subst same
        cases (textsAt before.workingDirectory others offered).getLast? <;>
          simp
      · simp [same, Ne.symm same]

/-- The place of every output is still offered in the end. -/
theorem offers (writes : Writes before outputs after)
    (member : output ∈ outputs) :
    after.Offers output.1 (output.1.place before.workingDirectory) := by
  induction writes with
  | nil => cases member
  | @cons before between after path content others written later
      inductionHypothesis =>
      obtain ⟨offered, offers, noDirectory, rfl⟩ := writeText_eq_ok written
      have kept : before.KeepsDirectories
          (before.put offered (.file (.text content))) :=
        keepsDirectories_put offers.ne_root noDirectory
      rcases List.mem_cons.mp member with rfl | behind
      · have samePlace := offers.place_eq
        exact samePlace ▸
          offers.of_keepsDirectories (kept.trans later.keepsDirectories)
      · have found := inductionHypothesis behind
        rwa [workingDirectory_put] at found

/-- Every output is read back as the last text that was written to its
place. -/
theorem holdsLast (writes : Writes before outputs after) :
    after.HoldsLast outputs := by
  intro output member
  rw [writes.keepsDirectories.workingDirectory_eq]
  have some : textsAt before.workingDirectory outputs
      (output.1.place before.workingDirectory) ≠ [] :=
    List.ne_nil_of_mem (mem_textsAt member)
  have last := List.getLast?_eq_some_getLast some
  refine ⟨_, last, readText_of_offers (writes.offers member) ?_⟩
  rw [writes.find?_eq, last]
  rfl

end Writes

/-- No output is lost where each one has a place of its own. -/
theorem HoldsLast.keeps {disk : Disk} (holds : disk.HoldsLast outputs)
    (separates : disk.Separates outputs) : disk.Keeps outputs where
  order_ne := by
    have different := List.pairwise_map.mp separates
    apply different.imp
    intro first second placesDiffer same
    apply placesDiffer
    rw [Path.place, Path.place, Path.components_eq_of_order same]
  readText_eq := by
    intro output member
    obtain ⟨content, last, read⟩ := holds output member
    rw [textsAt_of_nodup separates member] at last
    obtain rfl : output.2 = content := by simpa using last
    exact read

end Texts

end JackToVm.Disk
