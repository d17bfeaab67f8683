import JackToVm.Text

/-!
# Lines and words

Lines without a line break in them can be put one below the other and cut apart
again, and so can the words of a line. A margin in front of a line is the only
thing that an indentation adds to it, and it can be taken away when the line
does not begin with a space itself.
-/

namespace JackToVm.Text

/-- Whether a text stands on one line. -/
def Unbroken (text : String) : Prop :=
  '\n' ∉ text.toList

instance (text : String) : Decidable (Unbroken text) :=
  inferInstanceAs (Decidable (¬ _))

/-- Whether a text can be one of the words of a line. -/
def IsWord (text : String) : Prop :=
  Unbroken text ∧ ' ' ∉ text.toList

instance (text : String) : Decidable (IsWord text) :=
  inferInstanceAs (Decidable (_ ∧ _))

/-- The words of a line, cut at every space. -/
def words (line : String) : List String :=
  (line.toList.splitOn ' ').map String.ofList

/-- Lines one below the other, each with a line break behind it. -/
def ended (list : List String) : String :=
  String.join (list.map (· ++ "\n"))

/-- A line without the spaces in front of it. -/
def withoutMargin (line : String) : String :=
  String.ofList (line.toList.dropWhile (· == ' '))

section Unbroken

variable {first second text : String} {list others : List String}

@[simp]
theorem unbroken_append_iff :
    Unbroken (first ++ second) ↔ Unbroken first ∧ Unbroken second := by
  simp [Unbroken, not_or]

@[simp]
theorem unbroken_margin (levels : Nat) : Unbroken (margin levels) := by
  simp [Unbroken, margin]

/-! ## Cutting and joining -/

theorem lines_of_unbroken (unbroken : Unbroken text) :
    lines text = [text] := by
  have whole : text.toList.splitOn '\n' = [text.toList] :=
    List.splitOnP_eq_singleton (by
      intro c member
      simp only [beq_eq_false_iff_ne]
      rintro rfl
      exact unbroken member)
  rw [lines, whole, List.map_singleton, String.ofList_toList]

/-- A text is cut at a line break wherever it stands. -/
theorem lines_append_break (first second : String) :
    lines (first ++ "\n" ++ second) = lines first ++ lines second := by
  have letters :
      (first ++ "\n" ++ second).toList =
        first.toList ++ '\n' :: second.toList := by
    simp
  have cut :
      (first.toList ++ '\n' :: second.toList).splitOn '\n' =
        first.toList.splitOn '\n' ++ second.toList.splitOn '\n' :=
    List.splitOnP_append_cons _ _ (beq_self_eq_true '\n')
  rw [lines, letters, cut, List.map_append]
  rfl

@[simp]
theorem ended_nil : ended [] = "" := rfl

@[simp]
theorem ended_cons (line : String) (list : List String) :
    ended (line :: list) = line ++ "\n" ++ ended list := by
  simp [ended]

theorem ended_append (list others : List String) :
    ended (list ++ others) = ended list ++ ended others := by
  induction list with
  | nil => simp
  | cons line list inductionHypothesis =>
      simp [inductionHypothesis, String.append_assoc]

/-- Lines that are put one below the other are cut apart again; behind the
last line break stands an empty line. -/
theorem lines_ended (unbroken : ∀ line ∈ list, Unbroken line) :
    lines (ended list) = list ++ [""] := by
  induction list with
  | nil => rfl
  | cons line list inductionHypothesis =>
      obtain ⟨unbrokenLine, unbrokenOthers⟩ := List.forall_mem_cons.mp unbroken
      rw [ended_cons, lines_append_break, lines_of_unbroken unbrokenLine,
        inductionHypothesis unbrokenOthers]
      rfl

/-- Parts without a separator in them are cut apart where the separator stands
between them. -/
theorem map_splitOn_intercalate {separator : Char}
    (apart : ∀ part ∈ list, separator ∉ part.toList) (notEmpty : list ≠ []) :
    (((String.ofList [separator]).intercalate list).toList.splitOn
      separator).map String.ofList = list := by
  have apartLetters :
      ∀ letters ∈ list.map String.toList, separator ∉ letters := by
    intro letters member
    obtain ⟨part, within, rfl⟩ := List.mem_map.mp member
    exact apart part within
  rw [String.toList_intercalate, String.toList_ofList,
    List.splitOn_intercalate separator apartLetters (by simpa using notEmpty),
    List.map_map]
  simp

/-- What is cut apart at a separator does not hold it. -/
theorem not_mem_of_mem_splitOn {separator : Char} {letters part : List Char}
    (member : part ∈ letters.splitOn separator) : separator ∉ part := by
  induction letters generalizing part with
  | nil =>
      obtain rfl : part = [] := by simpa [List.splitOnP_nil] using member
      exact List.not_mem_nil
  | cons c letters inductionHypothesis =>
      have apart : ∀ other ∈ letters.splitOnP (· == separator),
          separator ∉ other := fun other => inductionHypothesis
      rw [List.splitOn_eq_splitOnP, List.splitOnP_cons_eq_if_modifyHead]
        at member
      by_cases same : c = separator
      · rw [if_pos (by simp [same])] at member
        rcases List.mem_cons.mp member with rfl | behind
        · exact List.not_mem_nil
        · exact apart part behind
      · rw [if_neg (by simp [same])] at member
        cases cut : letters.splitOnP (· == separator) with
        | nil => exact absurd cut (List.splitOnP_ne_nil _ _)
        | cons first others =>
            rw [cut, List.forall_mem_cons] at apart
            rw [cut, List.modifyHead_cons] at member
            rcases List.mem_cons.mp member with rfl | behind
            · simp [Ne.symm same, apart.1]
            · exact apart.2 part behind

/-- Lines with line breaks only between them are cut apart again. -/
theorem lines_intercalate (unbroken : ∀ line ∈ list, Unbroken line)
    (notEmpty : list ≠ []) : lines ("\n".intercalate list) = list :=
  map_splitOn_intercalate unbroken notEmpty

/-- Words with one space between any two are cut apart again. -/
theorem words_intercalate (wordsOnly : ∀ word ∈ list, IsWord word)
    (notEmpty : list ≠ []) : words (" ".intercalate list) = list :=
  map_splitOn_intercalate (fun word member => (wordsOnly word member).2)
    notEmpty

/-- Words stand on one line when there are only spaces between them. -/
theorem unbroken_intercalate (unbroken : ∀ word ∈ list, Unbroken word) :
    Unbroken (" ".intercalate list) := by
  induction list with
  | nil => decide
  | cons word others inductionHypothesis =>
      have inside := List.forall_mem_cons.mp unbroken
      have behind := inductionHypothesis inside.2
      have space : Unbroken " " := by decide
      cases others with
      | nil => simpa using inside.1
      | cons second others =>
          rw [String.intercalate_cons_cons]
          simp [inside.1, behind, space]

/-! ## Words -/

/-- A run of characters that differ from `stop` ends in front of it. -/
theorem takeWhile_stop {stop : Char} {run : List Char} (apart : stop ∉ run)
    (behind : List Char) :
    (run ++ stop :: behind).takeWhile (· != stop) = run ∧
      (run ++ stop :: behind).dropWhile (· != stop) = stop :: behind := by
  have passes : ∀ c ∈ run, (c != stop) = true := by
    intro c member
    rw [bne_iff_ne]
    intro same
    exact apart (same ▸ member)
  rw [List.takeWhile_append_of_pos passes, List.dropWhile_append_of_pos passes]
  simp

/-- A text of wanted characters holds no character that is not wanted. -/
theorem not_mem_of_all {wanted : Char → Bool} {letters : List Char}
    {c : Char} (all : letters.all wanted = true) (refused : wanted c = false) :
    c ∉ letters := by
  intro member
  have accepted := List.all_eq_true.mp all c member
  rw [refused] at accepted
  cases accepted

theorem isWord_of_all {wanted : Char → Bool}
    (all : text.toList.all wanted = true) (noBreak : wanted '\n' = false)
    (noSpace : wanted ' ' = false) : IsWord text :=
  ⟨not_mem_of_all all noBreak, not_mem_of_all all noSpace⟩

@[simp]
theorem isWord_append_iff :
    IsWord (first ++ second) ↔ IsWord first ∧ IsWord second := by
  simp only [IsWord, unbroken_append_iff, String.toList_append,
    List.mem_append, not_or]
  exact and_and_and_comm

/-- The digits of a number are one word. -/
@[simp]
theorem isWord_repr (number : Nat) : IsWord number.repr := by
  have digits : number.repr.toList = Nat.toDigits 10 number := by
    simp [Nat.repr_eq_ofList_toDigits]
  have all : number.repr.toList.all Char.isDigit = true := by
    rw [digits, List.all_eq_true]
    intro c member
    exact Nat.isDigit_of_mem_toDigits (by decide) (by decide) member
  exact isWord_of_all all rfl rfl

/-! ## Margins -/

theorem indent_of_unbroken (unbroken : Unbroken text) (levels : Nat) :
    indent levels text = margin levels ++ text := by
  rw [indent, lines_of_unbroken unbroken]
  rfl

/-- A margin is taken away again from a line that begins with something
else. -/
theorem withoutMargin_margin {line : String}
    (begins : line.toList.head? ≠ some ' ') (levels : Nat) :
    withoutMargin (margin levels ++ line) = line := by
  have kept : line.toList.dropWhile (· == ' ') = line.toList := by
    cases letters : line.toList with
    | nil => rfl
    | cons c rest =>
        have other : c ≠ ' ' := by
          rintro rfl
          exact begins (by rw [letters]; rfl)
        simp [other]
  have spaces :
      ∀ c ∈ List.replicate (2 * levels) ' ', (c == ' ') = true := by
    intro c member
    rw [(List.mem_replicate.mp member).2]
    rfl
  rw [withoutMargin, String.toList_append, margin, String.toList_ofList,
    List.dropWhile_append_of_pos spaces, kept, String.ofList_toList]

end Unbroken

end JackToVm.Text
