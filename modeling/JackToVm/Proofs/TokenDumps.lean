import JackToVm.Markup.Reading
import JackToVm.Proofs.Lexing
import Std.Data.String.ToNat

/-!
# Token dumps can be read

Escaping leaves no character with a meaning in markup outside of an entity, and
is undone by reading the entities. So the line of a token ends its tag and its
content where the first brackets stand, whatever the token holds, and the dump
of a token list without line breaks is read back as that list.
-/

namespace JackToVm

open Text (Unbroken ended margin withoutMargin)

/-! ## Escapes -/

namespace Markup

theorem unescape_cons {c : Char} (plain : c ≠ '&') (rest : List Char) :
    unescape (c :: rest) = c :: unescape rest := by
  rw [unescape]
  all_goals
    intros
    simp_all

/-- One escaped character is read back, whatever stands behind it. -/
theorem unescape_escapeChar (c : Char) (rest : List Char) :
    unescape (escapeChar c ++ rest) = c :: unescape rest := by
  unfold escapeChar
  split
  · rfl
  · rfl
  · rfl
  · rfl
  · exact unescape_cons ‹_› rest

theorem unescape_flatMap (text : List Char) :
    unescape (text.flatMap escapeChar) = text := by
  induction text with
  | nil => rfl
  | cons c rest inductionHypothesis =>
      rw [List.flatMap_cons, unescape_escapeChar, inductionHypothesis]

theorem unescape_escape (text : String) :
    String.ofList (unescape (escape text).toList) = text := by
  rw [escape, String.toList_ofList, unescape_flatMap, String.ofList_toList]

theorem escape_injective : Function.Injective escape := by
  intro first second same
  rw [← unescape_escape first, same, unescape_escape]

/-- An escaped character is itself or one of the characters of an entity. -/
theorem mem_escapeChar {c written : Char} (member : written ∈ escapeChar c) :
    written = c ∧ c ∉ ['&', '<', '>', '"'] ∨
      ∃ entity ∈ entities, written ∈ entity.toList := by
  unfold escapeChar at member
  split at member
  next => exact Or.inr ⟨"&amp;", by decide, member⟩
  next => exact Or.inr ⟨"&lt;", by decide, member⟩
  next => exact Or.inr ⟨"&gt;", by decide, member⟩
  next => exact Or.inr ⟨"&quot;", by decide, member⟩
  next => simp_all

theorem mem_escape {text : String} {written : Char}
    (member : written ∈ (escape text).toList) :
    written ∈ text.toList ∧ written ∉ ['&', '<', '>', '"'] ∨
      ∃ entity ∈ entities, written ∈ entity.toList := by
  rw [escape, String.toList_ofList, List.mem_flatMap] at member
  obtain ⟨c, within, member⟩ := member
  rcases mem_escapeChar member with ⟨rfl, plain⟩ | entity
  · exact Or.inl ⟨within, plain⟩
  · exact Or.inr entity

/-- No bracket and no quote stands in an escaped text. -/
theorem not_mem_escape (text : String) {c : Char}
    (special : c ∈ ['<', '>', '"']) : c ∉ (escape text).toList := by
  have noEntity :
      ∀ c ∈ ['<', '>', '"'], ∀ entity ∈ entities, c ∉ entity.toList := by
    simp [entities]
  intro member
  rcases mem_escape member with ⟨_, plain⟩ | ⟨entity, known, inside⟩
  · exact plain (List.mem_cons_of_mem _ special)
  · exact noEntity c special entity known inside

theorem unbroken_escape {text : String} (unbroken : Unbroken text) :
    Unbroken (escape text) := by
  have noEntity : ∀ entity ∈ entities, '\n' ∉ entity.toList := by
    decide
  intro member
  rcases mem_escape member with ⟨within, _⟩ | ⟨entity, known, inside⟩
  · exact unbroken within
  · exact noEntity entity known inside

/-- An ampersand in an escaped character begins an entity, which is the whole
of it. -/
theorem escapeChar_eq_append_ampersand {c : Char} {before behind : List Char}
    (written : escapeChar c = before ++ '&' :: behind) :
    ∃ entity ∈ entities, entity.toList = '&' :: behind := by
  have onlyFirst : ∀ entity ∈ entities, '&' ∉ entity.toList.drop 1 := by
    decide
  have whole :
      ∀ entity ∈ entities, entity.toList = before ++ '&' :: behind →
        entity.toList = '&' :: behind := by
    intro entity known same
    cases before with
    | nil => exact same
    | cons first others =>
        refine absurd ?_ (onlyFirst entity known)
        rw [same]
        simp
  unfold escapeChar at written
  split at written
  next => exact ⟨"&amp;", by decide, whole _ (by decide) written⟩
  next => exact ⟨"&lt;", by decide, whole _ (by decide) written⟩
  next => exact ⟨"&gt;", by decide, whole _ (by decide) written⟩
  next => exact ⟨"&quot;", by decide, whole _ (by decide) written⟩
  next plain _ _ _ =>
    cases before with
    | nil => simp_all
    | cons first others => simp at written

/-- Every ampersand in an escaped text begins an entity. -/
theorem exists_entity_of_ampersand {text before behind : List Char}
    (written : text.flatMap escapeChar = before ++ '&' :: behind) :
    ∃ entity ∈ entities, entity.toList <+: '&' :: behind := by
  induction text generalizing before with
  | nil => simp at written
  | cons c rest inductionHypothesis =>
      rw [List.flatMap_cons] at written
      rcases List.append_eq_append_iff.mp written with
        ⟨between, _, later⟩ | ⟨between, first, later⟩
      · exact inductionHypothesis later
      · cases between with
        | nil =>
            have same : rest.flatMap escapeChar = [] ++ '&' :: behind :=
              later.symm
            exact inductionHypothesis same
        | cons d others =>
            obtain ⟨rfl, rfl⟩ := List.cons_eq_cons.mp later
            obtain ⟨entity, known, whole⟩ :=
              escapeChar_eq_append_ampersand first
            exact ⟨entity, known, by rw [whole]; exact ⟨_, rfl⟩⟩

/-! ## Leaves and groups as lines -/

/-- The tag and the content of a leaf are read back from its line. -/
theorem readLeaf?_leafLine {tag : String} (plain : '>' ∉ tag.toList)
    (content : String) :
    readLeaf? (leafLine tag content) = some (tag, content) := by
  let behindTag := (escape content).toList ++ ' ' :: '<' :: '/' ::
    (tag.toList ++ ['>'])
  have letters :
      (leafLine tag content).toList =
        '<' :: (tag.toList ++ '>' :: ' ' :: behindTag) := by
    simp [leafLine, openTag, closeTag, behindTag]
  have padded :
      behindTag = ((escape content).toList ++ [' ']) ++
        '<' :: '/' :: (tag.toList ++ ['>']) := by
    simp [behindTag]
  have noOpening : '<' ∉ (escape content).toList ++ [' '] := by
    intro member
    rcases List.mem_append.mp member with inside | blank
    · exact not_mem_escape content (by decide) inside
    · simp at blank
  have tagEnds := Text.takeWhile_stop plain (' ' :: behindTag)
  have contentEnds :=
    Text.takeWhile_stop noOpening ('/' :: (tag.toList ++ ['>']))
  unfold readLeaf?
  simp only [letters, List.drop_succ_cons, List.drop_zero, tagEnds.1,
    tagEnds.2]
  rw [padded, contentEnds.1, List.dropLast_concat, unescape_escape,
    String.ofList_toList, if_pos rfl]

theorem unbroken_openTag {tag : String} (unbroken : Unbroken tag) :
    Unbroken (openTag tag) := by
  simp only [openTag, Text.unbroken_append_iff, unbroken, and_true]
  decide

theorem unbroken_closeTag {tag : String} (unbroken : Unbroken tag) :
    Unbroken (closeTag tag) := by
  simp only [closeTag, Text.unbroken_append_iff, unbroken, and_true]
  decide

theorem unbroken_leafLine {tag content : String}
    (unbrokenTag : Unbroken tag) (unbroken : Unbroken content) :
    Unbroken (leafLine tag content) := by
  simp only [leafLine, Text.unbroken_append_iff,
    unbroken_openTag unbrokenTag, unbroken_escape unbroken,
    unbroken_closeTag unbrokenTag, and_true, true_and]
  decide

theorem leaf_eq_ended {tag content : String} (unbrokenTag : Unbroken tag)
    (unbroken : Unbroken content) (level : Nat) :
    leaf tag content level = ended [margin level ++ leafLine tag content] := by
  have moved := Text.indent_of_unbroken
    (unbroken_leafLine unbrokenTag unbroken) level
  rw [leaf, ← leafLine, moved]
  simp

/-- A group around whole lines stands on whole lines. -/
theorem group_eq_ended {tag : String} (unbroken : Unbroken tag)
    (inner : List String) (level : Nat) :
    group tag (ended inner) level =
      ended ((margin level ++ openTag tag) :: inner ++
        [margin level ++ closeTag tag]) := by
  rw [group, Text.indent_of_unbroken (unbroken_openTag unbroken),
    Text.indent_of_unbroken (unbroken_closeTag unbroken), List.cons_append,
    Text.ended_cons, Text.ended_append]
  simp [String.append_assoc]

end Markup

/-! ## Tokens as lines -/

namespace Token

theorem unbroken_tag (token : Token) : Unbroken token.tag := by
  cases token <;> simp only [tag] <;> decide

theorem unbroken_line {token : Token} (unbroken : Unbroken token.text) :
    Unbroken token.line :=
  Markup.unbroken_leafLine token.unbroken_tag unbroken

theorem markup_eq_ended {token : Token} (unbroken : Unbroken token.text)
    (level : Nat) :
    token.markup level = ended [margin level ++ token.line] :=
  Markup.leaf_eq_ended token.unbroken_tag unbroken level

/-- The token of a leaf is found from its tag and its content. -/
theorem ofLeaf?_tag_text (token : Token) :
    ofLeaf? token.tag token.text = some token := by
  cases token with
  | identifier name => rfl
  | integer value =>
      have decimal : (toString value).toNat? = some value :=
        Nat.toNat?_repr value
      change (toString value).toNat?.map Token.integer = _
      rw [decimal]
      rfl
  | keyword reserved =>
      change (Keyword.ofWord? reserved.word).map Token.keyword = _
      rw [Keyword.ofWord?_word]
      rfl
  | string content => rfl
  | symbol sign =>
      have letters : (Token.symbol sign).text.toList = [sign.char] :=
        String.toList_singleton ..
      simp [ofLeaf?, tag, letters]

theorem ofLine?_line (token : Token) : ofLine? token.line = some token := by
  have plain : '>' ∉ token.tag.toList := by
    cases token <;> simp only [tag] <;> decide
  rw [ofLine?, line, Markup.readLeaf?_leafLine plain]
  exact token.ofLeaf?_tag_text

theorem mapM_ofLine? (tokens : List Token) :
    (tokens.map line).mapM ofLine? = some tokens := by
  induction tokens with
  | nil => rfl
  | cons token others inductionHypothesis =>
      rw [List.map_cons, List.mapM_cons, ofLine?_line, inductionHypothesis]
      rfl

/-- A line of a token begins with a bracket, so its margin can be taken
away. -/
theorem withoutMargin_line (token : Token) (level : Nat) :
    withoutMargin (margin level ++ token.line) = token.line := by
  refine Text.withoutMargin_margin ?_ level
  simp [line, Markup.leafLine, Markup.openTag]

/-! ## Dumps as lines -/

/-- The dump of tokens without line breaks stands on one line per token, with
a line for each of its tags around them. -/
theorem lines_markupOfList {tokens : List Token}
    (unbroken : ∀ token ∈ tokens, Unbroken token.text) (level : Nat) :
    Text.lines (markupOfList level tokens) =
      (margin level ++ Markup.openTag "tokens") ::
        tokens.map (fun token => margin level ++ token.line) ++
          [margin level ++ Markup.closeTag "tokens", ""] := by
  have inner :
      String.join (tokens.map (markup level)) =
        ended (tokens.map fun token => margin level ++ token.line) := by
    induction tokens with
    | nil => rfl
    | cons token others inductionHypothesis =>
        obtain ⟨unbrokenToken, unbrokenOthers⟩ :=
          List.forall_mem_cons.mp unbroken
        simp [inductionHypothesis unbrokenOthers,
          markup_eq_ended unbrokenToken]
  have tagUnbroken : Unbroken "tokens" := by
    decide
  rw [markupOfList, inner, Markup.group_eq_ended tagUnbroken,
    Text.lines_ended]
  · simp
  · simp only [List.mem_append, List.mem_cons, List.mem_map,
      List.not_mem_nil, or_false]
    rintro line ((rfl | ⟨token, member, rfl⟩) | rfl)
    · simp [Markup.unbroken_openTag tagUnbroken]
    · simp [unbroken_line (unbroken token member)]
    · simp [Markup.unbroken_closeTag tagUnbroken]

/-- A dump is read back, at whatever level it stands. -/
theorem listOfMarkup?_of_unbroken {tokens : List Token}
    (unbroken : ∀ token ∈ tokens, Unbroken token.text) (level : Nat) :
    listOfMarkup? (markupOfList level tokens) = some tokens := by
  have found :
      (Text.lines (markupOfList level tokens)).map withoutMargin =
        dumpLines (tokens.map line) := by
    have kept :
        (tokens.map fun token => margin level ++ token.line).map
            withoutMargin = tokens.map line := by
      simp [withoutMargin_line]
    have opening :
        withoutMargin (margin level ++ Markup.openTag "tokens") =
          Markup.openTag "tokens" :=
      Text.withoutMargin_margin (by decide) level
    have closing :
        withoutMargin (margin level ++ Markup.closeTag "tokens") =
          Markup.closeTag "tokens" :=
      Text.withoutMargin_margin (by decide) level
    rw [lines_markupOfList unbroken, List.map_append, List.map_cons, kept,
      opening, List.map_cons, List.map_cons, closing]
    rfl
  have inner :
      (dumpLines (tokens.map line)).tail.dropLast.dropLast =
        tokens.map line := by
    have twice :
        tokens.map line ++ [Markup.closeTag "tokens", ""] =
          (tokens.map line ++ [Markup.closeTag "tokens"]) ++ [""] := by
      simp
    simp only [dumpLines, List.cons_append, List.tail_cons]
    rw [twice, List.dropLast_concat, List.dropLast_concat]
  unfold listOfMarkup?
  simp only [found, inner, if_true, mapM_ofLine?]

/-! ## Dumps of scanned tokens -/

/-- No token of a source text holds a line break. -/
theorem unbroken_of_isWritten {token : Token} (written : token.IsWritten) :
    Unbroken token.text := by
  cases token with
  | identifier name => exact Text.not_mem_of_all written.2.1 rfl
  | integer value => exact (Text.isWord_repr value).1
  | keyword reserved => cases reserved <;> decide
  | string content => exact Text.not_mem_of_all written.1 rfl
  | symbol sign => cases sign <;> decide

/-- No token of a scanned list holds a line break. -/
theorem unbroken_of_scan {source : String} {tokens : List Token}
    (scanned : scan source = .ok tokens) :
    ∀ token ∈ tokens, Unbroken token.text :=
  fun token member =>
    unbroken_of_isWritten (isWritten_of_scan scanned token member)

/-- The dump of a scanned source is read back as its tokens, whatever its
level. Underneath, escaped texts are different for different texts, and what
has a meaning in them are entities only. -/
theorem listOfMarkup?_markupOfList :
    (∀ (source : String) (tokens : List Token) (level : Nat),
      scan source = .ok tokens →
        listOfMarkup? (markupOfList level tokens) = some tokens) ∧
    Function.Injective Markup.escape ∧
    ∀ text : String,
      (∀ c ∈ ['<', '>', '"'], c ∉ (Markup.escape text).toList) ∧
      ∀ before behind : List Char,
        (Markup.escape text).toList = before ++ '&' :: behind →
          ∃ entity ∈ Markup.entities, entity.toList <+: '&' :: behind := by
  refine ⟨?_, Markup.escape_injective, ?_⟩
  · intro source tokens level scanned
    exact listOfMarkup?_of_unbroken (unbroken_of_scan scanned) level
  · intro text
    refine ⟨fun c special => Markup.not_mem_escape text special, ?_⟩
    intro before behind written
    rw [Markup.escape, String.toList_ofList] at written
    exact Markup.exists_entity_of_ampersand written

/-- Strings that look like blanks, like markup and like an entity. -/
def deceptive : List Token :=
  [.string "  a  b ", .string "", .string "a </stringConstant>",
    .string "&lt;", .symbol .less]

theorem listOfMarkup?_markupOfList_deceptive :
    scan (spelled deceptive) = .ok deceptive ∧
      listOfMarkup? (markupOfList 2 deceptive) = some deceptive ∧
      '<' ∉ (Markup.escape "a<&b").toList ∧
      ∃ entity ∈ Markup.entities,
        entity.toList <+: "&amp;b".toList := by
  have written : ∀ token ∈ deceptive, token.IsWritten := by
    decide
  have scanned := scan_spelled written
  refine ⟨scanned, listOfMarkup?_markupOfList.1 _ _ 2 scanned, ?_, ?_⟩
  · exact (listOfMarkup?_markupOfList.2.2 "a<&b").1 '<' (by decide)
  · exact (listOfMarkup?_markupOfList.2.2 "a<&b").2 "a&lt;".toList
      "amp;b".toList (by decide)

end Token

end JackToVm
