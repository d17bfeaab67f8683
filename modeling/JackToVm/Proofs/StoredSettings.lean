import JackToVm.CommandLine.InForce
import JackToVm.Proofs.Running
import Mathlib.Tactic.Tauto

/-!
# Stored settings

What is stored for requests one after the other: the words of the last debug
request as bits of a flag word, and the parameters of the last request for each
of the other settings.
-/

namespace JackToVm

/-! ## Bits of debug words -/

section Words

variable {flag start : Nat} {words : List String} {word : String}

theorem or_bit_and_bit_ne_zero_iff (flag : Nat) (first second : Setting) :
    (flag ||| first.bit) &&& second.bit ≠ 0 ↔
      flag &&& second.bit ≠ 0 ∨ first = second := by
  have own : first.bit &&& second.bit = 0 ↔ first ≠ second := by
    cases first <;> cases second <;> decide
  rw [Nat.and_or_distrib_right, Ne, Nat.or_eq_zero_iff, own]
  tauto

theorem ofWord?_isSome_iff :
    (Setting.ofWord? word).isSome = true ↔ IsDebugWord word := by
  unfold Setting.ofWord? IsDebugWord
  split <;> simp_all

theorem ofWord?_eq_all_iff (word : String) :
    Setting.ofWord? word = some .printAll ↔ word = "all" := by
  unfold Setting.ofWord?
  split <;> simp_all

theorem ofWord?_eq_symbols_iff (word : String) :
    Setting.ofWord? word = some .printSymbols ↔ word = "symbols" := by
  unfold Setting.ofWord?
  split <;> simp_all

theorem ofWord?_eq_tokens_iff (word : String) :
    Setting.ofWord? word = some .printTokens ↔ word = "tokens" := by
  unfold Setting.ofWord?
  split <;> simp_all

/-- Adds the bit of a word to those of the words before it. -/
def addWord (flag : Nat) (word : String) : Except UnknownWord Nat :=
  match Setting.ofWord? word with
  | some setting => .ok (flag ||| setting.bit)
  | none => .error ⟨word⟩

theorem debugFlag_eq_foldlM (words : List String) :
    debugFlag words = words.foldlM addWord 0 :=
  rfl

/-- The bits of some words are those that were there, and one for each word. -/
theorem and_bit_ne_zero_of_foldlM
    (run : words.foldlM addWord start = .ok flag) (setting : Setting) :
    flag &&& setting.bit ≠ 0 ↔
      start &&& setting.bit ≠ 0 ∨
        ∃ word ∈ words, Setting.ofWord? word = some setting := by
  induction words generalizing start with
  | nil =>
      obtain rfl := Except.ok.inj run
      simp
  | cons word others inductionHypothesis =>
      rw [List.foldlM_cons] at run
      obtain ⟨between, added, run⟩ := Except.bind_eq_ok_iff.mp run
      rw [inductionHypothesis run]
      unfold addWord at added
      split at added
      · next own known =>
        obtain rfl := Except.ok.inj added
        rw [or_bit_and_bit_ne_zero_iff]
        simp [known, or_assoc]
      · cases added

theorem exists_foldlM_eq_ok (known : ∀ word ∈ words, IsDebugWord word)
    (start : Nat) : ∃ flag, words.foldlM addWord start = .ok flag := by
  induction words generalizing start with
  | nil => exact ⟨start, rfl⟩
  | cons word others inductionHypothesis =>
      rw [List.forall_mem_cons] at known
      obtain ⟨setting, isKnown⟩ :=
        Option.isSome_iff_exists.mp (ofWord?_isSome_iff.mpr known.1)
      obtain ⟨flag, run⟩ :=
        inductionHypothesis known.2 (start ||| setting.bit)
      refine ⟨flag, ?_⟩
      rw [List.foldlM_cons, addWord, isKnown]
      exact run

theorem isDebugWord_of_foldlM
    (run : words.foldlM addWord start = .ok flag) :
    ∀ word ∈ words, IsDebugWord word := by
  induction words generalizing start with
  | nil => simp
  | cons word others inductionHypothesis =>
      rw [List.foldlM_cons] at run
      obtain ⟨between, added, run⟩ := Except.bind_eq_ok_iff.mp run
      refine List.forall_mem_cons.mpr ⟨?_, inductionHypothesis run⟩
      unfold addWord at added
      split at added
      · next own known =>
        rw [← ofWord?_isSome_iff, known]
        rfl
      · cases added

theorem exists_of_foldlM_eq_error {unknown : UnknownWord}
    (run : words.foldlM addWord start = .error unknown) :
    ¬ IsDebugWord unknown.word := by
  induction words generalizing start with
  | nil => cases run
  | cons word others inductionHypothesis =>
      rw [List.foldlM_cons, addWord] at run
      cases known : Setting.ofWord? word with
      | some setting =>
          rw [known] at run
          exact inductionHypothesis run
      | none =>
          rw [known] at run
          obtain rfl := Except.error.inj run
          rw [← ofWord?_isSome_iff, known]
          simp

theorem debugFlag_eq_zero_iff (run : debugFlag words = .ok flag) :
    flag = 0 ↔ words = [] := by
  constructor
  · rintro rfl
    cases words with
    | nil => rfl
    | cons word others =>
        have known := isDebugWord_of_foldlM run word List.mem_cons_self
        obtain ⟨setting, isKnown⟩ :=
          Option.isSome_iff_exists.mp (ofWord?_isSome_iff.mpr known)
        have isOn := (and_bit_ne_zero_of_foldlM run setting).mpr
          (.inr ⟨word, List.mem_cons_self, isKnown⟩)
        exact absurd (Nat.zero_and _) isOn
  · rintro rfl
    exact (Except.ok.inj run).symm

end Words

/-! ## Storing one request -/

namespace Settings

open CommandLine (occurrences AsksFor)

section Store

variable {settings after : Settings} {purpose : Purpose}
variable {words : List String} {word : String} {setting : Setting}

/-- The settings with some debug words. Without a word all is on. -/
def withDebugFlag (settings : Settings) (flag : Nat) : Settings :=
  { settings with
    debug := ⟨if flag = 0 then Setting.printAll.bit else flag, none⟩ }

theorem store_debug (settings : Settings) (words : List String) :
    settings.store .debug words =
      (debugFlag words).map settings.withDebugFlag := by
  unfold store Purpose.value
  cases debugFlag words <;> rfl

theorem isSet_withDebugFlag (settings : Settings) (flag : Nat)
    (isDebug : setting.purpose = .debug) :
    (settings.withDebugFlag flag).isSet setting = true ↔
      (if flag = 0 then Setting.printAll.bit else flag) &&& setting.bit ≠
        0 := by
  cases setting with
  | printAll | printSymbols | printTokens => exact bne_iff_ne
  | output | xml => cases isDebug

theorem isEnabled_withDebugFlag {flag : Nat}
    (run : debugFlag words = .ok flag) (isDebug : setting.purpose = .debug)
    (named : ∀ asked, Setting.ofWord? asked = some setting ↔ asked = word) :
    (settings.withDebugFlag flag).isEnabled setting = true ↔
      words = [] ∨ "all" ∈ words ∨ word ∈ words := by
  have bits := and_bit_ne_zero_of_foldlM run
  rw [isEnabled, isDebug, beq_self_eq_true, Bool.true_and, Bool.or_eq_true,
    isSet_withDebugFlag settings flag rfl,
    isSet_withDebugFlag settings flag isDebug]
  by_cases none : flag = 0
  · rw [if_pos none, (debugFlag_eq_zero_iff run).mp none]
    exact iff_of_true (.inl (by decide)) (.inl rfl)
  · have some : words ≠ [] :=
      fun empty => none ((debugFlag_eq_zero_iff run).mpr empty)
    rw [if_neg none, bits, bits]
    simp [ofWord?_eq_all_iff, named, some]

/-! ## Settings after several requests -/

theorem inForce_nil : InForce {} [] where
  printTokens_iff := by simp [AsksFor, occurrences]; decide
  printSymbols_iff := by simp [AsksFor, occurrences]; decide
  xml := ⟨rfl, rfl⟩
  output := ⟨rfl, rfl⟩

variable {requests : List Request} {request : Request}

/-- A request is the last one for its purpose, and none for any other. -/
theorem occurrences_concat (requests : List Request) (request : Request)
    (purpose : Purpose) :
    occurrences (requests ++ [request]) purpose =
      occurrences requests purpose ++
        if request.purpose = purpose then [request.parameters.getD []]
        else [] := by
  by_cases same : request.purpose = purpose <;>
    simp [occurrences, List.filter_append, same]

theorem asksFor_concat (isDebug : request.purpose = .debug) (word : String) :
    AsksFor (requests ++ [request]) word ↔
      request.parameters.getD [] = [] ∨ "all" ∈ request.parameters.getD [] ∨
        word ∈ request.parameters.getD [] := by
  simp [AsksFor, occurrences_concat, isDebug]

theorem asksFor_concat_of_ne (differs : request.purpose ≠ .debug)
    (word : String) :
    AsksFor (requests ++ [request]) word ↔ AsksFor requests word := by
  simp [AsksFor, occurrences_concat, differs]

theorem Holds.concat (same : request.purpose = setting.purpose)
    (flag : (settings.stored setting).flag = setting.bit)
    (stored : (settings.stored setting).parameters =
      some (request.parameters.getD [])) :
    settings.Holds (requests ++ [request]) setting where
  parameters_eq := by
    have isOn : settings.isSet setting = true := by
      rw [isSet, flag]
      cases setting <;> rfl
    rw [parameters?, if_pos isOn, stored, occurrences_concat, if_pos same,
      List.getLast?_concat, Option.getD_some]
  stored_eq := by
    rw [stored, occurrences_concat, if_pos same, List.getLast?_concat]

theorem Holds.concat_of_ne (holds : settings.Holds requests setting)
    (differs : request.purpose ≠ setting.purpose)
    (kept : after.stored setting = settings.stored setting) :
    after.Holds (requests ++ [request]) setting where
  parameters_eq := by
    rw [parameters?, isSet, kept, occurrences_concat, if_neg differs,
      List.append_nil]
    exact holds.parameters_eq
  stored_eq := by
    rw [kept, occurrences_concat, if_neg differs, List.append_nil]
    exact holds.stored_eq

/-- Settings that differ in nothing but what they store for one purpose keep the
rest in force. -/
theorem InForce.concat_of_ne (inForce : settings.InForce requests)
    (differs : request.purpose ≠ .debug) (kept : after.debug = settings.debug)
    (xml : after.Holds (requests ++ [request]) .xml)
    (output : after.Holds (requests ++ [request]) .output) :
    after.InForce (requests ++ [request]) where
  printTokens_iff := by
    rw [asksFor_concat_of_ne differs, ← inForce.printTokens_iff]
    simp only [isEnabled, isSet, stored, kept]
  printSymbols_iff := by
    rw [asksFor_concat_of_ne differs, ← inForce.printSymbols_iff]
    simp only [isEnabled, isSet, stored, kept]
  xml := xml
  output := output

/-- A request that is stored is in force from then on, with those for other
purposes that were stored before. -/
theorem InForce.concat (inForce : settings.InForce requests)
    (stored : settings.store request.purpose (request.parameters.getD []) =
      .ok after) :
    after.InForce (requests ++ [request]) := by
  cases isFor : request.purpose with
  | compile | version | help =>
      rw [isFor] at stored
      obtain rfl := Except.ok.inj stored
      exact inForce.concat_of_ne (by simp [isFor]) rfl
        (inForce.xml.concat_of_ne (by simp [isFor, Setting.purpose]) rfl)
        (inForce.output.concat_of_ne (by simp [isFor, Setting.purpose]) rfl)
  | output =>
      rw [isFor] at stored
      obtain rfl := Except.ok.inj stored
      exact inForce.concat_of_ne (by simp [isFor]) rfl
        (inForce.xml.concat_of_ne (by simp [isFor, Setting.purpose]) rfl)
        (.concat isFor rfl rfl)
  | xml =>
      rw [isFor] at stored
      obtain rfl := Except.ok.inj stored
      exact inForce.concat_of_ne (by simp [isFor]) rfl (.concat isFor rfl rfl)
        (inForce.output.concat_of_ne (by simp [isFor, Setting.purpose]) rfl)
  | debug =>
      rw [isFor, store_debug] at stored
      cases run : debugFlag (request.parameters.getD []) with
      | error unknown =>
          rw [run] at stored
          cases stored
      | ok flag =>
          rw [run] at stored
          obtain rfl := Except.ok.inj stored
          refine ⟨?_, ?_,
            inForce.xml.concat_of_ne (by simp [isFor, Setting.purpose]) rfl,
            inForce.output.concat_of_ne (by simp [isFor, Setting.purpose])
              rfl⟩
          · rw [asksFor_concat isFor]
            exact isEnabled_withDebugFlag run rfl ofWord?_eq_tokens_iff
          · rw [asksFor_concat isFor]
            exact isEnabled_withDebugFlag run rfl ofWord?_eq_symbols_iff

/-- What is in force depends only on the requests for stored purposes. -/
theorem InForce.congr {others : List Request}
    (inForce : settings.InForce requests)
    (same : ∀ purpose ∈ [Purpose.debug, .output, .xml],
      occurrences requests purpose = occurrences others purpose) :
    settings.InForce others := by
  simp only [List.forall_mem_cons] at same
  obtain ⟨debug, output, xml, _⟩ := same
  obtain ⟨tokens, symbols, holdsXml, holdsOutput⟩ := inForce
  unfold AsksFor at tokens symbols
  rw [debug] at tokens symbols
  exact ⟨tokens, symbols, ⟨xml ▸ holdsXml.1, xml ▸ holdsXml.2⟩,
    ⟨output ▸ holdsOutput.1, output ▸ holdsOutput.2⟩⟩

end Store

end Settings

end JackToVm
