import JackToVm.CommandLine

/-!
# Settings in force

Which settings the requests of a command line ask for, said without storing
them: of several requests for one purpose the last one counts.
-/

namespace JackToVm

/-- Whether a word may stand behind the debug flag. -/
def IsDebugWord (word : String) : Prop :=
  word ∈ ["all", "symbols", "tokens"]

instance : DecidablePred IsDebugWord :=
  fun word => inferInstanceAs (Decidable (word ∈ _))

namespace CommandLine

/-- The parameters of the requests for a purpose, in order. -/
def occurrences (requests : List Request) (purpose : Purpose) :
    List (List String) :=
  (requests.filter (·.purpose == purpose)).map (·.parameters.getD [])

/-- Whether all words of the debug requests are known. -/
def KnowsWords (requests : List Request) : Prop :=
  ∀ words ∈ occurrences requests .debug, ∀ word ∈ words, IsDebugWord word

instance : DecidablePred KnowsWords :=
  fun requests => inferInstanceAs (Decidable
    (∀ words ∈ occurrences requests .debug, ∀ word ∈ words, IsDebugWord word))

/-- Requests ask for what a debug word stands for: the last debug request has
no words at all, or `all` or this word among them. -/
def AsksFor (requests : List Request) (word : String) : Prop :=
  ∃ words, (occurrences requests .debug).getLast? = some words ∧
    (words = [] ∨ "all" ∈ words ∨ word ∈ words)

end CommandLine

namespace Settings

open CommandLine (occurrences AsksFor)

/-- A setting is on exactly if there is a request for it, and then with the
parameters of the last one. -/
structure Holds (settings : Settings) (requests : List Request)
    (setting : Setting) : Prop where
  parameters_eq : settings.parameters? setting =
    (occurrences requests setting.purpose).getLast?
  stored_eq : (settings.stored setting).parameters =
    (occurrences requests setting.purpose).getLast?

/-- Settings are those that some requests ask for. -/
structure InForce (settings : Settings) (requests : List Request) :
    Prop where
  printTokens_iff : settings.isEnabled .printTokens = true ↔
    AsksFor requests "tokens"
  printSymbols_iff : settings.isEnabled .printSymbols = true ↔
    AsksFor requests "symbols"
  xml : settings.Holds requests .xml
  output : settings.Holds requests .output

end Settings

end JackToVm
