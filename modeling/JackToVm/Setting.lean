/-!
# Settings

What the arguments of the command line turn on. A setting is a bit of a flag
word; the words of the debug argument and the settings that store their
parameters share one encoding.
-/

namespace JackToVm

inductive Purpose where
  | compile
  | version
  | help
  | debug
  | output
  | xml
deriving DecidableEq, Repr

inductive Setting where
  | printAll
  | printSymbols
  | printTokens
  | output
  | xml
deriving DecidableEq, Repr

namespace Setting

def bit : Setting → Nat
  | .printAll => 2
  | .printSymbols => 4
  | .printTokens => 8
  | .output => 16
  | .xml => 32

def purpose : Setting → Purpose
  | .printAll | .printSymbols | .printTokens => .debug
  | .output => .output
  | .xml => .xml

/-- The setting that a word of the debug argument turns on. -/
def ofWord? : String → Option Setting
  | "all" => some .printAll
  | "symbols" => some .printSymbols
  | "tokens" => some .printTokens
  | _ => none

end Setting

/-- The flag word of an argument, and whether its parameters are stored with
it. -/
structure FlagValue where
  flag : Nat
  store : Bool
deriving DecidableEq, Repr

namespace Purpose

/-- The value of an argument without parameters. -/
def defaultValue : Purpose → FlagValue
  | .debug => ⟨Setting.printAll.bit, false⟩
  | .output => ⟨Setting.output.bit, true⟩
  | .xml => ⟨Setting.xml.bit, true⟩
  | .compile | .version | .help => ⟨0, false⟩

end Purpose

/-- A word of the debug argument that names no setting. -/
structure UnknownWord where
  word : String
deriving DecidableEq, Repr

def UnknownWord.message (unknown : UnknownWord) : String :=
  "(ArgError) Unknown debug setting `" ++ unknown.word ++ "`"

/-- The bits of the words of a debug argument together. -/
def debugFlag (words : List String) : Except UnknownWord Nat :=
  words.foldlM (fun flag word =>
    match Setting.ofWord? word with
    | some setting => .ok (flag ||| setting.bit)
    | none => .error ⟨word⟩) 0

/-- The value of an argument with the given parameters. Only the debug
argument reads them; without any it has its default. -/
def Purpose.value (purpose : Purpose) (parameters : List String)
    (default : FlagValue) : Except UnknownWord FlagValue :=
  match purpose with
  | .debug => do
      let flag ← debugFlag parameters
      return { default with flag := if flag = 0 then default.flag else flag }
  | _ => .ok default

/-! ## Stored settings -/

/-- What is stored for an argument: nothing is on at first. -/
structure StoredValue where
  flag : Nat := 0
  parameters : Option (List String) := none
deriving DecidableEq, Repr

structure Settings where
  debug : StoredValue := {}
  output : StoredValue := {}
  xml : StoredValue := {}
deriving DecidableEq, Repr

namespace Settings

def stored (settings : Settings) (setting : Setting) : StoredValue :=
  match setting with
  | .printAll | .printSymbols | .printTokens => settings.debug
  | .output => settings.output
  | .xml => settings.xml

/-- Stores an argument with its parameters; a later one replaces an earlier
one. Arguments that run something are not stored. -/
def store (settings : Settings) (purpose : Purpose)
    (parameters : List String) : Except UnknownWord Settings := do
  let value ← purpose.value parameters purpose.defaultValue
  let stored : StoredValue :=
    ⟨value.flag, if value.store then some parameters else none⟩
  return match purpose with
    | .debug => { settings with debug := stored }
    | .output => { settings with output := stored }
    | .xml => { settings with xml := stored }
    | .compile | .version | .help => settings

def isSet (settings : Settings) (setting : Setting) : Bool :=
  (settings.stored setting).flag &&& setting.bit != 0

/-- The parameters stored with a setting that is on. -/
def parameters? (settings : Settings) (setting : Setting) :
    Option (List String) :=
  if settings.isSet setting then
    some ((settings.stored setting).parameters.getD [])
  else
    none

/-- Whether a setting is on, by itself or, for a debug setting, by the one
that stands for all of them. -/
def isEnabled (settings : Settings) (setting : Setting) : Bool :=
  (setting.purpose == .debug && settings.isSet .printAll) ||
    settings.isSet setting

end Settings

end JackToVm
