import JackToVm.Setting
import JackToVm.Text

/-!
# Command lines

The rules of a command line and the requests that its arguments make. A
command line is cut into flag arguments, which begin with a dash, and the
parameters that follow each of them; the rules of one flag argument take their
parameters one after another and leave none over.
-/

namespace JackToVm

/-- Whether a request changes a setting or runs something. Settings come
first. -/
inductive RuleType where
  | setting
  | executable
deriving DecidableEq, Repr

/-- A rule of a command line. What a rule is for is told by a value of any
type; the rules of the compiler use its purposes. -/
structure Rule (ι : Type := Purpose) where
  /-- The character behind a single dash. -/
  flag : Char
  /-- The word behind two dashes. -/
  longFlag : String
  usage : String
  description : String
  purpose : ι
  least : Nat
  /-- The largest number of parameters, if there is one. -/
  most : Option Nat
  type : RuleType
deriving DecidableEq, Repr

structure Request (ι : Type := Purpose) where
  type : RuleType
  purpose : ι
  /-- The parameters; none for the request that stands in for an empty command
  line. -/
  parameters : Option (List String)
deriving DecidableEq, Repr

/-- The rules of a command line and the requests made on it. -/
structure CommandLine (ι : Type := Purpose) where
  rules : List (Rule ι) := []
  /-- The place of the rule for an empty command line. -/
  defaultRule : Option Nat := none
  /-- The requests of the last command line that was read. -/
  requests : List (Request ι) := []
deriving DecidableEq, Repr

inductive ArgumentError where
  | invalidFlag (flag : String)
  /-- An argument that is neither a flag nor a parameter of one. -/
  | unexpected (argument : String)
  | missingParameters (argument : String)
deriving DecidableEq, Repr

def ArgumentError.message (error : ArgumentError) : String :=
  let (problem, subject) :=
    match error with
    | .invalidFlag flag => ("Invalid flag", flag)
    | .unexpected argument => ("Unexpected argument", argument)
    | .missingParameters argument =>
        ("Not enough parameters for flag", argument)
  "(ArgError) " ++ problem ++ ": `" ++ subject ++
    "`. Use `--help` for more information."

namespace CommandLine

variable {ι : Type}

/-! ## Rules -/

/-- What is reported for a rule whose numbers of parameters exclude each
other. -/
def ruleMessage : String :=
  "assertion failed: parameters_min <= parameters_max"

/-- The command line with one more rule; none if the rule asks for more
parameters than it allows. -/
def addRule? (line : CommandLine ι) (rule : Rule ι) :
    Option (CommandLine ι) :=
  if rule.most.all (rule.least ≤ ·) then
    some { line with rules := line.rules ++ [rule] }
  else
    none

/-- The command line with one more rule, which also answers an empty command
line. Such a rule runs something. -/
def addDefaultRule? (line : CommandLine ι) (rule : Rule ι) :
    Option (CommandLine ι) :=
  (line.addRule? { rule with type := .executable }).map fun extended =>
    { extended with defaultRule := some line.rules.length }

def usageTable (line : CommandLine ι) : String :=
  String.join (line.rules.map fun rule =>
    "\n  -" ++ String.singleton rule.flag ++ "    --" ++
      Text.padRight 9 rule.longFlag ++ " " ++ Text.padRight 29 rule.usage ++
      "   " ++ rule.description)

/-! ## Reading arguments -/

/-- Whether an argument is a flag argument: it begins with a dash. -/
def isFlagArgument (argument : String) : Bool :=
  argument.toList.head? == some '-'

/-- The arguments before the first flag argument, and every flag argument with
the parameters behind it. -/
def group : List String → List String × List (String × List String)
  | [] => ([], [])
  | argument :: others =>
      let (parameters, groups) := group others
      if isFlagArgument argument then
        ([], (argument, parameters) :: groups)
      else
        (argument :: parameters, groups)

/-- The first rule that satisfies a test, or the error about a flag. -/
def findRule (rules : List (Rule ι)) (flag : String) (test : Rule ι → Bool) :
    Except ArgumentError (Rule ι) :=
  match rules.find? test with
  | some rule => .ok rule
  | none => .error (.invalidFlag flag)

/-- The rules of a flag argument: the one of a long flag, or one for every
character behind a single dash. -/
def rulesOf (rules : List (Rule ι)) (argument : String) :
    Except ArgumentError (List (Rule ι)) :=
  match argument.toList with
  | '-' :: '-' :: word =>
      let word := String.ofList word
      (findRule rules word (·.longFlag == word)).map fun rule => [rule]
  | '-' :: c :: flags =>
      (c :: flags).mapM fun flag =>
        findRule rules (String.singleton flag) (·.flag == flag)
  | _ => .error (.unexpected argument)

/-- The requests of the rules of one flag argument. Each rule takes as many of
the parameters as it may, and the parameters left over are returned. -/
def requestsOf (argument : String) :
    List (Rule ι) → List String →
      Except ArgumentError (List (Request ι) × List String)
  | [], parameters => .ok ([], parameters)
  | rule :: rules, parameters =>
      let taken :=
        match rule.most with
        | some most => parameters.take most
        | none => parameters
      if taken.length < rule.least then
        .error (.missingParameters argument)
      else do
        let (requests, left) ←
          requestsOf argument rules (parameters.drop taken.length)
        return (⟨rule.type, rule.purpose, some taken⟩ :: requests, left)

/-- The requests of a flag argument, which must take all of its parameters. -/
def readGroup (rules : List (Rule ι)) (group : String × List String) :
    Except ArgumentError (List (Request ι)) := do
  let (requests, left) ←
    requestsOf group.1 (← rulesOf rules group.1) group.2
  match left with
  | [] => return requests
  | argument :: _ => throw (.unexpected argument)

def readRequests (rules : List (Rule ι)) (arguments : List String) :
    Except ArgumentError (List (Request ι)) := do
  let (leading, groups) := group arguments
  match leading with
  | [] => return (← groups.mapM (readGroup rules)).flatten
  | argument :: _ => throw (.unexpected argument)

/-- The command line with the requests of the given arguments in place of
those that were read before. -/
def read (line : CommandLine ι) (arguments : List String) :
    Except ArgumentError (CommandLine ι) := do
  return { line with requests := ← readRequests line.rules arguments }

/-! ## Running requests -/

/-- Requests with the settings before the rest, each in their order. -/
def settingsFirst (requests : List (Request ι)) : List (Request ι) :=
  requests.filter (·.type == .setting) ++
    requests.filter (·.type == .executable)

/-- The request that the rule for an empty command line makes. -/
def defaultRequest? (line : CommandLine ι) : Option (Nat × Request ι) := do
  let place ← line.defaultRule
  let rule ← line.rules[place]?
  return (place, ⟨rule.type, rule.purpose, none⟩)

/-- The requests to run, in order, each with the place of the rule that
answers it: the first one with the purpose of the request. -/
def calls [DecidableEq ι] (line : CommandLine ι) : List (Nat × Request ι) :=
  if line.requests.isEmpty then
    line.defaultRequest?.toList
  else
    (settingsFirst line.requests).filterMap fun request =>
      (line.rules.findIdx? (·.purpose == request.purpose)).map (·, request)

/-- The command line after its requests were run: they stay in the order in
which they were run. -/
def afterCalls (line : CommandLine ι) : CommandLine ι :=
  { line with requests := settingsFirst line.requests }

end CommandLine

end JackToVm
