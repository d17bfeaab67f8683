import JackToVm.Build.Output
import JackToVm.CommandLine

/-!
# The application

The command line of the compiler and a whole run of it: from the arguments and
a disk to an exit code, the notices told and the disk afterwards.
-/

namespace JackToVm.Application

/-! ## What the application says about itself -/

def name : String := "jack_compiler"

def version : String := "0.2.0"

def author : String := "Leon Heidelbach <leon.heidelbach@hhu.de>"

def license : String := "GPL-3.0"

def description : String :=
  "Single-pass compiler from Jack source to stack VM code"

/-! ## The command line -/

/-- A flag that takes parameters and changes a setting, or takes none and runs
something. -/
def rules : List Rule :=
  [{ flag := 'h', longFlag := "help", usage := "-"
     description := "Print help"
     purpose := .help, least := 0, most := some 0, type := .executable },
   { flag := 'v', longFlag := "version", usage := "-"
     description := "Print version"
     purpose := .version, least := 0, most := some 0, type := .executable },
   { flag := 'd', longFlag := "debug", usage := "[(all|symbols|tokens)*]"
     description := "Debug print settings (default: all)"
     purpose := .debug, least := 0, most := none, type := .setting },
   { flag := 'o', longFlag := "output", usage := "<dir>"
     description := "Set the output directory for the generated files"
     purpose := .output, least := 1, most := some 1, type := .setting },
   { flag := 'x', longFlag := "xml", usage := "<dir>?"
     description :=
       "Also generate token and parse tree XML files in the given directory"
     purpose := .xml, least := 0, most := some 1, type := .setting },
   { flag := 'c', longFlag := "compile", usage := "[(<dir>|<file>.jack)+]"
     description :=
       "Compile the list of .jack files or all .jack files in the directory"
     purpose := .compile, least := 1, most := none, type := .executable }]

/-- The command line of the application. Without arguments it prints help. -/
def commandLine : CommandLine where
  rules := rules
  defaultRule := some 0

def headings : String :=
  "\n  Flag  Long Flag   Params                          Description" ++
    "\n  ----  ---------   ------                          -----------"

def help : Rich :=
  Rich.plain (author ++ " - ") ++ Rich.bold .cyan name ++
    Rich.plain (" v" ++ version ++ "\n\n") ++ Rich.bold .green "Usage:" ++
    Rich.plain " " ++ Rich.bold .cyan name ++ Rich.plain " " ++
    Rich.colored .yellow "[<Argument>*]" ++ Rich.plain "\n" ++
    Rich.bold .green headings ++ Rich.plain commandLine.usageTable

def versionText : Rich :=
  Rich.bold .green "Version:" ++ Rich.plain "     " ++ Rich.bold .cyan name ++
    Rich.plain (" v" ++ version ++ "\n") ++
    Rich.bold .green "Author:" ++ Rich.plain ("      " ++ author ++ "\n") ++
    Rich.bold .green "License:" ++ Rich.plain ("     " ++ license ++ "\n") ++
    Rich.bold .green "Description:" ++ Rich.plain (" " ++ description)

/-! ## Runs -/

/-- The state of a run between two requests. -/
structure RunState where
  settings : Settings
  build : BuildState

structure Outcome where
  exitCode : Nat
  notices : Array Notice
  disk : Disk

/-- The exit code of a run that fails. -/
def failureCode : Nat := 101

def RunState.tell (state : RunState) (notice : Notice) : RunState :=
  { state with
    build := { state.build with notices := state.build.notices.push notice } }

/-- Runs one request. A request that fails reports the failure and ends the
run. -/
def perform (request : Request) (state : RunState) :
    EStateM.Result Unit RunState Unit :=
  match request.purpose with
  | .help => .ok () (state.tell (.text help))
  | .version => .ok () (state.tell (.text versionText))
  | .compile =>
      match request.parameters with
      | none =>
          .error () (state.tell
            (.fault (Rich.plain "(ArgError) No input files provided!")))
      | some paths =>
          match (Build.fromPaths state.settings paths).run state.build with
          | .ok () build => .ok () { state with build := build }
          | .error cause build =>
              .error () (RunState.tell { state with build := build }
                (.error cause.message))
  | purpose =>
      match state.settings.store purpose (request.parameters.getD []) with
      | .ok settings => .ok () { state with settings := settings }
      | .error unknown =>
          .error () (state.tell (.fault (Rich.plain unknown.message)))

/-- Runs requests in order, up to the first one that fails. -/
def performAll : List Request → RunState → EStateM.Result Unit RunState Unit
  | [], state => .ok () state
  | request :: requests, state =>
      match perform request state with
      | .ok () state => performAll requests state
      | .error () state => .error () state

/-- A whole run with the given arguments. -/
def run (arguments : List String) (disk : Disk) : Outcome :=
  match commandLine.read arguments with
  | .error cause =>
      ⟨failureCode, #[.error (Rich.plain cause.message)], disk⟩
  | .ok line =>
      match performAll (line.calls.map Prod.snd) ⟨{}, ⟨disk, #[]⟩⟩ with
      | .ok () final => ⟨0, final.build.notices, final.build.disk⟩
      | .error () final =>
          ⟨failureCode, final.build.notices, final.build.disk⟩

end JackToVm.Application
