import JackToVm.Style

/-!
# Colours and the environment

How the variables of the environment decide on the colours that are shown.
They may force colours; if they do not, colours need a terminal (or the wish to
have the output treated as one), no wish against them, and a sign that the
terminal shows colours at all.
-/

namespace JackToVm

/-- The values of the variables that are set. -/
abbrev Environment := String → Option String

namespace Environment

/-- Whether a variable is set to something other than `0`. -/
def isOn (environment : Environment) (name : String) : Bool :=
  (environment name).any (· != "0")

/-- Whether the value of a variable that forces colours leaves them off: the
word for it, or a number that is zero. -/
def leavesOff (value : String) : Bool :=
  let digits :=
    match value.toList with
    | '+' :: rest => rest
    | all => all
  value == "false" || (!digits.isEmpty && digits.all (· == '0'))

/-- Whether colours are asked for also where nothing shows them. -/
def forcesColors (environment : Environment) : Bool :=
  match environment "FORCE_COLOR" with
  | some value => !leavesOff value
  | none => environment.isOn "CLICOLOR_FORCE"

/-- Whether colours are asked not to be shown. -/
def declinesColors (environment : Environment) : Bool :=
  environment.isOn "NO_COLOR" || environment "TERM" == some "dumb"

/-! ## Signs that colours are shown -/

/-- Whether the program runs on a build server; their logs show colours. -/
def isBuildServer (environment : Environment) : Bool :=
  (environment "CI").any (["true", "1", "woodpecker"].contains ·) ||
    (environment "CI_NAME").isSome

/-- Whether the place where the output is read shows colours. Every kind of
terminal does that is not declined; without a kind, another sign is needed. -/
def showsColors (environment : Environment) : Bool :=
  (environment "TERM").isSome || (environment "COLORTERM").isSome ||
    (environment "TERM_PROGRAM").any (["iTerm.app", "Apple_Terminal"].contains ·) ||
    environment.isOn "CLICOLOR" || environment.isBuildServer

/-- Every variable that has a say. -/
def variableNames : List String :=
  ["FORCE_COLOR", "CLICOLOR_FORCE", "NO_COLOR", "TERM", "IGNORE_IS_TERMINAL", "COLORTERM",
    "TERM_PROGRAM", "CLICOLOR", "CI", "CI_NAME"]

end Environment

/-- The palette for the given environment; `terminal` tells whether the output
goes to a terminal. -/
def Palette.ofEnvironment (environment : Environment) (terminal : Bool) : Palette :=
  if environment.forcesColors ||
      ((terminal || environment.isOn "IGNORE_IS_TERMINAL") &&
        !environment.declinesColors && environment.showsColors) then
    if (environment "COLORTERM").any (["truecolor", "24bit"].contains ·) then
      .trueColor
    else
      .bright
  else
    .plain

end JackToVm
