import JackToVm.Style

/-!
# Notices

What a run tells its user, in the order of telling. Messages carry the time of
day; a message about a fault in the settings also carries the place that
reports it. Time and place are filled in when a notice is shown.
-/

namespace JackToVm

inductive Notice where
  | info (message : Rich)
  | error (message : Rich)
  /-- A message on a failure that names the place reporting it. -/
  | fault (message : Rich)
  /-- Text without a message head. -/
  | text (content : Rich)
deriving DecidableEq, Repr

/-- What is known only when a notice is shown. -/
structure Stamp where
  time : String
  /-- The place that reports a fault. -/
  place : String

namespace Notice

/-- Whether a notice belongs on the error stream. -/
def isFailure : Notice → Bool
  | .error _ | .fault _ => true
  | .info _ | .text _ => false

/-- The sign and the word that open a message, and its place if it has one. -/
def head (color : Color) (sign word : String) (stamp : Stamp)
    (located : Bool) : Rich :=
  Rich.plain "[" ++ Rich.bold color sign ++
    Rich.plain ("] [" ++ stamp.time ++ "] " ++
      (if located then "(" ++ stamp.place ++ "): [" else "[")) ++
    Rich.headline color word ++ Rich.plain "]: "

/-- The text of a notice, without the line break behind it. -/
def rich (stamp : Stamp) : Notice → Rich
  | .info message => head .green "+" "Info" stamp false ++ message
  | .error message => head .red "!" "Error" stamp false ++ message
  | .fault message => head .red "!" "Error" stamp true ++ message
  | .text content => content

/-- The text shown for a notice, without the line break behind it. -/
def render (palette : Palette) (stamp : Stamp) (notice : Notice) : String :=
  (notice.rich stamp).render palette

end Notice

end JackToVm
