/-!
# Time of day

The time stamp of a message: hours, minutes and seconds of the day in two
digits each, from the seconds that passed since the epoch.
-/

namespace JackToVm.Clock

def secondsPerDay : Nat := 24 * 3600

/-- A number below one hundred in two digits. -/
def twoDigits (number : Nat) : String :=
  if number < 10 then "0" ++ toString number else toString number

/-- The time of day of a moment, written `hh:mm:ss`. -/
def timeOfDay (secondsSinceEpoch : Nat) : String :=
  let today := secondsSinceEpoch % secondsPerDay
  twoDigits (today / 3600) ++ ":" ++ twoDigits (today / 60 % 60) ++ ":" ++
    twoDigits (today % 60)

end JackToVm.Clock
