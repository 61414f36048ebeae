import WebAudit.Number.Rounding

/-!
# Points in time

Seconds since the start of 1970 as a date and a time of day.
-/

namespace WebAudit

structure Timestamp where
  seconds : Int
  millis : Int := 0
deriving DecidableEq, Repr, Inhabited

structure Day where
  year : Int
  month : Nat
  day : Nat
deriving DecidableEq, Repr, Inhabited

/-- The day that comes a number of days after the first day of 1970. Years are counted from March on,
in cycles of four hundred years, so that a leap day is the last of its year. -/
def Day.ofEpoch (days : Int) : Day :=
  let shifted := days + 719468
  let cycle := Int.fdiv shifted 146097
  let inCycle := (shifted - cycle * 146097).toNat
  let yearOfCycle := (inCycle - inCycle / 1460 + inCycle / 36524 - inCycle / 146096) / 365
  let inYear := inCycle - (365 * yearOfCycle + yearOfCycle / 4 - yearOfCycle / 100)
  let m := (5 * inYear + 2) / 153
  let month := if m < 10 then m + 3 else m - 9
  let year := (yearOfCycle : Int) + cycle * 400 + (if month ≤ 2 then 1 else 0)
  ⟨year, month, inYear - (153 * m + 2) / 5 + 1⟩

namespace Timestamp

def twoDigits (n : Nat) : String :=
  String.ofList (Number.digitsPadded 2 n)

/-- Date, time of day and thousandths of a second. -/
def text (t : Timestamp) : String :=
  let days := Int.fdiv t.seconds 86400
  let rest := (t.seconds - days * 86400).toNat
  let d := Day.ofEpoch days
  let date := String.ofList (Number.digitsPadded 4 d.year.natAbs) ++ "-" ++ twoDigits d.month ++ "-" ++
    twoDigits d.day
  let time := twoDigits (rest / 3600) ++ ":" ++ twoDigits (rest / 60 % 60) ++ ":" ++
    twoDigits (rest % 60)
  date ++ " " ++ time ++ "," ++ String.ofList (Number.digitsPadded 3 t.millis.natAbs)

end Timestamp

end WebAudit
