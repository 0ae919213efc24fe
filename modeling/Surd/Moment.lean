/-! Calendar dates and times of day, as a settings file may hold them. -/

namespace Surd

structure Day where
  year : Nat
  month : Nat
  day : Nat
  deriving DecidableEq, Repr, Inhabited

structure Clock where
  hour : Nat
  minute : Nat
  second : Nat
  micro : Nat
  deriving DecidableEq, Repr, Inhabited

/-- A date, a time of day, or both; minutes east of Greenwich where they are given. -/
inductive Moment where
  | date (day : Day)
  | time (clock : Clock)
  | instant (day : Day) (clock : Clock) (offset : Option Int)
  deriving DecidableEq, Repr, Inhabited

namespace Moment

def isLeap (year : Nat) : Bool := year % 4 == 0 && (year % 100 != 0 || year % 400 == 0)

def daysIn (year month : Nat) : Nat :=
  if month = 2 then (if isLeap year then 29 else 28)
  else if month = 4 ∨ month = 6 ∨ month = 9 ∨ month = 11 then 30 else 31

def isDay (day : Day) : Bool :=
  1 ≤ day.year && 1 ≤ day.month && day.month ≤ 12 && 1 ≤ day.day && day.day ≤ daysIn day.year day.month

/-- The numbers of a clock as they are written: seconds and microseconds only where
they or what follows them is not zero. -/
def clockFields (clock : Clock) : List Nat :=
  [clock.hour, clock.minute] ++
    (if clock.micro ≠ 0 then [clock.second, clock.micro]
     else if clock.second ≠ 0 then [clock.second] else [])

private def row (numbers : List Nat) : String := ", ".intercalate (numbers.map toString)

def offsetText (minutes : Int) : String :=
  if minutes = 0 then "datetime.timezone.utc"
  else
    let seconds := minutes * 60
    let days := seconds / 86400
    let rest := toString (seconds % 86400)
    "datetime.timezone(datetime.timedelta(" ++
      (if days = 0 then "seconds=" ++ rest
       else "days=" ++ toString days ++ ", seconds=" ++ rest) ++ "))"

def text : Moment → String
  | .date day => "datetime.date(" ++ row [day.year, day.month, day.day] ++ ")"
  | .time clock => "datetime.time(" ++ row (clockFields clock) ++ ")"
  | .instant day clock offset =>
    "datetime.datetime(" ++ row ([day.year, day.month, day.day] ++ clockFields clock) ++
      (match offset with
       | none => ""
       | some minutes => ", tzinfo=" ++ offsetText minutes) ++ ")"

def kind : Moment → String
  | .date _ => "date"
  | .time _ => "time"
  | .instant .. => "datetime"

end Moment
end Surd
