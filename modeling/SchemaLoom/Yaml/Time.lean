import SchemaLoom.Calendar
import SchemaLoom.Number.Integer
import SchemaLoom.Yaml.Fault

/-!
Points in time of YAML: a day of the calendar, or a day with a time and perhaps an offset from
universal time.
-/
namespace SchemaLoom.Yaml

structure Date where
  year : Nat
  month : Nat
  day : Nat
  deriving DecidableEq, Repr

structure DateTime where
  date : Date
  hour : Nat
  minute : Nat
  second : Nat
  microsecond : Nat
  /-- Minutes ahead of universal time. -/
  offset : Option Int
  deriving DecidableEq, Repr

def Date.make (year month day : Nat) : Except Fault Date :=
  if year == 0 then .error (.badTimePart "year 0 is out of range")
  else if month == 0 || 12 < month then .error (.badTimePart "month must be in 1..12")
  else if day == 0 || daysOfMonth year month < day then
    .error (.badTimePart "day is out of range for month")
  else .ok ⟨year, month, day⟩

/-- Days and seconds as parts of a call, those that are zero left out. -/
def spanText (days : Int) (seconds : Int) : String :=
  let parts := (if days == 0 then [] else ["days=" ++ Number.text days]) ++
    (if seconds == 0 then [] else ["seconds=" ++ Number.text seconds])
  "datetime.timedelta(" ++ (if parts.isEmpty then "0" else ", ".intercalate parts) ++ ")"

/-- A count of minutes as whole days and the seconds of a last day. -/
def minutesText (minutes : Int) : String := spanText (minutes.fdiv 1440) (minutes.fmod 1440 * 60)

/-- An offset is less than a day in either direction. -/
def checkOffset (minutes : Int) : Except Fault Unit :=
  if 1440 ≤ minutes.natAbs then
    .error (.badTimePart ("offset must be a timedelta strictly between -timedelta(hours=24) and " ++
      "timedelta(hours=24), not " ++ minutesText minutes ++ "."))
  else .ok ()

def DateTime.make (year month day hour minute second microsecond : Nat) (offset : Option Int) :
    Except Fault DateTime := do
  if let some minutes := offset then checkOffset minutes
  let date ← Date.make year month day
  if 23 < hour then throw (.badTimePart "hour must be in 0..23")
  if 59 < minute then throw (.badTimePart "minute must be in 0..59")
  if 59 < second then throw (.badTimePart "second must be in 0..59")
  return ⟨date, hour, minute, second, microsecond, offset⟩

/-- A number with leading zeros up to a width. -/
def zeroPadded (width n : Nat) : String :=
  let digits := Nat.toDigits 10 n
  String.ofList (List.replicate (width - digits.length) '0' ++ digits)

def Date.text (d : Date) : String :=
  zeroPadded 4 d.year ++ "-" ++ zeroPadded 2 d.month ++ "-" ++ zeroPadded 2 d.day

def offsetText (minutes : Int) : String :=
  (if minutes < 0 then "-" else "+") ++ zeroPadded 2 (minutes.natAbs / 60) ++ ":" ++
    zeroPadded 2 (minutes.natAbs % 60)

def DateTime.text (t : DateTime) : String :=
  t.date.text ++ " " ++ zeroPadded 2 t.hour ++ ":" ++ zeroPadded 2 t.minute ++ ":" ++
    zeroPadded 2 t.second ++
    (if t.microsecond == 0 then "" else "." ++ zeroPadded 6 t.microsecond) ++
    (t.offset.map offsetText).getD ""

def Date.literal (d : Date) : String :=
  "datetime.date(" ++ ", ".intercalate ([d.year, d.month, d.day].map Number.natText) ++ ")"

/-- The zone of an offset as an expression. -/
def zoneLiteral (minutes : Int) : String :=
  if minutes == 0 then "datetime.timezone.utc"
  else "datetime.timezone(" ++ minutesText minutes ++ ")"

/-- The point in time as an expression; seconds and their fraction are left out where they are
zero. -/
def DateTime.literal (t : DateTime) : String :=
  let fine := if t.microsecond != 0 then [t.second, t.microsecond]
    else if t.second != 0 then [t.second]
    else []
  let numbers := [t.date.year, t.date.month, t.date.day, t.hour, t.minute] ++ fine
  "datetime.datetime(" ++
    ", ".intercalate (numbers.map Number.natText ++
      (t.offset.map fun m => "tzinfo=" ++ zoneLiteral m).toList) ++ ")"

end SchemaLoom.Yaml
