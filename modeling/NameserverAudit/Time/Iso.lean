import NameserverAudit.Time.Instant
import NameserverAudit.Text.Quoted

/-!
Reading dates and times in the forms of ISO 8601: calendar and week dates, with or without
dashes; any character between date and time; times cut after the hours, the minutes or the
seconds, with or without colons, with a fraction of a second after a point or a comma; and an
offset from universal time, if there is one.
-/

namespace NameserverAudit.Iso

inductive Fault where
  | malformed (text : String)
  | year (n : Nat)
  | month
  | day
  | hour
  | minute
  | second
  | microsecond
  /-- The offset, in microseconds, is a day or more. -/
  | offset (microseconds : Int)
deriving DecidableEq, Repr

/-- A span as a message shows it: days, then seconds and microseconds of a day, without what
is zero. -/
def displaySpan (microseconds : Int) : String :=
  let days := microseconds / Instant.day
  let seconds := microseconds % Instant.day / Instant.second
  let rest := microseconds % Instant.second
  let parts :=
    (if days = 0 then [] else [s!"days={days}"])
      ++ (if seconds = 0 then [] else [s!"seconds={seconds}"])
      ++ (if rest = 0 then [] else [s!"microseconds={rest}"])
  "datetime.timedelta(" ++ (if parts.isEmpty then "0" else ", ".intercalate parts) ++ ")"

def Fault.message : Fault → String
  | .malformed text => s!"Invalid isoformat string: {Text.quoted text}"
  | .year n => s!"year {n} is out of range"
  | .month => "month must be in 1..12"
  | .day => "day is out of range for month"
  | .hour => "hour must be in 0..23"
  | .minute => "minute must be in 0..59"
  | .second => "second must be in 0..59"
  | .microsecond => "microsecond must be in 0..999999"
  | .offset us =>
      "offset must be a timedelta strictly between -timedelta(hours=24) and "
        ++ s!"timedelta(hours=24), not {displaySpan us}."

def isDigit (c : Char) : Bool := '0' ≤ c && c ≤ '9'

def ofDigits (cs : List Char) : Nat :=
  cs.foldl (fun n c => 10 * n + (c.toNat - '0'.toNat)) 0

/-- Exactly `count` digits in front, and the rest. -/
def digits? (count : Nat) (cs : List Char) : Option (Nat × List Char) :=
  let ds := cs.take count
  if ds.length = count && ds.all isDigit then some (ofDigits ds, cs.drop count) else none

/-- Where the separator of date and time stands. In a week date with dashes, two digits after
the second dash are a time; in one without dashes, the parity of the number of digits tells
whether there is a day of the week. -/
def separatorPlace? (cs : List Char) : Option Nat :=
  if cs.length = 7 then some 7
  else if cs[4]? = some '-' then
    if cs[5]? = some 'W' then
      if cs[8]? = some '-' then
        if cs.length = 9 then none
        else if (cs[10]?.map isDigit).getD false then some 8
        else some 10
      else some 8
    else some 10
  else if cs[4]? = some 'W' then
    let stop := 7 + ((cs.drop 7).takeWhile isDigit).length
    if stop < 9 then some stop
    else if stop % 2 = 0 then some 7
    else some 8
  else some 8

/-- The day of a week date, as a day of the calendar that may lie outside its years. -/
def weekDate? (year week day : Nat) : Option Int :=
  if (week < 1 ∨ 53 ≤ week) ∧ ¬(week = 53 ∧ Calendar.hasLongCalendar year) then none
  else if day < 1 ∨ 8 ≤ day then none
  else some (Calendar.firstMonday year + ((week : Int) - 1) * 7 + (day - 1))

/-- A date without a month, for the days of the year 0, which the calendar does not have. -/
def noDate : Calendar.Date := ⟨1, 0, 1⟩

def date? (cs : List Char) : Option Calendar.Date := do
  let (year, rest) ← digits? 4 cs
  let dashed := rest.head? = some '-'
  let rest := if dashed then rest.drop 1 else rest
  if rest.head? = some 'W' then
    let (week, rest) ← digits? 2 (rest.drop 1)
    let day ←
      if rest.isEmpty then some 1
      else if dashed && rest.head? ≠ some '-' then none
      else (digits? 1 (if dashed then rest.drop 1 else rest)).map (·.1)
    let n ← weekDate? year week day
    return if year = 0 then noDate else Calendar.Date.ofDay n.toNat
  else
    let (month, rest) ← digits? 2 rest
    if dashed && rest.head? ≠ some '-' then none
    else
      let (day, rest) ← digits? 2 (if dashed then rest.drop 1 else rest)
      if rest.isEmpty then return ⟨year, month, day⟩ else none

structure Clock where
  hour : Nat
  minute : Nat
  second : Nat
  microsecond : Nat
deriving DecidableEq, Repr

def Clock.seconds (c : Clock) : Nat :=
  c.hour * 3600 + c.minute * 60 + c.second

/-- A fraction of a second: at most six digits count and further digits are skipped. The flag
says that text is left over, which `more` text after the part also makes true. -/
def fraction? (more : Bool) (c : Clock) (cs : List Char) : Option (Clock × Bool) := do
  let count := min 6 cs.length
  let (n, rest) ← digits? count cs
  let left := rest.dropWhile isDigit
  return (⟨c.hour, c.minute, c.second, n * Nat.pow 10 (6 - count)⟩, more || !left.isEmpty)

def isPoint (c : Char) : Bool := c = '.' || c = ','

def isAscii (c : Char) : Bool := c.toNat < 0x80

/-- A time of day that fills a part of the text; a single character of ASCII after the hours,
the minutes or the seconds is left over. -/
def clock? (more : Bool) (cs : List Char) : Option (Clock × Bool) := do
  let (hour, rest) ← digits? 2 cs
  match rest with
  | [] => return (⟨hour, 0, 0, 0⟩, more)
  | [c] => if isAscii c then return (⟨hour, 0, 0, 0⟩, true) else none
  | mark :: body =>
      let colons := mark = ':'
      if isPoint mark then fraction? more ⟨hour, 0, 0, 0⟩ body
      else
        let (minute, rest) ← digits? 2 (if colons then body else rest)
        match rest with
        | [] => return (⟨hour, minute, 0, 0⟩, more)
        | [c] => if isAscii c then return (⟨hour, minute, 0, 0⟩, true) else none
        | mark :: body =>
            if isPoint mark then fraction? more ⟨hour, minute, 0, 0⟩ body
            else if colons && mark ≠ ':' then none
            else
              let (second, rest) ← digits? 2 (if colons then body else rest)
              match rest with
              | [] => return (⟨hour, minute, second, 0⟩, more)
              | [c] => if isAscii c then return (⟨hour, minute, second, 0⟩, true) else none
              | mark :: body =>
                  let c : Clock := ⟨hour, minute, second, 0⟩
                  if isPoint mark then fraction? more c body
                  else if !colons then fraction? more c rest
                  else if mark = ':' then fraction? more c body
                  else none

/-- A time of day and its offset from universal time in microseconds, if it has one. -/
def time? (cs : List Char) : Option (Clock × Option Int) := do
  let body := cs.takeWhile fun c => !(c = '+' || c = '-' || c = 'Z')
  match cs.drop body.length with
  | [] =>
      let (c, left) ← clock? false body
      if left then none else return (c, none)
  | mark :: zone =>
      let (c, _) ← clock? true body
      if mark = 'Z' then if zone.isEmpty then return (c, some 0) else none
      else
        let (offset, left) ← clock? false zone
        if left then none
        else if offset.seconds = 0 then return (c, some 0)
        else
          let us : Int := offset.seconds * 1000000 + offset.microsecond
          return (c, some (if mark = '-' then -us else us))

/-- The parts of a text: the date, and the time with its offset. -/
def parts? (cs : List Char) : Option (Calendar.Date × Clock × Option Int) := do
  if cs.length < 7 then none
  else
    let place ← separatorPlace? cs
    let date ← date? (cs.take place)
    match cs.drop place with
    | [] => return (date, ⟨0, 0, 0, 0⟩, none)
    | _ :: body =>
        let (c, offset) ← time? body
        return (date, c, offset)

/-- The microseconds of a date and a time of day since the beginning of year 1. -/
def microsecondsOf (date : Calendar.Date) (c : Clock) : Nat :=
  date.toDay * 86400000000 + c.seconds * 1000000 + c.microsecond

/-- A time of day. -/
structure Clock.Valid (c : Clock) : Prop where
  hour : c.hour ≤ 23
  minute : c.minute ≤ 59
  second : c.second ≤ 59
  microsecond : c.microsecond < 1000000

/-- A time of day of a date lies before the end of year 9999. -/
theorem microsecondsOf_lt {date : Calendar.Date} {c : Clock} (date_valid : date.Valid)
    (clock_valid : c.Valid)
    : microsecondsOf date c < Calendar.days * 86400000000 := by
  have := date_valid.toDay_lt
  obtain ⟨hour, minute, second, microsecond⟩ := clock_valid
  unfold microsecondsOf Clock.seconds
  omega

/-- The time that a date and a time of day show, each part of which has to be in range. -/
def wall (date : Calendar.Date) (c : Clock) : Except Fault Instant :=
  if year : date.year < 1 ∨ 9999 < date.year then .error (.year date.year)
  else if month : date.month < 1 ∨ 12 < date.month then .error .month
  else if day : date.day < 1 ∨ Calendar.monthLength date.year date.month < date.day then
    .error .day
  else if hour : 23 < c.hour then .error .hour
  else if minute : 59 < c.minute then .error .minute
  else if second : 59 < c.second then .error .second
  else if microsecond : 999999 < c.microsecond then .error .microsecond
  else
    have before : microsecondsOf date c < Calendar.days * 86400000000 :=
      microsecondsOf_lt
        ⟨by omega, by omega, by omega, by omega, by omega, by omega⟩
        ⟨by omega, by omega, by omega, by omega⟩
    .ok ⟨microsecondsOf date c, Int.natCast_nonneg _, Int.ofNat_lt.2 before⟩

/-- What a date, a time of day and an offset show. An offset is less than a day. -/
def assemble (date : Calendar.Date) (c : Clock) (offset : Option Int)
    : Except Fault Timestamp :=
  let us := offset.getD 0
  if us ≤ -Instant.day ∨ Instant.day ≤ us then .error (.offset us)
  else
    match wall date c with
    | .error fault => .error fault
    | .ok shown => .ok ⟨shown, offset⟩

/-- What the clock shows that a text is of. A final `Z` is read as the offset zero. -/
def parse (text : String) : Except Fault Timestamp :=
  let cs := text.toList
  let cs := if cs.getLast? = some 'Z' then cs.dropLast ++ "+00:00".toList else cs
  match parts? cs with
  | none => .error (.malformed (String.ofList cs))
  | some (date, c, offset) => assemble date c offset

end NameserverAudit.Iso
