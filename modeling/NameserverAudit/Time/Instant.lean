import NameserverAudit.Time.Calendar
import NameserverAudit.Number.Double

/-!
Instants of universal time, to the microsecond, from the beginning of year 1 to the end of
year 9999; what calendar clocks show of them; and spans of time given in seconds.
-/

namespace NameserverAudit

namespace Instant

def second : Int := 1000000

def day : Int := 86400 * second

/-- The end of year 9999. -/
def limit : Int := Calendar.days * day

end Instant

/-- Microseconds since the beginning of year 1, in universal time, up to the end of year 9999. -/
@[ext]
structure Instant where
  microseconds : Int
  inRange : 0 ≤ microseconds ∧ microseconds < Instant.limit
deriving DecidableEq, Repr

namespace Instant

instance : Inhabited Instant := ⟨⟨0, by decide⟩⟩

def ofMicroseconds? (microseconds : Int) : Option Instant :=
  if h : 0 ≤ microseconds ∧ microseconds < limit then some ⟨microseconds, h⟩ else none

/-- The microseconds from the beginning of year 1 to that of 1970. -/
def epoch : Int := 719162 * day

/-- The instant that lies so many microseconds after the beginning of 1970. -/
def ofEpoch (microseconds : Nat)
    (h : microseconds < (limit - epoch).toNat := by decide)
    : Instant where
  microseconds := epoch + microseconds
  inRange := by
    have : limit = 315537897600000000 := by decide
    have : epoch = 62135596800000000 := by decide
    omega

/-- The beginning of 1970. -/
def atEpoch : Instant := .ofEpoch 0

theorem ofMicroseconds?_eq_some_iff {n : Int} {t : Instant}
    : ofMicroseconds? n = some t ↔ t.microseconds = n := by
  unfold ofMicroseconds?
  split
  · rw [Option.some.injEq, Instant.ext_iff, eq_comm]
  · next h =>
    simp only [reduceCtorEq, false_iff]
    rintro rfl
    exact h t.inRange

def padded (width n : Nat) : String :=
  let digits := Nat.toDigits 10 n
  String.ofList (List.replicate (width - digits.length) '0' ++ digits)

/-- The text of an instant: date, time, microseconds if there are any, and the zone. -/
def text (t : Instant) : String :=
  let date := Calendar.Date.ofDay (t.microseconds / day).toNat
  let micros := (t.microseconds % day).toNat
  let seconds := micros / 1000000
  let fraction := micros % 1000000
  padded 4 date.year ++ "-" ++ padded 2 date.month ++ "-" ++ padded 2 date.day ++ "T"
    ++ padded 2 (seconds / 3600) ++ ":" ++ padded 2 (seconds / 60 % 60) ++ ":"
    ++ padded 2 (seconds % 60)
    ++ (if fraction = 0 then "" else "." ++ padded 6 fraction)
    ++ "+00:00"

end Instant

/-- What a calendar clock shows, of the years 1 to 9999, and its offset from universal time in
microseconds, if it tells one. -/
structure Timestamp where
  wall : Instant
  offset : Option Int
deriving DecidableEq, Repr

namespace Timestamp

/-- What a clock of universal time shows. -/
def utc (t : Instant) : Timestamp :=
  ⟨t, some 0⟩

/-- The microseconds in universal time. A clock that tells no offset is one of universal
time. -/
def moment (t : Timestamp) : Int :=
  t.wall.microseconds - t.offset.getD 0

/-- The instant that is meant, if it lies in the years 1 to 9999. -/
def instant? (t : Timestamp) : Option Instant :=
  Instant.ofMicroseconds? t.moment

/-- Why two timestamps are not compared. -/
inductive Incomparable where
  /-- One clock tells its offset and the other one does not. -/
  | mixed
deriving DecidableEq, Repr

def Incomparable.message : Incomparable → String
  | .mixed => "can't compare offset-naive and offset-aware datetimes"

/-- The first timestamp is later than the second one. -/
def isAfter (s t : Timestamp) : Except Incomparable Bool :=
  if s.offset.isSome = t.offset.isSome then .ok (t.moment < s.moment) else .error .mixed

@[simp] theorem moment_utc (t : Instant) : (utc t).moment = t.microseconds := by
  simp [moment, utc]

@[simp] theorem instant?_utc (t : Instant) : (utc t).instant? = some t := by
  rw [instant?, moment_utc, Instant.ofMicroseconds?_eq_some_iff]

end Timestamp

/-- Why a number of seconds is not a span of time. -/
inductive SpanFault where
  | infinite
  | undefined
  | tooManyDays (days : Int)
  /-- The number of days does not even fit a machine word. -/
  | tooLarge
deriving DecidableEq, Repr

def SpanFault.message : SpanFault → String
  | .infinite => "cannot convert float infinity to integer"
  | .undefined => "cannot convert float NaN to integer"
  | .tooManyDays days => s!"days={days}; must have magnitude <= 999999999"
  | .tooLarge => "Python int too large to convert to C int"

/-- A length of time in seconds, as a whole or a floating-point number. -/
inductive Seconds where
  | whole (n : Int)
  | real (x : Double)
deriving DecidableEq, Repr

namespace Seconds

/-- The integer nearest to a quotient by a positive number; a half goes to the even one. -/
def roundQuotientInt (num : Int) (den : Nat) : Int :=
  let m : Int := Double.roundQuotient num.natAbs den
  if num < 0 then -m else m

/-- The microseconds of a finite number of seconds. Whole seconds are exact; the fraction is
first multiplied in floating point, and what is left of a microsecond is rounded. -/
def microsecondsOf (negative : Bool) (units : Nat) : Int :=
  let whole := units / Double.one
  let fraction : Double := .finite negative (units % Double.one)
  match fraction.mul (Double.ofInt 1000000) with
  | .finite s m =>
      roundQuotientInt
        (Double.signed negative (whole * 1000000) * Double.one + Double.signed s m) Double.one
  | _ => 0

/-- The microseconds of a span, if it is not too long. -/
def checked (microseconds : Int) : Except SpanFault Int :=
  let days := microseconds / Instant.day
  if days < -2147483648 ∨ 2147483647 < days then .error .tooLarge
  else if days < -999999999 ∨ 999999999 < days then .error (.tooManyDays days)
  else .ok microseconds

def toMicroseconds : Seconds → Except SpanFault Int
  | .whole n => checked (n * 1000000)
  | .real .nan => .error .undefined
  | .real (.infinite _) => .error .infinite
  | .real (.finite negative units) => checked (microsecondsOf negative units)

end Seconds

end NameserverAudit
