import NameserverAudit.Number.Decimal
import NameserverAudit.Text.Blank
import NameserverAudit.Text.Digit
import NameserverAudit.Text.Quoted

/-!
Numbers read from text that a person wrote: white space around the number, a sign, digits of any
script, and single underscores between digits. An integer may have at most 4300 digits.
-/

namespace NameserverAudit.Reading

open NameserverAudit.Text

/-- The digits that go on after a digit, each with an underscore before it or not, and the
rest of the text. -/
def moreDigits : List Char → List Nat × List Char
  | [] => ([], [])
  | '_' :: c :: rest =>
      match digit? c with
      | none => ([], '_' :: c :: rest)
      | some d => (d :: (moreDigits rest).1, (moreDigits rest).2)
  | c :: rest =>
      match digit? c with
      | none => ([], c :: rest)
      | some d => (d :: (moreDigits rest).1, (moreDigits rest).2)

/-- The values of a run of digits in which single underscores may stand between digits, and
the rest of the text. -/
def digitRun : List Char → List Nat × List Char
  | [] => ([], [])
  | c :: rest =>
      match digit? c with
      | none => ([], c :: rest)
      | some d => (d :: (moreDigits rest).1, (moreDigits rest).2)

/-- The number that a list of digits stands for. -/
def ofDigits (ds : List Nat) : Nat :=
  ds.foldl (fun n d => 10 * n + d) 0

/-- A sign in front of a text, minus being `true`, and the rest. -/
def sign : List Char → Bool × List Char
  | '-' :: rest => (true, rest)
  | '+' :: rest => (false, rest)
  | cs => (false, cs)

/-- A character that may stand around a number: white space of Unicode. -/
def isSpace (c : Char) : Bool :=
  isBlank c && !(0x1c ≤ c.toNat && c.toNat ≤ 0x1f)

/-- The text without the white space around it. -/
def bare (s : String) : List Char :=
  dropRightWhile isSpace (s.toList.dropWhile isSpace)

/-- The greatest number of digits that an integer may have. -/
def maxDigits : Nat := 4300

inductive IntFault where
  | malformed (text : String)
  | tooLong (digits : Nat)
deriving DecidableEq, Repr

/-- The wording for an integer with too many digits. -/
def tooLong (digits : Nat) : String :=
  s!"Exceeds the limit ({maxDigits} digits) for integer string conversion: value has {digits}"
    ++ " digits; use sys.set_int_max_str_digits() to increase the limit"

/-- The wording of a fault; of a long text it shows the beginning. -/
def IntFault.message : IntFault → String
  | .malformed text =>
      "invalid literal for int() with base 10: " ++ String.ofList ((quoted text).toList.take 200)
  | .tooLong digits => Reading.tooLong digits

def int (s : String) : Except IntFault Int :=
  let (negative, body) := sign (bare s)
  let (ds, rest) := digitRun body
  if maxDigits < ds.length then .error (.tooLong ds.length)
  else if ds.isEmpty || !rest.isEmpty then .error (.malformed s)
  else .ok (if negative then -(ofDigits ds : Int) else ofDigits ds)

/-- An integer in decimal notation, if the text is one. -/
def int? (s : String) : Option Int :=
  (int s).toOption

/-- An exponent part and the rest of the text; a text without one has exponent zero. -/
def exponentPart (cs : List Char) : Int × List Char :=
  match cs with
  | c :: rest =>
      if c = 'e' || c = 'E' then
        let (negative, body) := sign rest
        let (ds, out) := digitRun body
        if ds.isEmpty then (0, cs)
        else (if negative then -(ofDigits ds : Int) else ofDigits ds, out)
      else (0, cs)
  | [] => (0, [])

/-- An unsigned decimal number with an optional fraction and exponent. -/
def decimal? (cs : List Char) : Option Double.Decimal :=
  let (whole, rest) := digitRun cs
  let (fraction, rest) :=
    match rest with
    | '.' :: more => digitRun more
    | _ => ([], rest)
  if whole.isEmpty && fraction.isEmpty then none
  else
    let (exponent, rest) := exponentPart rest
    if rest.isEmpty then
      some ⟨ofDigits (whole ++ fraction), exponent - fraction.length⟩
    else none

/-- ASCII letters in lower case; other characters as they are. -/
def lowerAscii (cs : List Char) : List Char :=
  cs.map Char.toLower

/-- A floating-point number in decimal notation, or the name of an infinity or of no number. -/
def double? (s : String) : Option Double :=
  let (negative, body) := sign (bare s)
  let word := lowerAscii body
  if word = "inf".toList || word = "infinity".toList then some (.infinite negative)
  else if word = "nan".toList then some .nan
  else (decimal? body).map (·.toDouble negative)

end NameserverAudit.Reading
