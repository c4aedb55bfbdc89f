import NameserverAudit.Json.Value
import NameserverAudit.Number.Reading

/-!
Reading JSON text. Besides the standard the reader takes `NaN`, `Infinity` and `-Infinity`.
A reader of a part returns the part and the rest of the text; a fault carries the text from
the faulty place on, so its place in the whole text is the difference of two lengths.
-/

namespace NameserverAudit.Json

inductive Problem where
  | expectingValue
  | expectingComma
  | expectingColon
  | expectingName
  | unterminatedString
  | controlCharacter
  | badEscape
  | badUnicodeEscape
  | extraData
  | byteOrderMark
deriving DecidableEq, Repr

def Problem.message : Problem → String
  | .expectingValue => "Expecting value"
  | .expectingComma => "Expecting ',' delimiter"
  | .expectingColon => "Expecting ':' delimiter"
  | .expectingName => "Expecting property name enclosed in double quotes"
  | .unterminatedString => "Unterminated string starting at"
  | .controlCharacter => "Invalid control character at"
  | .badEscape => "Invalid \\escape"
  | .badUnicodeEscape => "Invalid \\uXXXX escape"
  | .extraData => "Extra data"
  | .byteOrderMark => "Unexpected UTF-8 BOM (decode using utf-8-sig)"

inductive Stop where
  | malformed (problem : Problem) (rest : List Char)
  | integerTooLong (digits : Nat)
deriving Repr

inductive Fault where
  /-- The text is malformed at a line, a column and an offset. -/
  | malformed (problem : Problem) (line column offset : Nat)
  | integerTooLong (digits : Nat)
deriving DecidableEq, Repr

def Fault.message : Fault → String
  | .malformed problem line column offset =>
      s!"{problem.message}: line {line} column {column} (char {offset})"
  | .integerTooLong digits => Reading.tooLong digits

/-- A reader of a part: the part and the rest of the text. -/
abbrev Read (α : Type) := Except Stop (α × List Char)

def isSpace (c : Char) : Bool :=
  c = ' ' || c = '\t' || c = '\n' || c = '\r'

def skip (cs : List Char) : List Char :=
  cs.dropWhile isSpace

def hexValue? (c : Char) : Option Nat :=
  if '0' ≤ c && c ≤ '9' then some (c.toNat - '0'.toNat)
  else if 'a' ≤ c && c ≤ 'f' then some (c.toNat - 'a'.toNat + 10)
  else if 'A' ≤ c && c ≤ 'F' then some (c.toNat - 'A'.toNat + 10)
  else none

/-- The number that four hexadecimal digits stand for. -/
def hexQuad? (a b c d : Char) : Option Nat := do
  return ((← hexValue? a) * 16 + (← hexValue? b)) * 256
    + ((← hexValue? c) * 16 + (← hexValue? d))

def escape? : Char → Option Char
  | '"' => some '"'
  | '\\' => some '\\'
  | '/' => some '/'
  | 'b' => some '\x08'
  | 'f' => some '\x0c'
  | 'n' => some '\n'
  | 'r' => some '\r'
  | 't' => some '\t'
  | _ => none

def isHighUnit (n : Nat) : Bool := 0xd800 ≤ n && n ≤ 0xdbff

def isLowUnit (n : Nat) : Bool := 0xdc00 ≤ n && n ≤ 0xdfff

/-- The character of a code unit; half of a pair on its own is shown by the replacement
character. -/
def ofUnit (n : Nat) : Char :=
  if isHighUnit n || isLowUnit n then Char.ofNat 0xfffd else Char.ofNat n

def ofPair (high low : Nat) : Char :=
  Char.ofNat (0x10000 + (high - 0xd800) * 0x400 + (low - 0xdc00))

/-- A string after its opening quote; `start` is the text from that quote on, and `read` holds
the characters read so far, last first. -/
def stringBody (start read : List Char) : List Char → Read String
  | [] => .error (.malformed .unterminatedString start)
  | '"' :: rest => .ok (String.ofList read.reverse, rest)
  | ['\\'] => .error (.malformed .unterminatedString start)
  | '\\' :: 'u' :: a :: b :: c :: d :: '\\' :: 'u' :: e :: f :: g :: h :: next :: rest =>
      match hexQuad? a b c d with
      | none =>
          .error (.malformed .badUnicodeEscape
            ('u' :: a :: b :: c :: d :: '\\' :: 'u' :: e :: f :: g :: h :: next :: rest))
      | some high =>
          if isHighUnit high then
            match hexQuad? e f g h with
            | none =>
                .error (.malformed .badUnicodeEscape
                  ('u' :: e :: f :: g :: h :: next :: rest))
            | some low =>
                if isLowUnit low then
                  stringBody start (ofPair high low :: read) (next :: rest)
                else
                  stringBody start (ofUnit high :: read)
                    ('\\' :: 'u' :: e :: f :: g :: h :: next :: rest)
          else
            stringBody start (ofUnit high :: read)
              ('\\' :: 'u' :: e :: f :: g :: h :: next :: rest)
  | '\\' :: 'u' :: a :: b :: c :: d :: next :: rest =>
      match hexQuad? a b c d with
      | none => .error (.malformed .badUnicodeEscape ('u' :: a :: b :: c :: d :: next :: rest))
      | some n => stringBody start (ofUnit n :: read) (next :: rest)
  | '\\' :: 'u' :: rest => .error (.malformed .badUnicodeEscape ('u' :: rest))
  | '\\' :: c :: rest =>
      match escape? c with
      | none => .error (.malformed .badEscape ('\\' :: c :: rest))
      | some e => stringBody start (e :: read) rest
  | c :: rest =>
      if c.toNat < 0x20 then .error (.malformed .controlCharacter (c :: rest))
      else stringBody start (c :: read) rest

/-- The text after a word, if it starts with the word. -/
def after? (word : String) (cs : List Char) : Option (List Char) :=
  let w := word.toList
  if w.isPrefixOf cs then some (cs.drop w.length) else none

def isDigit (c : Char) : Bool := '0' ≤ c && c ≤ '9'

def ofDigits (cs : List Char) : Nat :=
  cs.foldl (fun n c => 10 * n + (c.toNat - '0'.toNat)) 0

/-- The digits of a whole number without superfluous zeros, and the rest. -/
def wholePart? : List Char → Option (List Char × List Char)
  | '0' :: rest => some (['0'], rest)
  | cs =>
      let digits := cs.takeWhile isDigit
      if digits.isEmpty then none else some (digits, cs.drop digits.length)

/-- The digits of a fraction, and the rest; no fraction has no digits. -/
def fractionPart (cs : List Char) : List Char × List Char :=
  match cs with
  | '.' :: rest =>
      let digits := rest.takeWhile isDigit
      if digits.isEmpty then ([], cs) else (digits, rest.drop digits.length)
  | _ => ([], cs)

def exponentPart (cs : List Char) : Option Int × List Char :=
  match cs with
  | c :: rest =>
      if c = 'e' || c = 'E' then
        let (negative, body) := Reading.sign rest
        let digits := body.takeWhile isDigit
        if digits.isEmpty then (none, cs)
        else
          let n : Int := ofDigits digits
          (some (if negative then -n else n), body.drop digits.length)
      else (none, cs)
  | [] => (none, [])

def unsigned? (negative : Bool) (cs : List Char) : Option (Read Json) :=
  match wholePart? cs with
  | none => none
  | some (whole, rest) =>
      let (fraction, rest) := fractionPart rest
      let (exponent, rest) := exponentPart rest
      if fraction.isEmpty && exponent.isNone then
        if Reading.maxDigits < whole.length then some (.error (.integerTooLong whole.length))
        else
          let n : Int := ofDigits whole
          some (.ok (.int (if negative then -n else n), rest))
      else
        let d : Double.Decimal :=
          ⟨ofDigits (whole ++ fraction), exponent.getD 0 - fraction.length⟩
        some (.ok (.float (d.toDouble negative), rest))

def number? : List Char → Option (Read Json)
  | '-' :: rest => unsigned? true rest
  | cs => unsigned? false cs

def words : List (String × Json) := [
  ("null", .null), ("true", .bool true), ("false", .bool false), ("NaN", .float .nan),
  ("Infinity", .float (.infinite false)), ("-Infinity", .float (.infinite true))]

def word? (cs : List Char) : Option (Json × List Char) :=
  words.findSome? fun entry => (after? entry.1 cs).map (entry.2, ·)

def scalar (cs : List Char) : Read Json :=
  match word? cs with
  | some out => .ok out
  | none => (number? cs).getD (.error (.malformed .expectingValue cs))

mutual

/-- A value; the fuel bounds how many values and separators may follow one another. -/
def value : Nat → List Char → Read Json
  | 0, cs => .error (.malformed .expectingValue cs)
  | fuel + 1, cs =>
      match cs with
      | '"' :: rest =>
          match stringBody cs [] rest with
          | .error stop => .error stop
          | .ok (s, rest) => .ok (.str s, rest)
      | '[' :: rest =>
          match skip rest with
          | ']' :: rest => .ok (.array [], rest)
          | rest =>
              match elements fuel rest with
              | .error stop => .error stop
              | .ok (items, rest) => .ok (.array items, rest)
      | '{' :: rest =>
          match skip rest with
          | '}' :: rest => .ok (.object [], rest)
          | rest =>
              match members fuel rest with
              | .error stop => .error stop
              | .ok (fields, rest) => .ok (ofFields fields, rest)
      | _ => scalar cs

/-- The values of a list, from the first one to the closing bracket. -/
def elements : Nat → List Char → Read (List Json)
  | 0, cs => .error (.malformed .expectingValue cs)
  | fuel + 1, cs =>
      match value fuel cs with
      | .error stop => .error stop
      | .ok (item, rest) =>
          match skip rest with
          | ']' :: rest => .ok ([item], rest)
          | ',' :: rest =>
              match elements fuel (skip rest) with
              | .error stop => .error stop
              | .ok (items, rest) => .ok (item :: items, rest)
          | rest => .error (.malformed .expectingComma rest)

/-- The fields of an object, from the first name to the closing brace. -/
def members : Nat → List Char → Read (List (String × Json))
  | 0, cs => .error (.malformed .expectingName cs)
  | fuel + 1, cs =>
      match cs with
      | '"' :: rest =>
          match stringBody cs [] rest with
          | .error stop => .error stop
          | .ok (name, rest) =>
              match skip rest with
              | ':' :: rest =>
                  match value fuel (skip rest) with
                  | .error stop => .error stop
                  | .ok (item, rest) =>
                      match skip rest with
                      | '}' :: rest => .ok ([(name, item)], rest)
                      | ',' :: rest =>
                          match members fuel (skip rest) with
                          | .error stop => .error stop
                          | .ok (fields, rest) => .ok ((name, item) :: fields, rest)
                      | rest => .error (.malformed .expectingComma rest)
              | rest => .error (.malformed .expectingColon rest)
      | _ => .error (.malformed .expectingName cs)

end

/-- One value with nothing but blanks around it. -/
def document (cs : List Char) : Except Stop Json :=
  if cs.head? = some (Char.ofNat 0xfeff) then .error (.malformed .byteOrderMark cs)
  else
    match value (2 * cs.length + 2) (skip cs) with
    | .error stop => .error stop
    | .ok (v, rest) =>
        match skip rest with
        | [] => .ok v
        | rest => .error (.malformed .extraData rest)

/-- The line and the column of an offset, both counted from one. -/
def lineColumn (cs : List Char) (offset : Nat) : Nat × Nat :=
  let before := cs.take offset
  (before.count '\n' + 1, (before.reverse.takeWhile (· ≠ '\n')).length + 1)

/-- The fault of a text at which reading stopped. -/
def Stop.toFault (cs : List Char) : Stop → Fault
  | .malformed problem rest =>
      let offset := cs.length - rest.length
      let place := lineColumn cs offset
      .malformed problem place.1 place.2 offset
  | .integerTooLong digits => .integerTooLong digits

def parse (text : String) : Except Fault Json :=
  let cs := text.toList
  match document cs with
  | .ok v => .ok v
  | .error stop => .error (stop.toFault cs)

end NameserverAudit.Json
