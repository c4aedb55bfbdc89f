import NameserverAudit.Number.Reading
import NameserverAudit.Text.Split
import NameserverAudit.Zone.RecordType

/-!
What entries are generated from: a range of numbers, and templates of a name and of data. In a
template a dollar sign stands for the number. Behind it may stand, in braces, an offset that is
added to the number, the least width of its text, and the base in which it is written.
-/

namespace NameserverAudit.Zone

/-- Numbers that are a step apart. -/
structure Range where
  first : Nat
  last : Nat
  step : Nat
  forward : first ≤ last
  moves : 0 < step
deriving DecidableEq, Repr

namespace Range

def numbers (r : Range) : List Nat :=
  (List.range ((r.last - r.first) / r.step + 1)).map fun k => r.first + r.step * k

def between? (first last step : Nat) : Option Range :=
  if h : first ≤ last ∧ 0 < step then some ⟨first, last, step, h.1, h.2⟩ else none

def number? (cs : List Char) : Option Nat :=
  if Reading.maxDigits < cs.length then none else RecordType.number? cs

/-- The range of a text such as `1-9` or `1-9/2`. A slash may come again: then the number in
front of it is the last one of the range. -/
def ofChars? (cs : List Char) : Option Range := do
  match Text.splitOn '/' cs with
  | [] => none
  | bounds :: more =>
      match Text.splitOn '-' bounds with
      | [first, last] =>
          let first ← number? first
          let others ← (last :: more).mapM number?
          match others.reverse with
          | [] => none
          | [last] => between? first last 1
          | step :: last :: _ => between? first last step
      | _ => none

end Range

inductive Base where
  | decimal
  | octal
  | hexadecimal (upper : Bool)
  /-- Hexadecimal digits, the last one first, with dots between them. -/
  | nibbles (upper : Bool)
deriving DecidableEq, Repr

namespace Base

def ofChar? : Char → Option Base
  | 'd' => some .decimal
  | 'o' => some .octal
  | 'x' => some (.hexadecimal false)
  | 'X' => some (.hexadecimal true)
  | 'n' => some (.nibbles false)
  | 'N' => some (.nibbles true)
  | _ => none

def radix : Base → Nat
  | .decimal => 10
  | .octal => 8
  | .hexadecimal _ | .nibbles _ => 16

def isUpper : Base → Bool
  | .hexadecimal upper | .nibbles upper => upper
  | _ => false

end Base

/-- Text with zeros in front of the digits, up to a width. -/
def zeroFilled (width : Nat) (negative : Bool) (digits : List Char) : List Char :=
  let sign := if negative then ['-'] else []
  sign ++ List.replicate (width - (sign ++ digits).length) '0' ++ digits

/-- The text of a number in a base. -/
def Base.text (b : Base) (width : Nat) (n : Int) : List Char :=
  let filled := zeroFilled width (n < 0) (Nat.toDigits b.radix n.natAbs)
  let written :=
    match b with
    | .nibbles _ => (filled.reverse.intersperse '.').take width
    | _ => filled
  if b.isUpper then written.map Char.toUpper else written

/-- What stands in braces behind a dollar sign; the mark is all that the number is put for. -/
structure Modifier where
  mark : List Char
  negative : Bool
  offset : List Char
  width : List Char
  base : Char
deriving DecidableEq, Repr

namespace Modifier

def digits (cs : List Char) : List Char × List Char :=
  cs.span fun c => (Text.digit? c).isSome

/-- A modifier with so many commas in front of a text. -/
def inFront? (commas : Nat) (cs : List Char) : Option Modifier :=
  let upTo (rest : List Char) : List Char := cs.take (cs.length - rest.length)
  match cs with
  | '$' :: '\x7b' :: rest =>
      let (negative, rest) := Reading.sign rest
      let (offset, rest) := digits rest
      if offset.isEmpty then none
      else
        match commas, rest with
        | 0, '\x7d' :: rest => some ⟨upTo rest, negative, offset, ['0'], 'd'⟩
        | commas + 1, ',' :: rest =>
            let (width, rest) := digits rest
            if width.isEmpty then none
            else
              match commas, rest with
              | 0, '\x7d' :: rest => some ⟨upTo rest, negative, offset, width, 'd'⟩
              | 1, ',' :: base :: '\x7d' :: rest =>
                  some ⟨upTo rest, negative, offset, width, base⟩
              | _, _ => none
        | _, _ => none
  | _ => none

/-- The last modifier with so many commas in a text. -/
def last? (commas : Nat) : List Char → Option Modifier
  | [] => none
  | c :: rest => (last? commas rest).or (inFront? commas (c :: rest))

/-- The modifier of a text: one with a base goes before one with only an offset. -/
def ofChars? (cs : List Char) : Option Modifier :=
  ((last? 2 cs).or (last? 0 cs)).or (last? 1 cs)

end Modifier

structure Template where
  text : List Char
  mark : List Char
  offset : Int
  width : Nat
  base : Base
deriving DecidableEq, Repr

inductive TemplateFault where
  | integerTooLong (digits : Nat)
  | unknownBase (c : Char)
deriving DecidableEq, Repr

namespace Template

/-- A text with something else for each mark in it; the number says how many characters of a mark
are still to be passed over. -/
def replaced (mark new : List Char) : Nat → List Char → List Char
  | _, [] => []
  | skipped + 1, _ :: rest => replaced mark new skipped rest
  | 0, c :: rest =>
      if mark.isPrefixOf (c :: rest) then new ++ replaced mark new (mark.length - 1) rest
      else c :: replaced mark new 0 rest

def ofChars (cs : List Char) : Except TemplateFault Template :=
  match Modifier.ofChars? cs with
  | none => .ok ⟨cs, ['$'], 0, 0, .decimal⟩
  | some m =>
      let value (ds : List Char) : Nat := (RecordType.number? ds).getD 0
      if Reading.maxDigits < m.offset.length then .error (.integerTooLong m.offset.length)
      else if Reading.maxDigits < m.width.length then .error (.integerTooLong m.width.length)
      else
        match Base.ofChar? m.base with
        | none => .error (.unknownBase m.base)
        | some base =>
            let offset := value m.offset
            .ok ⟨cs, m.mark, if m.negative then -offset else offset, value m.width, base⟩

/-- The width is one that a text can have. -/
def fits (t : Template) : Bool :=
  t.width < Nat.pow 2 63

/-- The text for a number. -/
def chars (t : Template) (n : Nat) : List Char :=
  replaced t.mark (t.base.text t.width (n + t.offset)) 0 t.text

end Template

end NameserverAudit.Zone
