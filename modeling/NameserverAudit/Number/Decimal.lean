import NameserverAudit.Number.Double

/-!
Decimal text of doubles. A finite number is shown by the fewest digits that read back as the
same number, the nearest such digits where there are several, and an exact tie goes to the
even digit. A `Layout` then says where the point stands. Main statement: a hit on a grid reads
back as the number it was chosen for.
-/

namespace NameserverAudit.Double

/-- A decimal number without sign: `digits · 10 ^ exponent`. -/
structure Decimal where
  digits : Nat
  exponent : Int
deriving DecidableEq, Repr

namespace Decimal

/-- A decimal exponent beyond which a number with few digits is zero or infinite. -/
def reach : Nat := 800

def length (n : Nat) : Nat := (Nat.toDigits 10 n).length

/-- The double nearest to a decimal number. Far beyond the range of doubles the answer is zero
or infinite, and no power is computed. -/
def toDouble (negative : Bool) (d : Decimal) : Double :=
  if d.digits = 0 then .finite negative 0
  else if (reach : Int) < length d.digits + d.exponent then .infinite negative
  else if length d.digits + d.exponent < -(reach : Int) then .finite negative 0
  else if 0 ≤ d.exponent then ofRatio negative (d.digits * Nat.pow 10 d.exponent.toNat) 1
  else ofRatio negative d.digits (Nat.pow 10 (-d.exponent).toNat)

/-- The exact decimal value of a count of units. -/
def exact (units : Nat) : Decimal :=
  ⟨units * Nat.pow 5 1074, -1074⟩

/-- The exponent of the leading decimal digit of a positive count of units. -/
def leading (units : Nat) : Int :=
  (length (units * Nat.pow 10 330 / one) : Int) - 331

/-- A decimal number reads back as the count of units. -/
def ReadsAs (units : Nat) (d : Decimal) : Prop :=
  d.toDouble false = .finite false units

instance (units : Nat) (d : Decimal) : Decidable (ReadsAs units d) :=
  inferInstanceAs (Decidable (_ = _))

/-- The two decimal numbers of `count` digits next to a value, the nearer one first. -/
def neighbours (units count : Nat) : List Decimal :=
  let e := leading units + 1 - count
  let num := if 0 ≤ e then units else units * Nat.pow 10 (-e).toNat
  let den := if 0 ≤ e then one * Nat.pow 10 e.toNat else one
  let below : Decimal := ⟨num / den, e⟩
  let above : Decimal := ⟨num / den + 1, e⟩
  let gap := 2 * (num % den)
  if gap < den || (gap == den && below.digits % 2 == 0) then [below, above]
  else [above, below]

/-- The nearest decimal number of `count` digits that reads back, if there is one. -/
def onGrid? (units count : Nat) : Option Decimal :=
  (neighbours units count).find? fun d => ReadsAs units d

/-- The first grid, from coarse to fine, that has a hit. -/
def search (units : Nat) : (attempts count : Nat) → Decimal
  | 0, _ => exact units
  | attempts + 1, count => (onGrid? units count).getD (search units attempts (count + 1))

/-- The shortest decimal number that reads back as the count of units. -/
def shortest (units : Nat) : Decimal :=
  search units 17 1

theorem readsAs_of_onGrid? {units count : Nat} {d : Decimal}
    (h : onGrid? units count = some d)
    : ReadsAs units d := by
  simpa using List.find?_some h

end Decimal

structure Layout where
  /-- The least decimal exponent that is written without an exponent. -/
  leastPositional : Int
  /-- The greatest decimal exponent that is written without an exponent. -/
  greatestPositional : Int
  /-- The least number of digits of a written exponent. -/
  exponentWidth : Nat
deriving Repr

/-- Numbers from `10⁻⁴` to below `10¹⁶` are written positionally, and an exponent has a sign and
at least two digits. -/
def standard : Layout := ⟨-4, 15, 2⟩

/-- The digits of a natural number without its trailing zeros, and how many there were. -/
def significant (n : Nat) : List Char × Nat :=
  let reversed := (Nat.toDigits 10 n).reverse
  let kept := reversed.dropWhile (· = '0')
  (kept.reverse, reversed.length - kept.length)

def padLeft (width : Nat) (cs : List Char) : List Char :=
  List.replicate (width - cs.length) '0' ++ cs

def Layout.render (layout : Layout) (d : Decimal) : List Char :=
  let (digits, zeros) := significant d.digits
  -- the point stands after `point` digits
  let point : Int := digits.length + zeros + d.exponent
  let e := point - 1
  if layout.leastPositional ≤ e ∧ e ≤ layout.greatestPositional then
    if point ≤ 0 then
      ['0', '.'] ++ List.replicate (-point).toNat '0' ++ digits
    else if digits.length ≤ point.toNat then
      digits ++ List.replicate (point.toNat - digits.length) '0' ++ ['.', '0']
    else digits.take point.toNat ++ '.' :: digits.drop point.toNat
  else
    let fraction := digits.drop 1
    digits.take 1 ++ (if fraction.isEmpty then [] else '.' :: fraction)
      ++ ['e', if e < 0 then '-' else '+']
      ++ padLeft layout.exponentWidth (Nat.toDigits 10 e.natAbs)

/-- The spellings of the values that have no digits. -/
structure Spelling where
  nan : String
  infinity : String

/-- The text of a number, with given spellings of the values that have no digits. -/
def textWith (spelling : Spelling) : Double → String
  | .nan => spelling.nan
  | .infinite negative => (if negative then "-" else "") ++ spelling.infinity
  | .finite negative units =>
      (if negative then "-" else "")
        ++ (if units = 0 then "0.0"
            else String.ofList (standard.render (Decimal.shortest units)))

def text : Double → String :=
  textWith ⟨"nan", "inf"⟩

end NameserverAudit.Double
