import NameserverAudit.Text.Case

/-!
Labels with characters beyond ASCII, as they are sent: in Punycode, behind the mark `xn--`. Such a
label is prepared first: it goes to lower case, and characters that have no form of their own are
left out. The other tables of the preparation, for compatibility forms and for characters that no
label may have, are left out here.

Punycode has the ASCII characters of a text in front. The places of the others follow in the order
of their code points, each as a number that tells how many insertions to pass over since the one
before; its digits have weights that adapt to how large the numbers were.
-/

namespace NameserverAudit.Punycode

/-- The least weight that a digit may leave over at a place. -/
def threshold (place bias : Nat) : Nat :=
  max 1 (min 26 (36 * (place + 1) - bias))

theorem threshold_bounds (place bias : Nat)
    : 1 ≤ threshold place bias ∧ threshold place bias ≤ 26 := by
  unfold threshold
  omega

def digit (n : Nat) : Char :=
  Char.ofNat (if n < 26 then 0x61 + n else 0x30 + (n - 26))

/-- The digits of a number, the least one first; only the last is below its threshold. -/
def digits (bias : Nat) (place n : Nat) : List Char :=
  let t := threshold place bias
  if n < t then [digit n]
  else digit (t + (n - t) % (36 - t)) :: digits bias (place + 1) ((n - t) / (36 - t))
termination_by n
decreasing_by
  obtain ⟨low, high⟩ := threshold_bounds place bias
  exact Nat.lt_of_le_of_lt (Nat.div_le_self _ _) (by omega)

/-- The bias for a number that is large, by the places it takes. -/
def settle (n places : Nat) : Nat :=
  if 455 < n then settle (n / 35) (places + 36) else places + 36 * n / (n + 38)
termination_by n
decreasing_by omega

/-- The bias after a number; `count` characters were placed, and the first number is damped. -/
def adapt (n count : Nat) (first : Bool) : Nat :=
  let n := if first then n / 700 else n / 2
  settle (n + n / count) 0

/-- How far a text is encoded: the insertions passed over since the last number, the bias, how
many characters were placed, and the digits. -/
structure Progress where
  passed : Nat
  bias : Nat
  placed : Nat
  out : List Char

/-- Passes over a character if its code point is smaller than the given one, and places it there if
it is the same; `basic` characters are ASCII. -/
def Progress.visit (basic code : Nat) (p : Progress) (c : Char) : Progress :=
  if c.toNat < code then { p with passed := p.passed + 1 }
  else if c.toNat = code then
    { passed := 0
      bias := adapt p.passed (p.placed + 1) (p.placed == basic)
      placed := p.placed + 1
      out := p.out ++ digits p.bias 0 p.passed }
  else p

/-- Places the characters with the given code points, which ascend from `next` on. -/
def place (text : List Char) (basic : Nat) : Nat → List Nat → Progress → Progress
  | _, [], p => p
  | next, code :: codes, p =>
      let p := { p with passed := p.passed + (code - next) * (p.placed + 1) }
      let p := text.foldl (Progress.visit basic code) p
      place text basic (code + 1) codes { p with passed := p.passed + 1 }

def encode (text : List Char) : List Char :=
  let front := text.filter (·.toNat < 0x80)
  let codes := ((text.filter (0x80 ≤ ·.toNat)).map Char.toNat).eraseDups.mergeSort
  let start : Progress := ⟨0, 72, front.length, []⟩
  front ++ (if front.isEmpty then [] else ['-'])
    ++ (place text front.length 0x80 codes start).out

end NameserverAudit.Punycode

namespace NameserverAudit.Label

/-- A character that a prepared label leaves out, such as a soft hyphen. -/
def isUnseen (c : Char) : Bool :=
  let n := c.toNat
  [0xad, 0x34f, 0x1806, 0x2060, 0xfeff].contains n || 0x180b ≤ n && n ≤ 0x180d
    || 0x200b ≤ n && n ≤ 0x200d || 0xfe00 ≤ n && n ≤ 0xfe0f

/-- The characters that stand for one in a prepared label. -/
def prepared (c : Char) : List Char :=
  if isUnseen c then []
  else if c.toNat = 0xdf then ['s', 's']
  else if c.toNat = 0x3c2 then [Char.ofNat 0x3c3]
  else Text.lowerChar c

def marker : List Char := "xn--".toList

/-- The characters of a label as they are sent, if it can be sent at all. -/
def sent? (cs : List Char) : Option (List Char) :=
  let isAscii (cs : List Char) : Bool := cs.all (·.toNat < 0x80)
  let ofLength (cs : List Char) : Option (List Char) :=
    if 0 < cs.length && cs.length < 64 then some cs else none
  if isAscii cs then ofLength cs
  else
    let cs := cs.flatMap prepared
    if isAscii cs then ofLength cs
    else if marker.isPrefixOf cs then none
    else ofLength (marker ++ Punycode.encode cs)

end NameserverAudit.Label
