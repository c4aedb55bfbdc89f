import NameserverAudit.Text.CaseTable

/-!
Lower-case form of a text, by the full mapping of Unicode: one letter may become two, and a
capital sigma becomes the final form at the end of a word.
-/

namespace NameserverAudit.Text

/-- The lower-case form of a character on its own. -/
def lowerChar (c : Char) : List Char :=
  let n := c.toNat
  if n < 0x80 then if 0x41 ≤ n && n ≤ 0x5a then [Char.ofNat (n + 0x20)] else [c]
  else if n = 0x130 then ['i', Char.ofNat 0x307]
  else
    match caseRuns.find? fun r => r.first ≤ n && n ≤ r.last && (n - r.first) % r.step == 0 with
    | some r => [Char.ofNat (n + r.shift).toNat]
    | none => [c]

def isCased (c : Char) : Bool :=
  casedRanges.any fun r => r.1 ≤ c.toNat && c.toNat ≤ r.2

/-- A character that does not end a word for the sigma rule, such as a full stop. -/
def isCaseIgnorable (c : Char) : Bool :=
  caseIgnorableRanges.any fun r => r.1 ≤ c.toNat && c.toNat ≤ r.2

/-- The first character that is not skipped has a case. -/
def startsCased (cs : List Char) : Bool :=
  match cs.dropWhile isCaseIgnorable with
  | [] => false
  | c :: _ => isCased c

/-- A sigma is final when a cased character comes before it and none after it. -/
def sigma (before after : List Char) : Char :=
  if startsCased before && !startsCased after then Char.ofNat 0x3c2 else Char.ofNat 0x3c3

/-- Lower-cases the second list; the first holds what comes before it, nearest first. -/
def lowerAfter (before : List Char) : List Char → List Char
  | [] => []
  | c :: rest =>
      (if c.toNat = 0x3a3 then [sigma before rest] else lowerChar c)
        ++ lowerAfter (c :: before) rest

def lower (cs : List Char) : List Char :=
  lowerAfter [] cs

def isPlainLower (c : Char) : Bool :=
  c.toNat < 0x80 && !(0x41 ≤ c.toNat && c.toNat ≤ 0x5a)

/-- A plain lower-case character is its own lower-case form. -/
theorem lowerChar_of_isPlainLower {c : Char} (h : isPlainLower c = true)
    : lowerChar c = [c] := by
  simp [isPlainLower] at h
  simp only [lowerChar, h.1, if_true]
  split
  · next hc => simp at hc; omega
  · rfl

/-- Plain lower-case text is its own lower-case form, by induction on the text. -/
theorem lowerAfter_of_isPlainLower {cs : List Char} (before : List Char)
    (h : ∀ c ∈ cs, isPlainLower c = true)
    : lowerAfter before cs = cs := by
  induction cs generalizing before with
  | nil => rfl
  | cons c rest ih =>
      have hc := h c (by simp)
      have hs : c.toNat ≠ 0x3a3 := by
        simp only [isPlainLower, Bool.and_eq_true, decide_eq_true_eq] at hc
        omega
      simp [lowerAfter, hs, lowerChar_of_isPlainLower hc,
        ih (c :: before) fun d hd => h d (by simp [hd])]

end NameserverAudit.Text
