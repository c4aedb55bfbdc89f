import NameserverAudit.Name.Punycode
import NameserverAudit.Text.Digit
import NameserverAudit.Text.Utf8

/-!
Domain names as sequences of labels of bytes, the root being the empty sequence. A label has 1
to 63 bytes, and a name takes at most 255 bytes on the wire. Names are compared without regard
to the case of ASCII letters. In text, labels are joined by dots; a backslash takes the next
character literally or stands before the three digits of a byte. Text beyond ASCII has other dots
as well, and its labels are turned into what is sent for them.
-/

namespace NameserverAudit

abbrev Label := List UInt8

/-- How many bytes a sequence of labels takes on the wire, with the root's byte. -/
def wireLength : List Label → Nat
  | [] => 1
  | label :: rest => label.length + 1 + wireLength rest

def ValidLabels (labels : List Label) : Prop :=
  (∀ l ∈ labels, 0 < l.length ∧ l.length ≤ 63) ∧ wireLength labels ≤ 255

instance (labels : List Label) : Decidable (ValidLabels labels) :=
  inferInstanceAs (Decidable (_ ∧ _))

structure DomainName where
  labels : List Label
  valid : ValidLabels labels
deriving DecidableEq, Repr

/-- Why a text or a sequence of labels is not a name. -/
inductive NameFault where
  | emptyLabel
  | labelTooLong
  | nameTooLong
  | badEscape
deriving DecidableEq, Repr

def NameFault.message : NameFault → String
  | .emptyLabel => "A DNS label is empty."
  | .labelTooLong => "A DNS label is > 63 octets long."
  | .nameTooLong => "A DNS name is > 255 octets long."
  | .badEscape => "An escaped code in a text format of DNS name is invalid."

namespace DomainName

def root : DomainName := ⟨[], by decide⟩

instance : Inhabited DomainName := ⟨root⟩

/-- The name with the given labels; a label that is too long is reported before a name that is
too long, and that before an empty label. -/
def ofLabels (labels : List Label) : Except NameFault DomainName :=
  if h : ValidLabels labels then .ok ⟨labels, h⟩
  else if labels.any fun l => 63 < l.length then .error .labelTooLong
  else if 255 < wireLength labels then .error .nameTooLong
  else .error .emptyLabel

def digit? (c : Char) : Option Nat :=
  if '0' ≤ c && c ≤ '9' then some (c.toNat - '0'.toNat) else none

def byte? (a b c : Char) : Option UInt8 := do
  let n := (← digit? a) * 100 + (← digit? b) * 10 + (← digit? c)
  if n < 256 then some (UInt8.ofNat n) else none

/-- The labels of an ASCII text; `label` holds the bytes of the current label, last first. The last
label is empty when the text ends with a dot. -/
def scan (label : Label) : List Char → Except NameFault (List Label)
  | [] => .ok [label.reverse]
  | '\\' :: a :: b :: c :: rest =>
      if (digit? a).isSome then
        match byte? a b c with
        | some byte => scan (byte :: label) rest
        | none => .error .badEscape
      else scan ((Text.Utf8.encodeChar a).reverse ++ label) (b :: c :: rest)
  | '\\' :: a :: rest =>
      if (digit? a).isSome then .error .badEscape
      else scan ((Text.Utf8.encodeChar a).reverse ++ label) rest
  | ['\\'] => .error .badEscape
  | c :: rest =>
      if c = '.' then
        if label.isEmpty then .error .emptyLabel
        else
          match scan [] rest with
          | .ok labels => .ok (label.reverse :: labels)
          | .error fault => .error fault
      else scan ((Text.Utf8.encodeChar c).reverse ++ label) rest

def isDot (c : Char) : Bool :=
  ['.', '\u3002', '\uff0e', '\uff61'].contains c

/-- A label of characters beyond ASCII, as it is sent; whatever is wrong with it counts as its
length. -/
def encodeLabel (cs : List Char) : Except NameFault Label :=
  match Label.sent? cs with
  | some cs => .ok (Text.Utf8.encode cs)
  | none => .error .labelTooLong

/-- The labels of a text with characters beyond ASCII; `label` holds the characters of the current
label, last first. Three digits stand for a character. -/
def scanWide (label : List Char) : List Char → Except NameFault (List Label)
  | [] => if label.isEmpty then .ok [[]] else (encodeLabel label.reverse).map ([·])
  | '\\' :: a :: b :: c :: rest =>
      match Text.digit? a, Text.digit? b, Text.digit? c with
      | none, _, _ => scanWide (a :: label) (b :: c :: rest)
      | some x, some y, some z => scanWide (Char.ofNat (100 * x + 10 * y + z) :: label) rest
      | some _, _, _ => .error .badEscape
  | '\\' :: a :: rest =>
      if (Text.digit? a).isSome then .error .badEscape else scanWide (a :: label) rest
  | ['\\'] => .error .badEscape
  | c :: rest =>
      if isDot c then
        if label.isEmpty then .error .emptyLabel
        else do
          let first ← encodeLabel label.reverse
          return first :: (← scanWide [] rest)
      else scanWide (c :: label) rest

/-- The labels of a text that is more than an origin or the root. -/
def labelsOf (cs : List Char) : Except NameFault (List Label) :=
  if cs.all (·.toNat < 0x80) then scan [] cs
  else if cs.length = 1 && cs.all isDot then .ok [[]]
  else scanWide [] cs

/-- The name of a text that is relative to an origin unless it ends with a dot. The empty text
and `@` name the origin. -/
def ofCharsWithin (origin : DomainName) (cs : List Char) : Except NameFault DomainName :=
  if cs = [] ∨ cs = ['@'] then .ok origin
  else if cs = ['.'] then .ok root
  else
    match labelsOf cs with
    | .error fault => .error fault
    | .ok labels =>
        if labels.getLast? = some [] then ofLabels labels.dropLast
        else ofLabels (labels ++ origin.labels)

def ofText (s : String) : Except NameFault DomainName :=
  ofCharsWithin root s.toList

def byteText (b : UInt8) : List Char :=
  let c := Char.ofNat b.toNat
  if ['"', '(', ')', '.', ';', '\\', '@', '$'].contains c then ['\\', c]
  else if 0x20 < b.toNat && b.toNat < 0x7f then [c]
  else
    let ds := Nat.toDigits 10 b.toNat
    '\\' :: List.replicate (3 - ds.length) '0' ++ ds

def chars (n : DomainName) : List Char :=
  if n.labels.isEmpty then ['.']
  else n.labels.flatMap fun l => l.flatMap byteText ++ ['.']

def text (n : DomainName) : String :=
  String.ofList n.chars

def foldByte (b : UInt8) : UInt8 :=
  if 0x41 ≤ b && b ≤ 0x5a then b + 0x20 else b

def folded (n : DomainName) : List Label :=
  n.labels.map (·.map foldByte)

/-- Lower case leaves the length on the wire alone, by induction on the labels. -/
theorem wireLength_fold (labels : List Label)
    : wireLength (labels.map (·.map foldByte)) = wireLength labels := by
  induction labels with
  | nil => rfl
  | cons label rest ih => simp [wireLength, ih]

/-- Lower case leaves the lengths of labels alone. -/
theorem validLabels_fold {labels : List Label} (h : ValidLabels labels)
    : ValidLabels (labels.map (·.map foldByte)) := by
  obtain ⟨hl, hw⟩ := h
  constructor
  · intro l hl'
    obtain ⟨k, hk, rfl⟩ := List.mem_map.1 hl'
    simpa using hl k hk
  · rw [wireLength_fold]
    exact hw

def lowered (n : DomainName) : DomainName :=
  ⟨n.folded, validLabels_fold n.valid⟩

def same (m n : DomainName) : Bool :=
  m.folded == n.folded

/-- The first name is the second or lies below it. -/
def isWithin (m n : DomainName) : Bool :=
  n.folded.isSuffixOf m.folded

/-- A sequence of labels is refused exactly when it breaks a bound. -/
theorem ofLabels_isOk_iff (labels : List Label)
    : (∃ n, ofLabels labels = .ok n) ↔ ValidLabels labels := by
  unfold ofLabels
  split
  · next h => simp [h]
  · next h =>
    simp only [h, iff_false, not_exists]
    intro n hn
    split at hn
    · simp at hn
    · split at hn <;> simp at hn

/-- A name given by its labels has those labels. -/
theorem labels_of_ofLabels {labels : List Label} {n : DomainName}
    (h : ofLabels labels = .ok n)
    : n.labels = labels := by
  unfold ofLabels at h
  split at h
  · simp only [Except.ok.injEq] at h
    exact h ▸ rfl
  · split at h
    · simp at h
    · split at h <;> simp at h

end DomainName

end NameserverAudit
