import NameserverAudit.Name.Canonical
import NameserverAudit.Text.Quoted
import NameserverAudit.Text.Split

/-!
Host-style domains, the only ones that may be audited: at most 253 characters, in labels of 1
to 63 letters, digits and hyphens that begin and end with a letter or a digit; a label may have
one underscore in front.
-/

namespace NameserverAudit.Host

def isAlphanumeric (c : Char) : Bool :=
  ('a' ≤ c && c ≤ 'z') || ('0' ≤ c && c ≤ '9')

/-- Letters, digits and hyphens that begin and end with a letter or a digit. -/
def isWord (cs : List Char) : Bool :=
  match cs.head?, cs.getLast? with
  | some first, some last =>
      isAlphanumeric first && isAlphanumeric last
        && cs.all fun c => isAlphanumeric c || c = '-'
  | _, _ => false

def body : List Char → List Char
  | '_' :: rest => rest
  | cs => cs

def isLabel (cs : List Char) : Bool :=
  cs.length ≤ 63 && isWord (body cs)

/-- A host-style domain, without a dot at its end. -/
def isDomain (s : String) : Bool :=
  let cs := s.toList
  cs.length ≤ 253 && (Text.splitOn '.' cs).all isLabel

/-- The text of a domain as a person may write it, without blanks around it, without dots at
its end and in lower case. -/
def target (raw : String) : String :=
  String.ofList (Text.lower (Text.dropFinalDots (Text.trim raw.toList)))

/-- The domain that a text names, if it is host-style. -/
def domain? (raw : String) : Option String :=
  let s := target raw
  if isDomain s then some s else none

/-- The wording for a text that names no host-style domain, which is shown as it was given. -/
def refusal (shown : String) : String :=
  "invalid domain format: " ++ shown

theorem isDomain_of_domain? {raw s : String} (h : domain? raw = some s)
    : isDomain s = true := by
  simp only [domain?] at h
  split at h
  · next ok =>
    simp only [Option.some.injEq] at h
    exact h ▸ ok
  · simp at h

end NameserverAudit.Host
