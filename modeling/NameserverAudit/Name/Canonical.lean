import NameserverAudit.Name.DomainName
import NameserverAudit.Text.Blank
import NameserverAudit.Text.Case

/-!
The canonical text of a domain name: no blanks around it, lower case, and one dot at its end.
All names that are compared as text are brought into this form first.
-/

namespace NameserverAudit

namespace Text

def dropFinalDots (cs : List Char) : List Char :=
  dropRightWhile (· = '.') cs

/-- Dropping the dots at the end ignores one more of them. -/
theorem dropFinalDots_concat (cs : List Char)
    : dropFinalDots (cs ++ ['.']) = dropFinalDots cs :=
  dropRightWhile_concat_of_pos cs (by decide)

/-- The canonical text of a name, on characters. -/
def canonical (raw : List Char) : List Char :=
  dropFinalDots (lower (trim raw)) ++ ['.']

end Text

/-- The canonical text of a name. The empty text and the dot alone name the root. -/
def canonicalName (raw : String) : String :=
  String.ofList (Text.canonical raw.toList)

def DomainName.canonicalText (n : DomainName) : String :=
  canonicalName n.text

end NameserverAudit
