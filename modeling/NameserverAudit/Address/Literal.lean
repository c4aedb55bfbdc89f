import NameserverAudit.Address.Printer
import NameserverAudit.Address.Reader
import NameserverAudit.Text.Quoted

/-!
The canonical text of an address literal, and its family. A text that is no literal is refused
with the text in quotes.
-/

namespace NameserverAudit

/-- The wording for a text that is no address literal, which is shown as a message shows it. -/
def notAnAddress (shown : String) : String :=
  shown ++ " does not appear to be an IPv4 or IPv6 address"

/-- The canonical text of an address literal, with blanks around it or not. -/
def canonicalAddress? (raw : String) : Option String :=
  (Address.ofText? (Text.strip raw)).map Address.text

/-- The canonical text of an address literal, or the refusal of the text without the blanks
around it. -/
def canonicalAddress (raw : String) : Except String String :=
  match canonicalAddress? raw with
  | some s => .ok s
  | none => .error (notAnAddress (Text.quoted (Text.strip raw)))

/-- The family of an address literal with nothing around it. -/
def familyOf? (address : String) : Option Family :=
  (Address.ofText? address).map Address.family

end NameserverAudit
