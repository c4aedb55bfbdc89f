import NameserverAudit.Disk
import NameserverAudit.Verdict.Expected

/-!
Domain lists as text, from a file or from the standard input.
-/

namespace NameserverAudit

inductive DomainListFault where
  | file (fault : FileFault)
  | notText (source : String) (fault : Text.Utf8.Fault)
  | notJson (source : String) (fault : Json.Fault)
  /-- An integer of the text has too many digits. -/
  | integerTooLong (fault : Json.Fault)
  | list (fault : ListFault)
deriving DecidableEq, Repr

def DomainListFault.message : DomainListFault → String
  | .file fault => fault.message
  | .notText source fault => Disk.notText source fault
  | .notJson source fault => s!"{source}: invalid JSON: {fault.message}"
  | .integerTooLong fault => fault.message
  | .list fault => fault.message

namespace DomainList

def ofText (source text : String) : Except DomainListFault (List Expected) :=
  match Json.parse text with
  | .error (.integerTooLong n) => .error (.integerTooLong (.integerTooLong n))
  | .error fault => .error (.notJson source fault)
  | .ok v =>
      match Expected.ofJson v with
      | .error fault => .error (.list fault)
      | .ok list => .ok list

def ofBytes (source : String) (bytes : List UInt8) : Except DomainListFault (List Expected) :=
  match Disk.decodeText bytes with
  | .error fault => .error (.notText source fault)
  | .ok text => ofText source text

/-- The expectations in the file at a path; a hyphen stands for the standard input. -/
def read (disk : Disk) (input : List UInt8) (path : String)
    : Except DomainListFault (List Expected) :=
  if path = "-" then ofBytes "<stdin>" input
  else
    match disk.read path with
    | .error fault => .error (.file fault)
    | .ok bytes => ofBytes path bytes

end DomainList

end NameserverAudit
