import NameserverAudit.Json.Reader
import NameserverAudit.Text.Utf8

/-!
Requests to the audit service and what can be wrong with their form: parameters that are
missing, too short, too long or not a yes or no, and a body that is not a list of objects.
-/

namespace NameserverAudit.Service

structure Request where
  verb : String
  path : String
  parameters : List (String × String)
  body : List UInt8
deriving DecidableEq, Repr

/-- Something wrong with the form of a request. -/
inductive Flaw where
  | missing (parameter : String)
  | tooShort (parameter : String)
  | tooLong (parameter : String)
  | notBoolean (parameter : String)
  | noBody
  | notAList
  | notAnObject (entry : Nat)
  | notJson (offset : Nat)
deriving DecidableEq, Repr

namespace Flaw

def place : Flaw → List Json
  | .missing name | .tooShort name | .tooLong name | .notBoolean name =>
      [.str "query", .str name]
  | .noBody | .notAList => [.str "body"]
  | .notAnObject entry => [.str "body", .int entry]
  | .notJson offset => [.str "body", .int offset]

def kind : Flaw → String
  | .missing _ | .noBody => "missing"
  | .tooShort _ => "string_too_short"
  | .tooLong _ => "string_too_long"
  | .notBoolean _ => "bool_parsing"
  | .notAList => "list_type"
  | .notAnObject _ => "dict_type"
  | .notJson _ => "json_invalid"

def toJson (f : Flaw) : Json :=
  .object [("loc", .array f.place), ("type", .str f.kind)]

end Flaw

inductive ContentFault where
  /-- The body is no JSON text from an offset on. -/
  | malformed (offset : Nat)
  /-- The body is no text, or a number in it has too many digits. -/
  | unreadable
deriving DecidableEq, Repr

inductive Errand where
  | auditOne
  | auditList
  | rootServers
  | unknownPath
  | wrongVerb
deriving DecidableEq, Repr

namespace Request

def trimmedPath (r : Request) : String :=
  String.ofList (Text.dropRightWhile (· = '/') r.path.toList)

def errand (r : Request) : Errand :=
  match r.trimmedPath, r.verb with
  | "/audit", "GET" => .auditOne
  | "/audit", "POST" => .auditList
  | "/audit", _ => .wrongVerb
  | "/root-servers", "GET" => .rootServers
  | "/root-servers", _ => .wrongVerb
  | _, _ => .unknownPath

def values (r : Request) (name : String) : List String :=
  (r.parameters.filter fun entry => entry.1 = name).map (·.2)

def values? (r : Request) (name : String) : Option (List String) :=
  match r.values name with
  | [] => none
  | many => some many

def value? (r : Request) (name : String) : Option String :=
  (r.values name).getLast?

/-- The domain that a request names: between 1 and 253 characters. -/
def domain (r : Request) : Except Flaw String :=
  match r.value? "domain" with
  | none => .error (.missing "domain")
  | some s =>
      if s.length < 1 then .error (.tooShort "domain")
      else if 253 < s.length then .error (.tooLong "domain")
      else .ok s

/-- The truth value that a text stands for, in any case of its letters. -/
def boolean? (s : String) : Option Bool :=
  let word := String.ofList (Reading.lowerAscii s.toList)
  if ["1", "true", "on", "yes", "t", "y"].contains word then some true
  else if ["0", "false", "off", "no", "f", "n"].contains word then some false
  else none

/-- All results are wanted, not only the failures. -/
def wantsAll (r : Request) : Except Flaw Bool :=
  match r.value? "all" with
  | none => .ok false
  | some s =>
      match boolean? s with
      | some b => .ok b
      | none => .error (.notBoolean "all")

def unmarked : List Char → List Char
  | [] => []
  | c :: rest => if c = Char.ofNat 0xfeff then rest else c :: rest

def content (r : Request) : Except ContentFault (Option Json) :=
  if r.body.isEmpty then .ok none
  else
    match Text.Utf8.decode r.body with
    | .error _ => .error .unreadable
    | .ok cs =>
        match Json.parse (String.ofList (unmarked cs)) with
        | .error (.malformed _ _ _ offset) => .error (.malformed offset)
        | .error (.integerTooLong _) => .error .unreadable
        | .ok v => .ok (some v)

/-- The entries of a list that are no objects, of which the first has the given number. -/
def entryFlaws (i : Nat) : List Json → List Flaw
  | [] => []
  | .object _ :: rest => entryFlaws (i + 1) rest
  | _ :: rest => .notAnObject i :: entryFlaws (i + 1) rest

/-- What is wrong with a body that should be a list of objects. -/
def contentFlaws : Option Json → List Flaw
  | none | some .null => [.noBody]
  | some (.array entries) => entryFlaws 0 entries
  | some _ => [.notAList]

end Request

end NameserverAudit.Service
