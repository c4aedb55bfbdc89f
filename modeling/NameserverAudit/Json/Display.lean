import NameserverAudit.Json.Value
import NameserverAudit.Number.Decimal
import NameserverAudit.Text.Quoted

/-!
Values as messages show them: strings in quotes, the words `None`, `True` and `False`, and
lists and objects in one line.
-/

namespace NameserverAudit.Json

def kind : Json → String
  | .null => "NoneType"
  | .bool _ => "bool"
  | .int _ => "int"
  | .float _ => "float"
  | .str _ => "str"
  | .array _ => "list"
  | .object _ => "dict"

mutual

def display : Json → String
  | .null => "None"
  | .bool b => if b then "True" else "False"
  | .int n => toString n
  | .float x => x.text
  | .str s => Text.quoted s
  | .array items => "[" ++ ", ".intercalate (displayItems items) ++ "]"
  | .object fields => "\x7b" ++ ", ".intercalate (displayFields fields) ++ "\x7d"

/-- The values of a list as a message shows them. -/
def displayItems : List Json → List String
  | [] => []
  | v :: rest => display v :: displayItems rest

/-- The fields of an object as a message shows them. -/
def displayFields : List (String × Json) → List String
  | [] => []
  | (name, v) :: rest => (Text.quoted name ++ ": " ++ display v) :: displayFields rest

end

/-- A value as text: a string is its own text, any other value is shown as in a message. -/
def asText : Json → String
  | .str s => s
  | v => display v

end NameserverAudit.Json
