import NameserverAudit.Json.Value
import NameserverAudit.Number.Decimal
import NameserverAudit.Text.Quoted

/-!
Writing JSON text. Every character outside ASCII is escaped by its code units, and nested
values are indented by two blanks a level. A compact form on one line serves the answers of
programs.
-/

namespace NameserverAudit.Json

def units (c : Char) : List Nat :=
  let n := c.toNat
  if n < 0x10000 then [n]
  else [0xd800 + (n - 0x10000) / 0x400, 0xdc00 + (n - 0x10000) % 0x400]

def escaped (c : Char) : List Char :=
  if c = '"' then ['\\', '"']
  else if c = '\\' then ['\\', '\\']
  else if c = '\n' then ['\\', 'n']
  else if c = '\r' then ['\\', 'r']
  else if c = '\t' then ['\\', 't']
  else if c = '\x08' then ['\\', 'b']
  else if c = '\x0c' then ['\\', 'f']
  else if 0x20 ≤ c.toNat && c.toNat < 0x7f then [c]
  else (units c).flatMap fun u => '\\' :: 'u' :: Text.hexPadded 4 u

def stringText (s : String) : List Char :=
  '"' :: s.toList.flatMap escaped ++ ['"']

def floatText (x : Double) : List Char :=
  (x.textWith ⟨"NaN", "Infinity"⟩).toList

def newline (level : Nat) : List Char :=
  '\n' :: List.replicate (2 * level) ' '

/-- Pieces between brackets, each on a line of its own. -/
def block (open_ close : Char) (level : Nat) : List (List Char) → List Char
  | [] => [open_, close]
  | pieces =>
      let inner := newline (level + 1)
      open_ :: inner ++ (List.intercalate (',' :: inner) pieces) ++ newline level ++ [close]

mutual

/-- The text of a value that starts at a level of indentation. -/
def renderAt (level : Nat) : Json → List Char
  | .null => "null".toList
  | .bool b => (if b then "true" else "false").toList
  | .int n => (toString n).toList
  | .float x => floatText x
  | .str s => stringText s
  | .array items => block '[' ']' level (itemTexts (level + 1) items)
  | .object fields => block '{' '}' level (fieldTexts (level + 1) fields)

def itemTexts (level : Nat) : List Json → List (List Char)
  | [] => []
  | v :: rest => renderAt level v :: itemTexts level rest

def fieldTexts (level : Nat) : List (String × Json) → List (List Char)
  | [] => []
  | (name, v) :: rest =>
      (stringText name ++ ':' :: ' ' :: renderAt level v) :: fieldTexts level rest

end

def render (v : Json) : String :=
  String.ofList (renderAt 0 v)

mutual

def compact : Json → List Char
  | .null => "null".toList
  | .bool b => (if b then "true" else "false").toList
  | .int n => (toString n).toList
  | .float x => floatText x
  | .str s => stringText s
  | .array items => '[' :: List.intercalate [','] (compactItems items) ++ [']']
  | .object fields => '{' :: List.intercalate [','] (compactFields fields) ++ ['}']

/-- The texts of the values of a list on one line. -/
def compactItems : List Json → List (List Char)
  | [] => []
  | v :: rest => compact v :: compactItems rest

/-- The texts of the fields of an object on one line. -/
def compactFields : List (String × Json) → List (List Char)
  | [] => []
  | (name, v) :: rest => (stringText name ++ ':' :: compact v) :: compactFields rest

end

def renderLine (v : Json) : String :=
  String.ofList (compact v)

end NameserverAudit.Json
