import NameserverAudit.Command.Flag
import NameserverAudit.Text.Digit

/-!
The arguments of a command line, each by its form alone: a value, or a flag that may be
shortened and may have text attached. What follows two hyphens on their own is a value in any
form.
-/

namespace NameserverAudit.Command

inductive Attachment where
  | nothing
  | assigned (text : String)
  | glued (text : String)
deriving DecidableEq, Repr

inductive Word where
  | value (text : String)
  | flag (f : Flag) (attached : Attachment)
  | stray (text : String)
deriving DecidableEq, Repr

structure Ambiguity where
  argument : String
  spellings : List String
deriving DecidableEq, Repr

def Ambiguity.message (a : Ambiguity) : String :=
  s!"ambiguous option: {a.argument} could match " ++ ", ".intercalate a.spellings

def cutAtEquals? : List Char → Option (List Char × List Char)
  | [] => none
  | '=' :: rest => some ([], rest)
  | c :: rest => (cutAtEquals? rest).map fun cut => (c :: cut.1, cut.2)

/-- A nonempty run of decimal digits, at most followed by one line end. -/
def isDigitRun (cs : List Char) : Bool :=
  let rest := cs.dropWhile fun c => (Text.digit? c).isSome
  rest.length < cs.length && (rest = [] || rest = ['\n'])

/-- What follows a minus sign in a negative number: digits with an optional point before the
last run of them. -/
def isUnsignedNumber (cs : List Char) : Bool :=
  isDigitRun cs ||
    match cs.dropWhile fun c => (Text.digit? c).isSome with
    | '.' :: rest => isDigitRun rest
    | _ => false

namespace Word

/-- The flag spelled in full before the equals sign of an argument, with what follows the
sign. -/
def assigned? (cs : List Char) : Option Word := do
  let (name, text) ← cutAtEquals? cs
  let f ← Flag.ofSpelling? (String.ofList name)
  return .flag f (.assigned (String.ofList text))

/-- The flags whose spellings a shortened long argument begins. -/
def completions (cs : List Char) : List (String × Flag) :=
  let name := ((cutAtEquals? cs).map (·.1)).getD cs
  Flag.table.filter fun entry => name.isPrefixOf entry.1.toList

/-- An argument of two hyphens and more: a flag, if exactly one spelling begins like this. -/
def ofLong (argument : String) (cs : List Char) : Except Ambiguity (Option Word) :=
  match completions cs with
  | [] => .ok none
  | [(_, f)] =>
      match cutAtEquals? cs with
      | none => .ok (some (.flag f .nothing))
      | some (_, text) => .ok (some (.flag f (.assigned (String.ofList text))))
  | many => .error ⟨argument, many.map (·.1)⟩

/-- An argument of one hyphen and more: a short flag with the rest attached. -/
def ofShort (cs : List Char) : Option Word :=
  (Flag.ofSpelling? (String.ofList (cs.take 2))).map fun f =>
    .flag f (.glued (String.ofList (cs.drop 2)))

/-- An argument that begins with a hyphen and names no flag: a negative number and a text with
a space in it are values. -/
def ofUnknown (argument : String) (cs : List Char) : Word :=
  if isUnsignedNumber (cs.drop 1) || cs.contains ' ' then .value argument
  else .stray argument

/-- What an argument is that is not two hyphens on their own. -/
def ofText (argument : String) : Except Ambiguity Word :=
  match argument.toList with
  | '-' :: second :: more =>
      let cs := '-' :: second :: more
      match Flag.ofSpelling? argument, assigned? cs with
      | some f, _ => .ok (.flag f .nothing)
      | none, some w => .ok w
      | none, none =>
          if second = '-' then
            match ofLong argument cs with
            | .error fault => .error fault
            | .ok w => .ok (w.getD (ofUnknown argument cs))
          else .ok ((ofShort cs).getD (ofUnknown argument cs))
  | _ => .ok (.value argument)

def ofArguments : List String → Except Ambiguity (List Word)
  | [] => .ok []
  | "--" :: rest => .ok (.stray "--" :: rest.map .value)
  | argument :: rest =>
      match ofText argument with
      | .error fault => .error fault
      | .ok w =>
          match ofArguments rest with
          | .error fault => .error fault
          | .ok more => .ok (w :: more)

end Word

end NameserverAudit.Command
