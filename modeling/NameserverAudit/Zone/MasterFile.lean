import NameserverAudit.Zone.RecordData
import NameserverAudit.Zone.Template

/-!
Zone text as a list of records. An entry is a directive or a record; a record names its owner,
or repeats the last one by starting with blanks, and gives its time to live and its class in
any order before its type. Names that do not end with a dot are relative to the current origin,
at first the root. A record needs a time to live of its own, unless one was given before it.
Directives set the origin and the time to live, or generate records by templates. An alias cannot
stand beside records of other types, and only the root begins a zone.
-/

namespace NameserverAudit.Zone

structure Record where
  owner : DomainName
  type : RecordType
  data : RecordData
deriving DecidableEq, Repr

/-- What a record makes of its owner. -/
inductive Kind where
  | regular
  /-- Stands beside aliases and beside other records. -/
  | neutral
  | alias
deriving DecidableEq, Repr

def Kind.ofType (t : RecordType) : Kind :=
  if t = .cname then .alias
  else if [25, 47, 50].contains t.code.toNat then .neutral
  else .regular

/-- A signature is of the kind of the records that it covers. -/
def Record.kind (r : Record) : Kind :=
  match r.data with
  | .signature covered => .ofType covered
  | _ => .ofType r.type

inductive TextFault where
  | flawed (line : Nat) (flaw : Flaw)
  | nameTooLong
  /-- A zone begins below the root. -/
  | startBelow
  /-- A record of another type comes to an alias. -/
  | besideAlias
  | aliasBeside
  /-- An entry starts with an empty string in quotes. -/
  | emptyStart
  /-- An offset or a width in a template has too many digits. -/
  | integerTooLong (digits : Nat)
  /-- No text is as long as a template asks for. -/
  | widthTooLarge
deriving DecidableEq, Repr

def TextFault.message : TextFault → String
  | .flawed line flaw => s!"<string>:{line}: {flaw.message}"
  | .nameTooLong => NameFault.nameTooLong.message
  | .startBelow => "add() has non-origin SOA"
  | .besideAlias => "rdataset type is not compatible with a CNAME node"
  | .aliasBeside => "CNAME rdataset is not compatible with a regular data node"
  | .emptyStart => "string index out of range"
  | .integerTooLong digits => Reading.tooLong digits
  | .widthTooLarge => "Python int too large to convert to C ssize_t"

/-- The fault is that of a text that is refused; any other breaks off the reading. -/
def TextFault.isRefusal : TextFault → Bool
  | .emptyStart | .widthTooLarge => false
  | _ => true

/-- What is carried from one entry to the next. -/
structure Context where
  origin : DomainName
  lastOwner : DomainName
  hasTtl : Bool
  records : List Record
deriving DecidableEq, Repr

namespace Context

def start : Context := ⟨.root, .root, false, []⟩

def foreignClasses : List String := [
  "RESERVED0", "CH", "CHAOS", "HS", "HESIOD", "NONE", "ANY"]

/-- Whether a word is a class, and then whether it is that of the Internet. -/
def class? (raw : List Char) : Option Bool :=
  let upper := raw.map Char.toUpper
  let word := String.ofList upper
  if word = "IN" ∨ word = "INTERNET" then some true
  else if foreignClasses.contains word then some false
  else
    match RecordType.numberAfter? "CLASS" upper with
    | some n => if n ≤ 65535 then some (n = 1) else none
    | none => none

/-- The time to live in front of the tokens, if it is there. -/
def takeTtl (tokens : List Token) : Except Flaw (Bool × List Token) := do
  let (raw, rest) ← Field.rawWord tokens
  return if (Ttl.ofChars? raw).isSome then (true, rest) else (false, tokens)

/-- The class in front of the tokens, if it is there. -/
def takeClass (tokens : List Token) : Except Flaw (List Token) := do
  let (raw, rest) ← Field.rawWord tokens
  match class? raw with
  | some true => return rest
  | some false => throw .foreignClass
  | none => return tokens

def takeType (tokens : List Token) : Except Flaw (RecordType × List Token) := do
  let (raw, rest) ← Field.rawWord tokens
  match RecordType.ofChars raw with
  | .ok t => return (t, rest)
  | .error _ => throw (.unknownType (String.ofList raw))

/-- A record after its owner, and whether a time to live is known after it. -/
def readRecord (c : Context) (owner : DomainName) (tokens : List Token)
    : Except Flaw (Record × Bool) := do
  let (early, tokens) ← takeTtl tokens
  let tokens ← takeClass tokens
  let (late, tokens) ← if early then pure (false, tokens) else takeTtl tokens
  let (type, tokens) ← takeType tokens
  let data ← RecordData.read c.origin type tokens
  if early || late || c.hasTtl || type = .soa then return (⟨owner, type, data⟩, true)
  else throw .noTtl

/-- The kinds of the records of an owner. -/
def kindsOf (c : Context) (owner : DomainName) : List Kind :=
  (c.records.filter fun r => r.owner.same owner).map Record.kind

/-- Adds a record, if it can stand beside the records of its owner. -/
def add (c : Context) (r : Record) : Except TextFault Context :=
  let kinds := c.kindsOf r.owner
  if r.type = .soa ∧ r.owner ≠ .root then .error .startBelow
  else if r.kind = .alias ∧ .regular ∈ kinds then .error .aliasBeside
  else if r.kind = .regular ∧ .alias ∈ kinds then .error .besideAlias
  else .ok { c with records := r :: c.records }

/-- A name in front of the tokens of an entry; that it is too long is told without its line. -/
def takeName (number : Nat) (origin : DomainName) (tokens : List Token)
    : Except TextFault (DomainName × List Token) :=
  match Field.name origin tokens with
  | .ok taken => .ok taken
  | .error (.badName .nameTooLong) => .error .nameTooLong
  | .error flaw => .error (.flawed number flaw)

def readOwned (c : Context) (number : Nat) (owner : DomainName) (tokens : List Token)
    : Except TextFault Context :=
  match c.readRecord owner tokens with
  | .error flaw => .error (.flawed number flaw)
  | .ok (r, hasTtl) => add { c with lastOwner := owner, hasTtl } r

/-! ### Generated records -/

/-- What records are generated from. -/
structure Generator where
  range : Range
  owner : List Char
  type : RecordType
  data : List Char
deriving DecidableEq, Repr

def takeRange (tokens : List Token) : Except Flaw (Range × List Token) :=
  match tokens with
  | .word raw :: rest | .quoted raw :: rest =>
      match Range.ofChars? raw with
      | some range => .ok (range, rest)
      | none => .error .badRange
  | .broken flaw :: _ => .error flaw
  | _ => .error .badRange

/-- The fields of a generator. A time to live has to be known when it is not given. -/
def takeGenerator (c : Context) (tokens : List Token)
    : Except Flaw (Generator × List Token) := do
  let (range, tokens) ← takeRange tokens
  let (owner, tokens) ← Field.rawWord tokens
  let (given, tokens) ← takeTtl tokens
  if given || c.hasTtl then
    let tokens ← takeClass tokens
    let (type, tokens) ← takeType tokens
    let (data, tokens) ← Field.rawWord tokens
    return (⟨range, owner, type, data⟩, tokens)
  else throw .noTtl

def templateOf (number : Nat) (cs : List Char) : Except TextFault Template :=
  match Template.ofChars cs with
  | .ok t => .ok t
  | .error (.integerTooLong digits) => .error (.integerTooLong digits)
  | .error (.unknownBase base) => .error (.flawed number (.unknownBase base))

/-- The tokens of a text without line ends. -/
def tokensOf (cs : List Char) : List Token :=
  (linesOf cs).flatMap Line.tokens

/-- Adds the record of a number. -/
def addGenerated (c : Context) (number : Nat) (type : RecordType) (owner data : Template) (n : Nat)
    : Except TextFault Context := do
  let (name, _) ← takeName number c.origin [.word (owner.chars n)]
  match RecordData.read c.origin type (tokensOf (data.chars n)) with
  | .error flaw => .error (.flawed number flaw)
  | .ok data => add { c with lastOwner := name, hasTtl := true } ⟨name, type, data⟩

def addNumbers (c : Context) (number : Nat) (type : RecordType) (owner data : Template)
    : List Nat → Except TextFault Context
  | [] => .ok c
  | n :: rest =>
      match c.addGenerated number type owner data n with
      | .error fault => .error fault
      | .ok next => next.addNumbers number type owner data rest

/-- Adds the records of a generator. What is left of the entry is a record of the last owner. -/
def generate (c : Context) (number : Nat) (g : Generator) (tokens : List Token)
    : Except TextFault Context := do
  let owner ← templateOf number g.owner
  let data ← templateOf number g.data
  if owner.fits && data.fits then
    let c ← c.addNumbers number g.type owner data g.range.numbers
    if tokens.isEmpty then return c else c.readOwned number c.lastOwner tokens
  else throw .widthTooLarge

def readDirective (c : Context) (number : Nat) (name : List Char) (tokens : List Token)
    : Except TextFault Context :=
  let located {α : Type} : Except Flaw α → Except TextFault α := Except.mapError (.flawed number)
  match String.ofList (name.map Char.toUpper) with
  | "$TTL" => do
      let (raw, rest) ← located (Field.rawWord tokens)
      if (Ttl.ofChars? raw).isNone then throw (.flawed number .badTtl)
      located (Field.done rest)
      return { c with hasTtl := true }
  | "$ORIGIN" => do
      let (origin, rest) ← takeName number c.origin tokens
      located (Field.done rest)
      return { c with origin }
  | "$GENERATE" => do
      let (g, rest) ← located (c.takeGenerator tokens)
      c.generate number g rest
  | other => .error (.flawed number (.unknownDirective other))

def readLine (c : Context) (line : Line) : Except TextFault Context :=
  match line.tokens with
  | [] => .ok c
  | .broken flaw :: _ => .error (.flawed line.number flaw)
  | .comment :: rest =>
      match Field.done rest with
      | .ok () => .ok c
      | .error flaw => .error (.flawed line.number flaw)
  | .word raw :: rest | .quoted raw :: rest =>
      if line.indented then c.readOwned line.number c.lastOwner line.tokens
      else
        match raw with
        | [] => .error .emptyStart
        | '$' :: _ => c.readDirective line.number raw rest
        | _ => do
            let (owner, rest) ← takeName line.number c.origin line.tokens
            c.readOwned line.number owner rest

def readLines (c : Context) : List Line → Except TextFault Context
  | [] => .ok c
  | line :: rest =>
      match c.readLine line with
      | .error fault => .error fault
      | .ok next => next.readLines rest

end Context

def recordsOf (text : List Char) : Except TextFault (List Record) :=
  match Context.start.readLines (linesOf text) with
  | .error fault => .error fault
  | .ok c => .ok c.records.reverse

end NameserverAudit.Zone
