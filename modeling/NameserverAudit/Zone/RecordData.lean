import NameserverAudit.Address.Reader
import NameserverAudit.Number.Reading
import NameserverAudit.Time.Calendar
import NameserverAudit.Zone.Field
import NameserverAudit.Zone.RecordType

/-!
The data of records. Only the targets of nameserver records, the addresses of address records and
the types that signatures cover are kept. The data of the other types that root zones and plain
zones have is read because it has to be well formed; that of all further types is passed over.
Every type may also be written as a length and hexadecimal digits, which are then read as on the
wire.
-/

namespace NameserverAudit.Zone

inductive RecordData where
  | nameserver (target : DomainName)
  | address (a : Address)
  /-- A signature over the records of a type. -/
  | signature (covered : RecordType)
  | other
deriving DecidableEq, Repr

namespace RecordData

/-! ### On the wire -/

/-- The labels of a name that is not compressed; the bound is the number of bytes. -/
def wireLabels : Nat → List UInt8 → Option (List Label × List UInt8)
  | 0, _ => none
  | _, [] => none
  | bound + 1, n :: rest =>
      let length := n.toNat
      if length = 0 then some ([], rest)
      else if 63 < length ∨ rest.length < length then none
      else
        match wireLabels bound (rest.drop length) with
        | some (labels, out) => some (rest.take length :: labels, out)
        | none => none

def wireName? (bytes : List UInt8) : Option (DomainName × List UInt8) :=
  match wireLabels (bytes.length + 1) bytes with
  | none => none
  | some (labels, rest) =>
      match DomainName.ofLabels labels with
      | .ok n => some (n, rest)
      | .error _ => none

def wireSkip? (count : Nat) (bytes : List UInt8) : Option (List UInt8) :=
  if bytes.length < count then none else some (bytes.drop count)

/-- The bytes after a string with its length in front. -/
def wireString? : List UInt8 → Option (List UInt8)
  | [] => none
  | n :: rest => wireSkip? n.toNat rest

/-- Nothing but strings with their lengths in front; the bound is the number of bytes. -/
def wireStrings : Nat → List UInt8 → Bool
  | _, [] => true
  | 0, _ => false
  | bound + 1, bytes =>
      match wireString? bytes with
      | some rest => wireStrings bound rest
      | none => false

def wireWholeName? (bytes : List UInt8) : Option DomainName :=
  match wireName? bytes with
  | some (n, []) => some n
  | _ => none

def groupsOf : List UInt8 → List UInt16
  | a :: b :: rest => UInt16.ofNat (256 * a.toNat + b.toNat) :: groupsOf rest
  | _ => []

/-! ### Checks shared by both forms -/

/-- The names of the algorithms of digests of keys. -/
def algorithms : List String := [
  "RSAMD5", "DH", "DSA", "ECC", "RSASHA1", "DSANSEC3SHA1", "RSASHA1NSEC3SHA1", "RSASHA256",
  "RSASHA512", "ECCGOST", "ECDSAP256SHA256", "ECDSAP384SHA384", "ED25519", "ED448", "INDIRECT",
  "PRIVATEDNS", "PRIVATEOID"]

/-- The text names an algorithm or is a number of eight bits. -/
def isAlgorithm (cs : List Char) : Bool :=
  algorithms.contains (String.ofList (cs.map Char.toUpper))
    || ((RecordType.number? cs).map (decide <| · ≤ 255)).getD false

/-- A digest of a key has the length that its type asks for; type zero is reserved. -/
def isDigest (digestType length : Nat) : Bool :=
  match digestType with
  | 0 => false
  | 1 => length = 20
  | 2 | 3 => length = 32
  | 4 => length = 48
  | _ => true

/-- A digest of a zone has the length that its algorithm asks for; scheme zero and algorithm zero
are reserved. -/
def isZoneDigest (scheme algorithm length : Nat) : Bool :=
  scheme ≠ 0
    && match algorithm with
      | 0 => false
      | 1 => length = 48
      | 2 => length = 64
      | _ => true

/-- The tag of an authorization is made of ASCII letters and digits. -/
def isTag (cs : List Char) : Bool :=
  !cs.isEmpty && cs.length ≤ 255 && cs.all fun c => c.isAlphanum

/-- A text in base 64: characters that are no digits are passed over, and nothing counts after
groups of four are filled up with equality signs. `place` tells how many digits of the group came,
`pads` how many equality signs after them. -/
def isBase64 (place pads : Nat) : List Char → Bool
  | [] => place = 0
  | c :: rest =>
      if c = '=' then
        if place < 2 then isBase64 place pads rest
        else 4 ≤ place + pads + 1 || isBase64 place (pads + 1) rest
      else if c.isAlphanum || c = '+' || c = '/' then isBase64 ((place + 1) % 4) 0 rest
      else isBase64 place pads rest

/-- The seconds since the beginning of 1970 at a time in fourteen characters: year, month, day,
hour, minute and second. Only the year and the month have to be those of a calendar. -/
def secondsOf? (cs : List Char) : Option Int := do
  let part (start count : Nat) : Option Int :=
    Reading.int? (String.ofList ((cs.drop start).take count))
  if cs.length ≠ 14 then none
  else
    let year ← part 0 4
    let month ← part 4 2
    let day ← part 6 2
    let hour ← part 8 2
    let minute ← part 10 2
    let second ← part 12 2
    if year < 1 ∨ 9999 < year ∨ month < 1 ∨ 12 < month then none
    else
      let first : Calendar.Date := ⟨year.toNat, month.toNat, 1⟩
      let days := (first.toDay : Int) - 719162 + day - 1
      return ((days * 24 + hour) * 60 + minute) * 60 + second

/-- The time of a signature: up to ten digits are seconds, and fourteen characters a date and a
time of day. Both have 32 bits. -/
def isSignatureTime (cs : List Char) : Bool :=
  let seconds : Option Int :=
    if cs.length ≤ 10 ∧ !cs.isEmpty ∧ (cs.all fun c => (Text.digit? c).isSome) then
      (RecordType.number? cs).map Int.ofNat
    else secondsOf? cs
  (seconds.map fun n => decide (0 ≤ n && n.toNat < Nat.pow 2 32)).getD false

/-- Windows of types as on the wire, later ones after earlier ones, each with a number of one to 32
bytes in front of these; the bound is the number of bytes. -/
def areWindows (last : Int) : Nat → List UInt8 → Bool
  | _, [] => true
  | bound + 1, window :: length :: rest =>
      last < window.toNat && 1 ≤ length.toNat && length.toNat ≤ 32
        && length.toNat ≤ rest.length
        && areWindows window.toNat bound (rest.drop length.toNat)
  | _, _ => false

/-- Options as on the wire, each with a code and a length; the bound is the number of bytes. -/
def areOptions : Nat → List UInt8 → Bool
  | _, [] => true
  | bound + 1, _ :: _ :: high :: low :: rest =>
      let length := 256 * high.toNat + low.toNat
      length ≤ rest.length && areOptions bound (rest.drop length)
  | _, _ => false

def check (b : Bool) : Except Flaw RecordData :=
  if b then .ok .other else .error .badData

def ofWire (t : RecordType) (bytes : List UInt8) : Except Flaw RecordData :=
  match t.code.toNat with
  | 1 =>
      if h : bytes.length = 4 then .ok (.address (.v4 ⟨bytes, h⟩)) else .error .badData
  | 28 =>
      if h : (groupsOf bytes).length = 8 then
        if bytes.length = 16 then .ok (.address (.v6 ⟨groupsOf bytes, h⟩ none))
        else .error .badData
      else .error .badData
  | 2 =>
      match wireWholeName? bytes with
      | some n => .ok (.nameserver n)
      | none => .error .badData
  | 5 | 12 | 39 => check (wireWholeName? bytes).isSome
  | 15 => check ((wireSkip? 2 bytes).bind wireWholeName?).isSome
  | 33 => check ((wireSkip? 6 bytes).bind wireWholeName?).isSome
  | 6 =>
      check
        (match wireName? bytes with
        | some (_, rest) =>
            match wireName? rest with
            | some (_, rest) => rest.length = 20
            | none => false
        | none => false)
  | 13 => check (((wireString? bytes).bind wireString?) = some [])
  | 16 => check (!bytes.isEmpty && wireStrings bytes.length bytes)
  | 43 =>
      match bytes with
      | _ :: _ :: _ :: digestType :: digest => check (isDigest digestType.toNat digest.length)
      | _ => .error .badData
  | 41 => check (areOptions bytes.length bytes)
  | 46 =>
      match bytes, (wireSkip? 18 bytes).bind wireName? with
      | high :: low :: _, some _ =>
          .ok (.signature ⟨UInt16.ofNat (256 * high.toNat + low.toNat)⟩)
      | _, _ => .error .badData
  | 47 =>
      match wireName? bytes with
      | some (_, windows) => check (areWindows (-1) windows.length windows)
      | none => .error .badData
  | 48 => check (4 ≤ bytes.length)
  | 63 =>
      match bytes.drop 4 with
      | scheme :: algorithm :: digest =>
          check (isZoneDigest scheme.toNat algorithm.toNat digest.length)
      | _ => .error .badData
  | 257 =>
      match bytes with
      | _ :: length :: rest =>
          check (length.toNat ≤ rest.length
            && isTag ((rest.take length.toNat).map fun b => Char.ofNat b.toNat))
      | _ => .error .badData
  | _ => .ok .other

/-! ### In zone text -/

/-- The generic form: a length and the bytes in hexadecimal digits. -/
def readGeneric (tokens : List Token) : Except Flaw (List UInt8) := do
  let (length, tokens) ← Field.number (Nat.pow 2 64) tokens
  let bytes ← Field.hex (← Field.joined tokens)
  if bytes.length = length then return bytes else throw .badData

/-- Types that have no form but the generic one. -/
def isGenericOnly (t : RecordType) : Bool :=
  [0, 3, 4, 7, 8, 9, 10, 14, 24, 25, 30, 38, 41, 103, 251, 252, 253, 254, 255, 32768].contains
      t.code.toNat
    || RecordType.names.all fun entry => entry.2 ≠ t.code.toNat

/-- The digits of base 64 that fill the rest of an entry. -/
def readBase64 (tokens : List Token) : Except Flaw Unit := do
  let digits ← Field.joined tokens
  if digits.isEmpty || !isBase64 0 0 digits then throw .badData

def readType (tokens : List Token) : Except Flaw (RecordType × List Token) := do
  let (cs, rest) ← Field.text tokens
  match RecordType.ofChars cs with
  | .ok t => return (t, rest)
  | .error _ => throw .badData

/-- Types up to the end of an entry, none of which is zero; the bound is the number of tokens. -/
def readTypes : Nat → List Token → Except Flaw Unit
  | _, [] => .ok ()
  | 0, _ => .error .badData
  | bound + 1, tokens => do
      let (t, rest) ← readType tokens
      if t.code = 0 then throw .badData
      readTypes bound rest

def readAny : List Token → Except Flaw RecordData
  | [] => .ok .other
  | .broken flaw :: _ => .error flaw
  | _ :: rest => readAny rest

/-- The data of a type in its own form, up to the end of the entry. -/
def readOwn (origin : DomainName) (t : RecordType) (tokens : List Token)
    : Except Flaw RecordData :=
  match t.code.toNat with
  | 1 => do
      let (cs, rest) ← Field.word tokens
      match Ipv4.ofChars? cs with
      | some a => Field.done rest; return .address (.v4 a)
      | none => throw .badAddress
  | 28 => do
      let (cs, rest) ← Field.word tokens
      match Ipv6.ofChars? cs with
      | some a => Field.done rest; return .address (.v6 a none)
      | none => throw .badAddress
  | 2 => do
      let (target, rest) ← Field.name origin tokens
      Field.done rest
      return .nameserver target
  | 5 | 12 | 39 => do
      let (_, rest) ← Field.name origin tokens
      Field.done rest
      return .other
  | 15 => do
      let (_, rest) ← Field.number 65535 tokens
      let (_, rest) ← Field.name origin rest
      Field.done rest
      return .other
  | 33 => do
      let (_, rest) ← Field.number 65535 tokens
      let (_, rest) ← Field.number 65535 rest
      let (_, rest) ← Field.number 65535 rest
      let (_, rest) ← Field.name origin rest
      Field.done rest
      return .other
  | 6 => do
      let (_, rest) ← Field.name origin tokens
      let (_, rest) ← Field.name origin rest
      let (_, rest) ← Field.number (Nat.pow 2 32 - 1) rest
      let (_, rest) ← Field.ttl rest
      let (_, rest) ← Field.ttl rest
      let (_, rest) ← Field.ttl rest
      let (_, rest) ← Field.ttl rest
      Field.done rest
      return .other
  | 13 => do
      let (cpu, rest) ← Field.text tokens
      let (os, rest) ← Field.text rest
      Field.done rest
      check ([cpu, os].all fun cs => (Text.Utf8.encode cs).length ≤ 255)
  | 16 => do
      let strings ← Field.texts tokens
      check (!strings.isEmpty && strings.all fun s => s.length ≤ 255)
  | 43 => do
      let (_, rest) ← Field.number 65535 tokens
      let (algorithm, rest) ← Field.text rest
      let (digestType, rest) ← Field.number 255 rest
      let digits ← Field.joined rest
      let digest ← Field.hex digits
      check (!digits.isEmpty && isAlgorithm algorithm && isDigest digestType digest.length)
  | 46 => do
      let (covered, rest) ← readType tokens
      let (algorithm, rest) ← Field.text rest
      let (_, rest) ← Field.number 255 rest
      let (_, rest) ← Field.ttl rest
      let (expiration, rest) ← Field.text rest
      let (inception, rest) ← Field.text rest
      let (_, rest) ← Field.number 65535 rest
      let (_, rest) ← Field.name origin rest
      readBase64 rest
      if isAlgorithm algorithm && isSignatureTime expiration && isSignatureTime inception then
        return .signature covered
      else throw .badData
  | 47 => do
      let (_, rest) ← Field.name origin tokens
      readTypes rest.length rest
      return .other
  | 48 => do
      let (_, rest) ← Field.number 65535 tokens
      let (_, rest) ← Field.number 255 rest
      let (algorithm, rest) ← Field.text rest
      readBase64 rest
      check (isAlgorithm algorithm)
  | 63 => do
      let (_, rest) ← Field.number (Nat.pow 2 32 - 1) tokens
      let (scheme, rest) ← Field.number 255 rest
      let (algorithm, rest) ← Field.number 255 rest
      let digits ← Field.joined rest
      let digest ← Field.hex digits
      check (!digits.isEmpty && isZoneDigest scheme algorithm digest.length)
  | 257 => do
      let (_, rest) ← Field.number 255 tokens
      let (tag, rest) ← Field.text rest
      let (_, rest) ← Field.text rest
      Field.done rest
      check (isTag tag)
  | _ => if isGenericOnly t then throw .badData else readAny tokens

/-- The data of a type, up to the end of the entry. -/
def read (origin : DomainName) (t : RecordType) (tokens : List Token)
    : Except Flaw RecordData :=
  match tokens with
  | .word ['\\', '#'] :: rest => do ofWire t (← readGeneric rest)
  | tokens => readOwn origin t tokens

end RecordData

end NameserverAudit.Zone
