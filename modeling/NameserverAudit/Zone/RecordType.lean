import NameserverAudit.Text.Digit

/-!
Types of records: a code of 16 bits, written by its name or as `TYPE` and the code.
-/

namespace NameserverAudit

structure RecordType where
  code : UInt16
deriving DecidableEq, Repr, Inhabited

inductive TypeFault where
  | unknown
  | outOfRange
deriving DecidableEq, Repr

def TypeFault.message : TypeFault → String
  | .unknown => "DNS resource record type is unknown."
  | .outOfRange => "type must be an int between >= 0 and <= 65535"

namespace RecordType

def a : RecordType := ⟨1⟩

def ns : RecordType := ⟨2⟩

def cname : RecordType := ⟨5⟩

def soa : RecordType := ⟨6⟩

def aaaa : RecordType := ⟨28⟩

def names : List (String × Nat) := [
  ("NONE", 0), ("A", 1), ("NS", 2), ("MD", 3), ("MF", 4), ("CNAME", 5), ("SOA", 6), ("MB", 7),
  ("MG", 8), ("MR", 9), ("NULL", 10), ("WKS", 11), ("PTR", 12), ("HINFO", 13), ("MINFO", 14),
  ("MX", 15), ("TXT", 16), ("RP", 17), ("AFSDB", 18), ("X25", 19), ("ISDN", 20), ("RT", 21),
  ("NSAP", 22), ("NSAP-PTR", 23), ("SIG", 24), ("KEY", 25), ("PX", 26), ("GPOS", 27),
  ("AAAA", 28), ("LOC", 29), ("NXT", 30), ("SRV", 33), ("NAPTR", 35), ("KX", 36), ("CERT", 37),
  ("A6", 38), ("DNAME", 39), ("OPT", 41), ("APL", 42), ("DS", 43), ("SSHFP", 44),
  ("IPSECKEY", 45), ("RRSIG", 46), ("NSEC", 47), ("DNSKEY", 48), ("DHCID", 49), ("NSEC3", 50),
  ("NSEC3PARAM", 51), ("TLSA", 52), ("SMIMEA", 53), ("HIP", 55), ("NINFO", 56), ("CDS", 59),
  ("CDNSKEY", 60), ("OPENPGPKEY", 61), ("CSYNC", 62), ("ZONEMD", 63), ("SVCB", 64),
  ("HTTPS", 65), ("DSYNC", 66), ("SPF", 99), ("UNSPEC", 103), ("NID", 104), ("L32", 105),
  ("L64", 106), ("LP", 107), ("EUI48", 108), ("EUI64", 109), ("TKEY", 249), ("TSIG", 250),
  ("IXFR", 251), ("AXFR", 252), ("MAILB", 253), ("MAILA", 254), ("ANY", 255), ("URI", 256),
  ("CAA", 257), ("AVC", 258), ("AMTRELAY", 260), ("RESINFO", 261), ("WALLET", 262),
  ("TA", 32768), ("DLV", 32769)]

def name (t : RecordType) : String :=
  match names.find? fun entry => entry.2 = t.code.toNat with
  | some entry => entry.1
  | none => s!"TYPE{t.code.toNat}"

def ofCode (n : Int) : Except TypeFault RecordType :=
  if 0 ≤ n ∧ n ≤ 65535 then .ok ⟨UInt16.ofNat n.toNat⟩ else .error .outOfRange

def number? (cs : List Char) : Option Nat :=
  if cs.isEmpty then none
  else (cs.mapM Text.digit?).map fun ds => ds.foldl (fun n d => 10 * n + d) 0

/-- The number after a word in front of a text. -/
def numberAfter? (word : String) (cs : List Char) : Option Nat :=
  if word.toList.isPrefixOf cs then number? (cs.drop word.length) else none

/-- The type that a text in either case names; a hyphen may be written as an underscore. -/
def ofChars (cs : List Char) : Except TypeFault RecordType :=
  let upper := cs.map Char.toUpper
  let hyphenated := String.ofList (upper.map fun c => if c = '_' then '-' else c)
  match names.find? fun entry => entry.1 = hyphenated with
  | some entry => .ok ⟨UInt16.ofNat entry.2⟩
  | none =>
      match numberAfter? "TYPE" upper with
      | some n => ofCode n
      | none => .error .unknown

def ofText (s : String) : Except TypeFault RecordType :=
  ofChars s.toList

end RecordType

end NameserverAudit
