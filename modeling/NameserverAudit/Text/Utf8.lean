/-!
Reading bytes as UTF-8. The reader accepts the well-formed sequences of the standard and
otherwise says where the first ill-formed sequence starts, how long it is and what is wrong.
-/

namespace NameserverAudit.Text.Utf8

inductive Fault where
  | invalidStart (byte : UInt8) (position : Nat)
  /-- A byte that has to continue a character does not; `last` is the place before it. -/
  | invalidContinuation (byte : UInt8) (position last : Nat)
  /-- The bytes end inside a character; `last` is the place of the last byte. -/
  | unexpectedEnd (byte : UInt8) (position last : Nat)
deriving DecidableEq, Repr

def hexByte (b : UInt8) : String :=
  String.ofList (Nat.toDigits 16 (b.toNat / 16) ++ Nat.toDigits 16 (b.toNat % 16))

/-- How a message names the bytes from `position` to `last`, of which the first is given. -/
def place (b : UInt8) (position last : Nat) : String :=
  if position = last then s!"byte 0x{hexByte b} in position {position}"
  else s!"bytes in position {position}-{last}"

def Fault.message : Fault → String
  | .invalidStart b p => s!"'utf-8' codec can't decode {place b p p}: invalid start byte"
  | .invalidContinuation b p q =>
      s!"'utf-8' codec can't decode {place b p q}: invalid continuation byte"
  | .unexpectedEnd b p q =>
      s!"'utf-8' codec can't decode {place b p q}: unexpected end of data"

/-- What a first byte asks for: its own payload, how many bytes follow, and the least and
the greatest second byte. -/
def lead? (b : UInt8) : Option (Nat × Nat × Nat × Nat) :=
  let n := b.toNat
  if n < 0x80 then some (n, 0, 0x80, 0xbf)
  else if n < 0xc2 then none
  else if n < 0xe0 then some (n - 0xc0, 1, 0x80, 0xbf)
  else if n = 0xe0 then some (0, 2, 0xa0, 0xbf)
  else if n = 0xed then some (0xd, 2, 0x80, 0x9f)
  else if n < 0xf0 then some (n - 0xe0, 2, 0x80, 0xbf)
  else if n = 0xf0 then some (0, 3, 0x90, 0xbf)
  else if n < 0xf4 then some (n - 0xf0, 3, 0x80, 0xbf)
  else if n = 0xf4 then some (4, 3, 0x80, 0x8f)
  else none

/-- What one reading of continuation bytes gives. -/
inductive Tail where
  | complete (code : Nat) (rest : List UInt8)
  /-- A byte that cannot stand here, after `seen` continuation bytes. -/
  | refused (seen : Nat)
  /-- The bytes ended after `seen` continuation bytes. -/
  | ended (seen : Nat)

/-- Reads `count` continuation bytes; the first of them has to lie between the bounds. -/
def tail (low high : Nat) : (count seen code : Nat) → List UInt8 → Tail
  | 0, _, code, rest => .complete code rest
  | _ + 1, seen, _, [] => .ended seen
  | count + 1, seen, code, b :: rest =>
      if low ≤ b.toNat ∧ b.toNat ≤ high then
        tail 0x80 0xbf count (seen + 1) (code * 64 + b.toNat % 64) rest
      else .refused seen

/-- The rest after a complete character is no longer than the bytes read from. -/
theorem length_of_tail {low high count seen code out : Nat} {bytes rest : List UInt8}
    (h : tail low high count seen code bytes = .complete out rest)
    : rest.length ≤ bytes.length := by
  induction count generalizing low high seen code bytes with
  | zero => simp_all [tail]
  | succ count ih =>
      cases bytes with
      | nil => simp [tail] at h
      | cons b more =>
          simp only [tail] at h
          split at h
          · have := ih h
            simp; omega
          · simp at h

/-- The characters of a byte sequence; `position` is the place of its first byte. -/
def decodeFrom (position : Nat) : List UInt8 → Except Fault (List Char)
  | [] => .ok []
  | b :: more =>
      match lead? b with
      | none => .error (.invalidStart b position)
      | some (payload, count, low, high) =>
          match h : tail low high count 0 payload more with
          | .refused seen => .error (.invalidContinuation b position (position + seen))
          | .ended seen => .error (.unexpectedEnd b position (position + seen))
          | .complete code rest =>
              have : rest.length < more.length + 1 :=
                Nat.lt_succ_of_le (length_of_tail h)
              (decodeFrom (position + count + 1) rest).map (Char.ofNat code :: ·)
termination_by bytes => bytes.length

/-- The characters of a byte sequence, or its first fault. -/
def decode (bytes : List UInt8) : Except Fault (List Char) :=
  decodeFrom 0 bytes

def encodeChar (c : Char) : List UInt8 :=
  let n := c.toNat
  let byte (k : Nat) := UInt8.ofNat k
  let follow (k : Nat) := byte (0x80 + k % 64)
  if n < 0x80 then [byte n]
  else if n < 0x800 then [byte (0xc0 + n / 64), follow n]
  else if n < 0x10000 then [byte (0xe0 + n / 4096), follow (n / 64), follow n]
  else [byte (0xf0 + n / 262144), follow (n / 4096), follow (n / 64), follow n]

def encode (cs : List Char) : List UInt8 :=
  cs.flatMap encodeChar

end NameserverAudit.Text.Utf8
