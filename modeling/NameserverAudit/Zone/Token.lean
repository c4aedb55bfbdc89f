import NameserverAudit.Name.DomainName

/-!
The tokens of zone text, line by line. Blanks separate words, a semicolon begins a comment,
parentheses let an entry go on over the ends of lines, and a quoted string is one token. A
backslash keeps the character after it in its word, and both stay in the token. Text that
breaks these rules ends the tokens with the flaw, so that what stands before it is read first.
-/

namespace NameserverAudit.Zone

/-- What can be wrong at some place of zone text. -/
inductive Flaw where
  | strayParenthesis
  | openParenthesis
  | openQuote
  | lineEndInQuotes
  | danglingEscape
  | noWord
  | noText
  | trailingText
  | badTtl
  | unknownDirective (name : String)
  | badRange
  | unknownBase (c : Char)
  | foreignClass
  | unknownType (name : String)
  | noTtl
  | badNumber
  | badAddress
  | badName (fault : NameFault)
  | badText
  | badData
deriving DecidableEq, Repr

def Flaw.message : Flaw → String
  | .strayParenthesis => "closing parenthesis without an opening one"
  | .openParenthesis => "unbalanced parentheses"
  | .openQuote => "unterminated quoted string"
  | .lineEndInQuotes => "newline in quoted string"
  | .danglingEscape => "nothing follows an escape"
  | .noWord => "expecting an identifier"
  | .noText => "expecting a string"
  | .trailingText => "expected EOL or EOF"
  | .badTtl => "bad TTL"
  | .unknownDirective name => s!"Unknown zone file directive '{name}'"
  | .badRange => "expecting a range"
  | .unknownBase c => s!"invalid type {c}"
  | .foreignClass => "RR class is not zone's class"
  | .unknownType name => s!"unknown rdatatype '{name}'"
  | .noTtl => "Missing default TTL value"
  | .badNumber => "expecting an integer"
  | .badAddress => "expecting an address"
  | .badName fault => fault.message
  | .badText => "bad string"
  | .badData => "bad record data"

inductive Token where
  | word (raw : List Char)
  | quoted (raw : List Char)
  /-- A comment before the first word of an entry that does not start with blanks. -/
  | comment
  | broken (flaw : Flaw)
deriving DecidableEq, Repr

/-- The tokens of an entry, which may go on over several lines of text. -/
structure Line where
  /-- The line of text on which the entry ends, counted from one. -/
  number : Nat
  indented : Bool
  tokens : List Token
deriving DecidableEq, Repr

/-- What the reader is in the middle of; the characters of a token are held last first. -/
inductive Mode where
  | gap
  | word (raw : List Char)
  | escapeInWord (raw : List Char)
  | quoted (raw : List Char)
  | escapeInQuotes (raw : List Char)
  | comment
deriving DecidableEq, Repr

structure Scan where
  number : Nat
  mode : Mode
  depth : Nat
  fresh : Bool
  indented : Bool
  tokens : List Token
deriving DecidableEq, Repr

namespace Scan

def start (number : Nat) : Scan :=
  ⟨number, .gap, 0, true, false, []⟩

def line (s : Scan) : Line :=
  ⟨s.number, s.indented, s.tokens.reverse⟩

def push (s : Scan) (t : Token) : Scan :=
  { s with mode := .gap, fresh := false, tokens := t :: s.tokens }

def enter (s : Scan) (mode : Mode) : Scan :=
  { s with mode, fresh := false }

def enterComment (s : Scan) : Scan :=
  if s.tokens.isEmpty && !s.indented then (s.push .comment).enter .comment
  else s.enter .comment

end Scan

inductive Step where
  | onward (s : Scan)
  | ended (line : Line)
  | stuck (line : Line)
deriving DecidableEq, Repr

namespace Scan

def fail (s : Scan) (flaw : Flaw) : Step :=
  .stuck (s.push (.broken flaw)).line

/-- A line end outside of quotes: the end of the entry, or a blank between parentheses. -/
def endLine (s : Scan) : Step :=
  if s.depth = 0 then .ended s.line
  else .onward { s with number := s.number + 1, mode := .gap, fresh := false }

def stepGap (s : Scan) (c : Char) : Step :=
  if c = '\n' then s.endLine
  else if c = ' ' ∨ c = '\t' then
    .onward { s with indented := s.indented || s.fresh, fresh := false }
  else if c = '(' then .onward { s with depth := s.depth + 1, fresh := false }
  else if c = ')' then
    if s.depth = 0 then s.fail .strayParenthesis
    else .onward { s with depth := s.depth - 1, fresh := false }
  else if c = '"' then .onward (s.enter (.quoted []))
  else if c = ';' then .onward s.enterComment
  else if c = '\\' then .onward (s.enter (.escapeInWord ['\\']))
  else .onward (s.enter (.word [c]))

def isDelimiter (c : Char) : Bool :=
  [' ', '\t', '\n', ';', '(', ')', '"'].contains c

def step (s : Scan) (c : Char) : Step :=
  match s.mode with
  | .gap => s.stepGap c
  | .word raw =>
      if isDelimiter c then (s.push (.word raw.reverse)).stepGap c
      else if c = '\\' then .onward (s.enter (.escapeInWord (c :: raw)))
      else .onward (s.enter (.word (c :: raw)))
  | .escapeInWord raw =>
      if c = '\n' then s.fail .danglingEscape else .onward (s.enter (.word (c :: raw)))
  | .quoted raw =>
      if c = '"' then .onward (s.push (.quoted raw.reverse))
      else if c = '\n' then s.fail .lineEndInQuotes
      else if c = '\\' then .onward (s.enter (.escapeInQuotes (c :: raw)))
      else .onward (s.enter (.quoted (c :: raw)))
  | .escapeInQuotes raw => .onward (s.enter (.quoted (c :: raw)))
  | .comment => if c = '\n' then s.endLine else .onward s

def finish (s : Scan) : Line :=
  let closed (s : Scan) : Line :=
    if s.depth = 0 then s.line else (s.push (.broken .openParenthesis)).line
  match s.mode with
  | .gap | .comment => closed s
  | .word raw => closed (s.push (.word raw.reverse))
  | .escapeInWord _ => (s.push (.broken .danglingEscape)).line
  | .quoted _ | .escapeInQuotes _ => (s.push (.broken .openQuote)).line

/-- The entries of a text, of which a state has read a part. -/
def lines (s : Scan) : List Char → List Line
  | [] => [s.finish]
  | c :: rest =>
      match s.step c with
      | .onward next => next.lines rest
      | .ended line => line :: (start (line.number + 1)).lines rest
      | .stuck line => [line]

end Scan

def linesOf (text : List Char) : List Line :=
  (Scan.start 1).lines text

/-- A comment on a line of its own is passed over up to the line end, by induction on it. -/
theorem lines_comment (s : Scan) (hs : s.mode = .comment) (body rest : List Char)
    (h : '\n' ∉ body)
    : s.lines (body ++ rest) = s.lines rest := by
  induction body with
  | nil => rfl
  | cons c body ih =>
      simp only [List.mem_cons, not_or] at h
      have hc : c ≠ '\n' := Ne.symm h.1
      simp [Scan.lines, Scan.step, hs, hc, ih h.2]

end NameserverAudit.Zone
