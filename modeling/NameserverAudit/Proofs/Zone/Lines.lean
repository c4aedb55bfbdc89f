import Mathlib.Tactic.SplitIfs
import NameserverAudit.Zone.Directory

/-! Entries that stand on later lines, or after a time to live was given. Main statements: a reader
of records passes over a comment on a line of its own, and a time to live in front of a text makes
a difference only to a text that misses one.
-/

namespace NameserverAudit.Zone

-----------------------------------------------------------------------------------------
-- Entries on later lines
-----------------------------------------------------------------------------------------

def Line.later (k : Nat) (l : Line) : Line :=
  { l with number := l.number + k }

def Scan.later (k : Nat) (s : Scan) : Scan :=
  { s with number := s.number + k }

def Step.later (k : Nat) : Step → Step
  | .onward s => .onward (s.later k)
  | .ended l => .ended (l.later k)
  | .stuck l => .stuck (l.later k)

namespace Scan

variable (k : Nat) (s : Scan)

theorem later_push (t : Token) : (s.later k).push t = (s.push t).later k := rfl

theorem later_endLine : (s.later k).endLine = s.endLine.later k := by
  unfold endLine
  by_cases closed : s.depth = 0
  · simp [later, closed, Step.later, line, Line.later]
  · simp [later, closed, Step.later, Nat.add_right_comm]

theorem later_enterComment : (s.later k).enterComment = s.enterComment.later k := by
  unfold enterComment
  by_cases first : s.tokens.isEmpty && !s.indented <;> simp [later, first, push, enter]

theorem later_stepGap (c : Char) : (s.later k).stepGap c = (s.stepGap c).later k := by
  have depth : (s.later k).depth = s.depth := rfl
  simp only [stepGap, later_endLine, later_enterComment, depth]
  split_ifs <;> rfl

theorem later_step (c : Char) : (s.later k).step c = (s.step c).later k := by
  have mode : (s.later k).mode = s.mode := rfl
  unfold step
  rw [mode]
  split
  · exact later_stepGap k s c
  · rw [later_push, later_stepGap]
    split_ifs <;> rfl
  · split_ifs <;> rfl
  · split_ifs <;> rfl
  · rfl
  · rw [later_endLine]
    split_ifs <;> rfl

theorem later_finish : (s.later k).finish = s.finish.later k := by
  obtain ⟨number, mode, depth, fresh, indented, tokens⟩ := s
  by_cases closed : depth = 0 <;>
    cases mode <;> simp [finish, later, push, line, Line.later, closed]

/-- A text that begins on a later line has the same entries, that much later, by induction on the
text.
-/
theorem later_lines (text : List Char)
    : (s.later k).lines text = (s.lines text).map (Line.later k) := by
  induction text generalizing s with
  | nil => simp [lines, later_finish]
  | cons c rest ih =>
      rw [lines, lines, later_step]
      cases s.step c with
      | onward next => exact ih next
      | ended line =>
          have next : start (line.number + k + 1) = (start (line.number + 1)).later k := by
            simp [start, later, Nat.add_right_comm]
          simp [Step.later, Line.later, next, ih]
      | stuck line => rfl

/-- A comment is an entry of its own, and what comes after it is not changed. -/
theorem lines_of_comment {comment : List Char} (h : '\n' ∉ comment) (number : Nat)
    (text : List Char)
    : (start number).lines (';' :: comment ++ '\n' :: text)
      = ⟨number, false, [.comment]⟩ :: (start (number + 1)).lines text := by
  let entered : Scan := ⟨number, .comment, 0, false, false, [.comment]⟩
  calc (start number).lines (';' :: comment ++ '\n' :: text)
      = entered.lines (comment ++ '\n' :: text) := rfl
    _ = entered.lines ('\n' :: text) := lines_comment entered rfl comment _ h
    _ = ⟨number, false, [.comment]⟩ :: (start (number + 1)).lines text := rfl

end Scan

def TextFault.later (k : Nat) : TextFault → TextFault
  | .flawed line flaw => .flawed (line + k) flaw
  | fault => fault

namespace Context

variable (c : Context) (k number : Nat) (tokens : List Token)

theorem takeName_later (origin : DomainName)
    : takeName (number + k) origin tokens
      = (takeName number origin tokens).mapError (.later k) := by
  unfold takeName
  split <;> rfl

theorem mapError_flawed_later {α : Type} (m : Except Flaw α)
    : m.mapError (TextFault.flawed (number + k))
      = (m.mapError (TextFault.flawed number)).mapError (.later k) := by
  cases m <;> rfl

/-- What is done one after the other comes to the same on later lines if each of both does. -/
theorem bind_later {α β : Type} {m m' : Except TextFault α} {f f' : α → Except TextFault β}
    (first : m' = m.mapError (.later k)) (next : ∀ x, f' x = (f x).mapError (.later k))
    : (m' >>= f') = (m >>= f).mapError (.later k) := by
  subst first
  cases m with
  | error fault => rfl
  | ok x => exact next x

/-- Adding a record tells no line. -/
theorem add_later (r : Record) : c.add r = (c.add r).mapError (.later k) := by
  unfold add
  dsimp only
  split_ifs <;> rfl

theorem readOwned_later (owner : DomainName)
    : c.readOwned (number + k) owner tokens
      = (c.readOwned number owner tokens).mapError (.later k) := by
  unfold readOwned
  split
  · rfl
  · exact add_later ..

theorem templateOf_later (cs : List Char)
    : templateOf (number + k) cs = (templateOf number cs).mapError (.later k) := by
  unfold templateOf
  split <;> rfl

section
variable (type : RecordType) (owner data : Template)

theorem addGenerated_later (n : Nat)
    : c.addGenerated (number + k) type owner data n
      = (c.addGenerated number type owner data n).mapError (.later k) := by
  refine bind_later k (takeName_later ..) fun ⟨name, _⟩ => ?_
  dsimp only
  split
  · rfl
  · exact add_later ..

/-- By induction on the numbers. -/
theorem addNumbers_later (numbers : List Nat)
    : c.addNumbers (number + k) type owner data numbers
      = (c.addNumbers number type owner data numbers).mapError (.later k) := by
  induction numbers generalizing c with
  | nil => rfl
  | cons n rest ih =>
      rw [addNumbers, addNumbers, addGenerated_later]
      cases c.addGenerated number type owner data n with
      | error fault => rfl
      | ok next => exact ih next

end

theorem generate_later (g : Generator)
    : c.generate (number + k) g tokens
      = (c.generate number g tokens).mapError (.later k) := by
  refine bind_later k (templateOf_later ..) fun owner => ?_
  refine bind_later k (templateOf_later ..) fun data => ?_
  split
  · refine bind_later k (addNumbers_later ..) fun next => ?_
    split
    · rfl
    · exact readOwned_later ..
  · rfl

/-- What is behind the directive for the time to live is a time to live and nothing else. -/
def ttlAlone (tokens : List Token) : Except Flaw Unit := do
  let (raw, rest) ← Field.rawWord tokens
  if (Ttl.ofChars? raw).isNone then throw .badTtl
  Field.done rest

theorem readDirective_ttl {name : List Char}
    (ttl : String.ofList (name.map Char.toUpper) = "$TTL")
    : c.readDirective number name tokens
      = ((ttlAlone tokens).mapError (.flawed number)).map fun _ => { c with hasTtl := true } := by
  unfold readDirective ttlAlone
  rw [ttl]
  dsimp only
  cases Field.rawWord tokens with
  | error flaw => rfl
  | ok taken =>
      simp only [Bind.bind, Except.bind, Except.mapError]
      split_ifs
      · rfl
      · cases Field.done taken.2 <;> rfl

theorem readDirective_later (name : List Char)
    : c.readDirective (number + k) name tokens
      = (c.readDirective number name tokens).mapError (.later k) := by
  by_cases ttl : String.ofList (name.map Char.toUpper) = "$TTL"
  · rw [readDirective_ttl _ _ _ ttl, readDirective_ttl _ _ _ ttl]
    cases ttlAlone tokens <;> rfl
  · unfold readDirective
    dsimp only
    split
    · next h => exact absurd h ttl
    · refine bind_later k (takeName_later ..) fun taken => ?_
      exact bind_later k (mapError_flawed_later ..) fun _ => rfl
    · exact bind_later k (mapError_flawed_later ..) fun _ => generate_later ..
    · rfl

theorem readLine_later (line : Line)
    : c.readLine (line.later k) = (c.readLine line).mapError (.later k) := by
  unfold readLine Line.later
  dsimp only
  split
  · rfl
  · rfl
  · split <;> rfl
  all_goals
    split
    · exact readOwned_later ..
    · split
      · rfl
      · exact readDirective_later ..
      · rw [takeName_later]
        cases takeName line.number c.origin line.tokens with
        | error fault => rfl
        | ok taken => exact readOwned_later ..

/-- Entries on later lines come to the same, but for the line that a fault tells, by induction on
them.
-/
theorem readLines_later (lines : List Line)
    : c.readLines (lines.map (Line.later k)) = (c.readLines lines).mapError (.later k) := by
  induction lines generalizing c with
  | nil => rfl
  | cons line rest ih =>
      simp only [List.map_cons, readLines, readLine_later]
      cases c.readLine line with
      | error fault => rfl
      | ok next => exact ih next

-----------------------------------------------------------------------------------------
-- Entries after a time to live
-----------------------------------------------------------------------------------------

/-- The same with a time to live that was given before. -/
def givenTtl : Context :=
  { c with hasTtl := true }

/-- The first reading of a record misses a time to live, or both readings find the same record,
and a time to live is known after it.
-/
def MissesOrAgrees (r r' : Except Flaw (Record × Bool)) : Prop :=
  r = .error .noTtl
  ∨ ∃ found : Except Flaw Record, r = found.map (·, true) ∧ r' = found.map (·, true)

theorem MissesOrAgrees.bind {α : Type} {m : Except Flaw α}
    {f f' : α → Except Flaw (Record × Bool)} (h : ∀ x, MissesOrAgrees (f x) (f' x))
    : MissesOrAgrees (m >>= f) (m >>= f') := by
  cases m with
  | error flaw => exact .inr ⟨.error flaw, rfl, rfl⟩
  | ok x => exact h x

/-- The time to live that was given before counts at the end only, when all fields are read. -/
theorem readRecord_givenTtl (owner : DomainName)
    : MissesOrAgrees (c.readRecord owner tokens) (c.givenTtl.readRecord owner tokens) := by
  unfold readRecord
  refine .bind ?_
  rintro ⟨early, tokens⟩
  refine .bind fun tokens => ?_
  cases early
  all_goals
    refine .bind ?_
    rintro ⟨late, tokens⟩
    refine .bind ?_
    rintro ⟨type, tokens⟩
    refine .bind fun data => ?_
    split
    · exact .inr ⟨.ok ⟨owner, type, data⟩, rfl, by simp [givenTtl]; rfl⟩
    · exact .inl rfl

theorem add_givenTtl (r : Record) : c.givenTtl.add r = (c.add r).map givenTtl := by
  have kinds : c.givenTtl.kindsOf r.owner = c.kindsOf r.owner := rfl
  unfold add
  rw [kinds]
  dsimp only
  split_ifs <;> rfl

/-- The first reading of an entry misses a time to live, or the second one comes to the same. -/
def MissesOrFollows (r r' : Except TextFault Context) : Prop :=
  r = .error (.flawed number .noTtl) ∨ r' = r.map givenTtl

theorem readOwned_givenTtl (owner : DomainName)
    : MissesOrFollows number (c.readOwned number owner tokens)
        (c.givenTtl.readOwned number owner tokens) := by
  unfold readOwned
  rcases c.readRecord_givenTtl tokens owner with missing | ⟨found, here, there⟩
  · exact .inl (by rw [missing])
  · right
    rw [here, there]
    cases found with
    | error flaw => rfl
    | ok r => exact add_givenTtl { c with lastOwner := owner, hasTtl := true } r

/-- A generator misses a time to live, or it is found with one as without. -/
theorem takeGenerator_givenTtl
    : c.takeGenerator tokens = .error .noTtl
      ∨ c.givenTtl.takeGenerator tokens = c.takeGenerator tokens := by
  unfold takeGenerator
  cases takeRange tokens with
  | error flaw => exact .inr rfl
  | ok taken =>
      simp only [Bind.bind, Except.bind]
      cases Field.rawWord taken.2 with
      | error flaw => exact .inr rfl
      | ok taken =>
          dsimp only
          cases takeTtl taken.2 with
          | error flaw => exact .inr rfl
          | ok taken =>
              dsimp only
              by_cases given : (taken.1 || c.hasTtl) = true
              · have given' : (taken.1 || c.givenTtl.hasTtl) = true := Bool.or_true _
                rw [if_pos given, if_pos given']
                exact .inr rfl
              · rw [if_neg given]
                exact .inl rfl

section
variable (type : RecordType) (owner data : Template)

/-- A record is generated with a time to live in any case. -/
theorem addGenerated_givenTtl (n : Nat)
    : c.givenTtl.addGenerated number type owner data n
      = (c.addGenerated number type owner data n).map givenTtl := by
  have origin : c.givenTtl.origin = c.origin := rfl
  unfold addGenerated
  rw [origin]
  cases takeName number c.origin [.word (owner.chars n)] with
  | error fault => rfl
  | ok taken =>
      simp only [Bind.bind, Except.bind]
      split
      · rfl
      · exact add_givenTtl { c with lastOwner := taken.1, hasTtl := true } _

/-- By induction on the numbers. -/
theorem addNumbers_givenTtl (numbers : List Nat)
    : c.givenTtl.addNumbers number type owner data numbers
      = (c.addNumbers number type owner data numbers).map givenTtl := by
  induction numbers generalizing c with
  | nil => rfl
  | cons n rest ih =>
      rw [addNumbers, addNumbers, addGenerated_givenTtl]
      cases c.addGenerated number type owner data n with
      | error fault => rfl
      | ok next => exact ih next

end

theorem generate_givenTtl (g : Generator)
    : MissesOrFollows number (c.generate number g tokens)
        (c.givenTtl.generate number g tokens) := by
  unfold generate
  cases templateOf number g.owner with
  | error fault => exact .inr rfl
  | ok owner =>
      simp only [Bind.bind, Except.bind]
      cases templateOf number g.data with
      | error fault => exact .inr rfl
      | ok data =>
          dsimp only
          split
          · simp only [addNumbers_givenTtl]
            cases c.addNumbers number g.type owner data g.range.numbers with
            | error fault => exact .inr rfl
            | ok next =>
                simp only [Except.map]
                split
                · exact .inr rfl
                · exact readOwned_givenTtl ..
          · exact .inr rfl

theorem readDirective_givenTtl (name : List Char)
    : MissesOrFollows number (c.readDirective number name tokens)
        (c.givenTtl.readDirective number name tokens) := by
  have origin : c.givenTtl.origin = c.origin := rfl
  by_cases ttl : String.ofList (name.map Char.toUpper) = "$TTL"
  · right
    rw [readDirective_ttl _ _ _ ttl, readDirective_ttl _ _ _ ttl]
    cases ttlAlone tokens <;> rfl
  · unfold readDirective
    dsimp only
    split
    · next h => exact absurd h ttl
    · right
      rw [origin]
      cases takeName number c.origin tokens with
      | error fault => rfl
      | ok taken =>
          simp only [Bind.bind, Except.bind, Except.mapError]
          cases Field.done taken.2 <;> rfl
    · rcases c.takeGenerator_givenTtl tokens with missing | same
      · exact .inl (by rw [missing]; rfl)
      · rw [same]
        cases c.takeGenerator tokens with
        | error flaw => exact .inr rfl
        | ok taken => exact generate_givenTtl ..
    · exact .inr rfl

theorem readLine_givenTtl (line : Line)
    : MissesOrFollows line.number (c.readLine line) (c.givenTtl.readLine line) := by
  have origin : c.givenTtl.origin = c.origin := rfl
  unfold readLine
  split
  · exact .inr rfl
  · exact .inr rfl
  · right
    split <;> rfl
  all_goals
    split
    · exact readOwned_givenTtl ..
    · split
      · exact .inr rfl
      · exact readDirective_givenTtl ..
      · rw [origin]
        cases takeName line.number c.origin line.tokens with
        | error fault => exact .inr rfl
        | ok taken => exact readOwned_givenTtl ..

/-- Entries come to the same if a time to live was given before, as long as none of them misses
one, by induction on them.
-/
theorem readLines_givenTtl (lines : List Line)
    : (∃ number, c.readLines lines = .error (.flawed number .noTtl))
      ∨ c.givenTtl.readLines lines = (c.readLines lines).map givenTtl := by
  induction lines generalizing c with
  | nil => exact .inr rfl
  | cons line rest ih =>
      simp only [readLines]
      rcases c.readLine_givenTtl line with missing | same
      · exact .inl ⟨line.number, by rw [missing]⟩
      · rw [same]
        cases c.readLine line with
        | error fault => exact .inr rfl
        | ok next => exact ih next

/-- The records that entries give. -/
def recordsFrom (lines : List Line) : Except TextFault (List Record) :=
  (c.readLines lines).map fun c => c.records.reverse

theorem recordsFrom_later (lines : List Line)
    : c.recordsFrom (lines.map (Line.later k)) = (c.recordsFrom lines).mapError (.later k) := by
  unfold recordsFrom
  rw [readLines_later]
  cases c.readLines lines <;> rfl

theorem recordsFrom_comment (lines : List Line)
    : c.recordsFrom (⟨number, false, [.comment]⟩ :: lines) = c.recordsFrom lines := rfl

theorem recordsFrom_givenTtl (lines : List Line)
    : (∃ number, c.recordsFrom lines = .error (.flawed number .noTtl))
      ∨ c.givenTtl.recordsFrom lines = c.recordsFrom lines := by
  unfold recordsFrom
  rcases c.readLines_givenTtl lines with ⟨number, missing⟩ | same
  · exact .inl ⟨number, by rw [missing]; rfl⟩
  · right
    rw [same]
    cases c.readLines lines <;> rfl

end Context

-----------------------------------------------------------------------------------------
-- Texts
-----------------------------------------------------------------------------------------

theorem recordsOf_eq (text : List Char)
    : recordsOf text = Context.start.recordsFrom (linesOf text) := by
  unfold recordsOf Context.recordsFrom
  cases Context.start.readLines (linesOf text) <;> rfl

/-- The directive that is put in front of a text gives a time to live. -/
theorem recordsOf_directive (text : List Char)
    : recordsOf (ttlLine ++ text)
      = Context.start.givenTtl.recordsFrom ((Scan.start 2).lines text) := by
  have lines : linesOf (ttlLine ++ text)
      = ⟨1, false, [.word "$TTL".toList, .word "3600000".toList]⟩ :: (Scan.start 2).lines text :=
    rfl
  have read : Context.start.readLine
      ⟨1, false, [.word "$TTL".toList, .word "3600000".toList]⟩ = .ok Context.start.givenTtl :=
    rfl
  rw [recordsOf_eq, lines]
  unfold Context.recordsFrom
  rw [Context.readLines, read]

section
variable {comment text : List Char} (h : '\n' ∉ comment)

include h

theorem recordsOf_comment
    : recordsOf (';' :: comment ++ '\n' :: text) = (recordsOf text).mapError (.later 1) := by
  have next : (Scan.start 2).lines text = ((Scan.start 1).lines text).map (Line.later 1) :=
    Scan.later_lines 1 (.start 1) text
  rw [recordsOf_eq, recordsOf_eq, linesOf, Scan.lines_of_comment h, Context.recordsFrom_comment,
    next, Context.recordsFrom_later, linesOf]

theorem recordsOf_directive_comment
    : recordsOf (ttlLine ++ (';' :: comment ++ '\n' :: text))
      = (recordsOf (ttlLine ++ text)).mapError (.later 1) := by
  have next : (Scan.start 3).lines text = ((Scan.start 2).lines text).map (Line.later 1) :=
    Scan.later_lines 1 (.start 2) text
  rw [recordsOf_directive, recordsOf_directive, Scan.lines_of_comment h,
    Context.recordsFrom_comment, next, Context.recordsFrom_later]

end

/-- With a time to live in front a text comes to the same, if it does not miss one. -/
theorem recordsOf_directive_eq (text : List Char)
    : (∃ number, recordsOf text = .error (.flawed number .noTtl))
      ∨ recordsOf (ttlLine ++ text) = (recordsOf text).mapError (.later 1) := by
  have next : (Scan.start 2).lines text = ((Scan.start 1).lines text).map (Line.later 1) :=
    Scan.later_lines 1 (.start 1) text
  rw [recordsOf_directive, recordsOf_eq, linesOf, next, Context.recordsFrom_later]
  rcases Context.start.recordsFrom_givenTtl ((Scan.start 1).lines text) with missing | same
  · exact .inl missing
  · exact .inr (by rw [same])

end NameserverAudit.Zone
