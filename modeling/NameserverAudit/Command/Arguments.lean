import NameserverAudit.Command.Word
import NameserverAudit.Number.Reading
import NameserverAudit.Text.Quoted

/-!
What a command line asks for. Its words are taken from left to right; the last of several
values of one flag counts, and what is neither a flag nor the value of one is left over. The
root zone must be given, nothing may be left over, and the time between passes must be
positive.
-/

namespace NameserverAudit.Command

structure Arguments where
  rootZone : Option String
  list : Option String
  output : String
  ledgerIn : Option String
  ledgerOut : Option String
  all : Bool
  watch : Option Double
  workers : Option Int
  timeout : Option Double
  attempts : Option Int
  noProbe : Bool
  noIpv6 : Bool
  summary : Bool
  verbosity : Nat
deriving DecidableEq, Repr

inductive ArgumentFault where
  | ambiguous (a : Ambiguity)
  | attachedText (f : Flag) (text : String)
  | noValue (f : Flag)
  | notAnInteger (f : Flag) (text : String)
  | notANumber (f : Flag) (text : String)
  | noRootZone
  | leftOver (texts : List String)
  | watchNotPositive
deriving DecidableEq, Repr

def ArgumentFault.message : ArgumentFault → String
  | .ambiguous a => a.message
  | .attachedText f text => s!"argument {f.label}: ignored explicit argument {Text.quoted text}"
  | .noValue f => s!"argument {f.label}: expected one argument"
  | .notAnInteger f text => s!"argument {f.label}: invalid int value: {Text.quoted text}"
  | .notANumber f text => s!"argument {f.label}: invalid float value: {Text.quoted text}"
  | .noRootZone => s!"the following arguments are required: {Flag.rootZone.label}"
  | .leftOver texts => "unrecognized arguments: " ++ " ".intercalate texts
  | .watchNotPositive => "-w must be a positive number of seconds"

inductive NotRun where
  /-- Help was asked for before anything went wrong. -/
  | help
  | fault (f : ArgumentFault)
deriving DecidableEq, Repr

namespace Arguments

def none : Arguments where
  rootZone := .none
  list := .none
  output := "-"
  ledgerIn := .none
  ledgerOut := .none
  all := false
  watch := .none
  workers := .none
  timeout := .none
  attempts := .none
  noProbe := false
  noIpv6 := false
  summary := false
  verbosity := 0

/-- Turns a switch on. A flag with a value stays as it is. -/
def switchOn (a : Arguments) : Flag → Arguments
  | .all => { a with all := true }
  | .noProbe => { a with noProbe := true }
  | .noIpv6 => { a with noIpv6 := true }
  | .summary => { a with summary := true }
  | .verbose => { a with verbosity := a.verbosity + 1 }
  | _ => a

/-- Gives a flag a value. A switch stays as it is. -/
def give (a : Arguments) (f : Flag) (text : String) : Except ArgumentFault Arguments :=
  match f with
  | .rootZone => .ok { a with rootZone := text }
  | .list => .ok { a with list := text }
  | .output => .ok { a with output := text }
  | .ledgerIn => .ok { a with ledgerIn := text }
  | .ledgerOut => .ok { a with ledgerOut := text }
  | .watch =>
      match Reading.double? text with
      | some x => .ok { a with watch := x }
      | .none => .error (.notANumber f text)
  | .timeout =>
      match Reading.double? text with
      | some x => .ok { a with timeout := x }
      | .none => .error (.notANumber f text)
  | .workers =>
      match Reading.int? text with
      | some n => .ok { a with workers := n }
      | .none => .error (.notAnInteger f text)
  | .attempts =>
      match Reading.int? text with
      | some n => .ok { a with attempts := n }
      | .none => .error (.notAnInteger f text)
  | _ => .ok a

/-- Turns switches on, up to the one that asks for help. -/
def switchOnAll (a : Arguments) : List Flag → Except NotRun Arguments
  | [] => .ok a
  | .help :: _ => .error .help
  | f :: rest => switchOnAll (a.switchOn f) rest

end Arguments

inductive ClusterEnd where
  | switch
  | given (f : Flag) (text : String)
  /-- With a flag whose value is the next argument. -/
  | awaiting (f : Flag)
  /-- With letters of which the first is no flag. -/
  | stray (text : String)
deriving DecidableEq, Repr

/-- The flags of one argument: switches, and what comes after them. -/
structure Cluster where
  switches : List Flag
  last : ClusterEnd
deriving DecidableEq, Repr

namespace Cluster

/-- A flag that takes a value, with the text after its letter; an equals sign in front of the
value is no part of it. -/
def ofValue (switches : List Flag) (f : Flag) : List Char → Cluster
  | [] => ⟨switches, .awaiting f⟩
  | '=' :: text => ⟨switches, .given f (String.ofList text)⟩
  | text => ⟨switches, .given f (String.ofList text)⟩

/-- The flags that the text after a switch gives, each by one letter. -/
def ofLetters (switch : Flag) : List Char → Except ArgumentFault Cluster
  | [] => .ok ⟨[switch], .switch⟩
  | '-' :: rest => .error (.attachedText switch (String.ofList ('-' :: rest)))
  | '=' :: rest => .error (.attachedText switch (String.ofList rest))
  | c :: rest =>
      match Flag.ofSpelling? (String.ofList ['-', c]) with
      | none => .ok ⟨[switch], .stray (String.ofList ('-' :: c :: rest))⟩
      | some f =>
          if f.takesValue then .ok (ofValue [switch] f rest)
          else
            match ofLetters f rest with
            | .error fault => .error fault
            | .ok more => .ok { more with switches := switch :: more.switches }

def ofWord (f : Flag) (attached : Attachment) : Except ArgumentFault Cluster :=
  if f.takesValue then
    match attached with
    | .nothing => .ok ⟨[], .awaiting f⟩
    | .assigned text | .glued text => .ok ⟨[], .given f text⟩
  else
    match attached with
    | .nothing => .ok ⟨[f], .switch⟩
    | .assigned text => .error (.attachedText f text)
    | .glued text => ofLetters f text.toList

end Cluster

namespace Arguments

/-- Gives a flag its value after switches were turned on. -/
def take (a : Arguments) (switches : List Flag) (f : Flag) (text : String)
    : Except NotRun Arguments :=
  match a.switchOnAll switches with
  | .error r => .error r
  | .ok a =>
      match a.give f text with
      | .error fault => .error (.fault fault)
      | .ok a => .ok a

def leave (text : String) (r : Except NotRun (Arguments × List String))
    : Except NotRun (Arguments × List String) :=
  r.map fun taken => (taken.1, text :: taken.2)

/-- Takes words from left to right, and gives what is left over. -/
def takeWords (a : Arguments) : List Word → Except NotRun (Arguments × List String)
  | [] => .ok (a, [])
  | .flag f attached :: rest =>
      match Cluster.ofWord f attached, rest with
      | .error fault, _ => .error (.fault fault)
      | .ok ⟨switches, .switch⟩, rest =>
          match a.switchOnAll switches with
          | .error r => .error r
          | .ok a => a.takeWords rest
      | .ok ⟨switches, .stray text⟩, rest =>
          match a.switchOnAll switches with
          | .error r => .error r
          | .ok a => leave text (a.takeWords rest)
      | .ok ⟨switches, .given g text⟩, rest =>
          match a.take switches g text with
          | .error r => .error r
          | .ok a => a.takeWords rest
      | .ok ⟨switches, .awaiting g⟩, .value text :: rest =>
          match a.take switches g text with
          | .error r => .error r
          | .ok a => a.takeWords rest
      | .ok ⟨_, .awaiting g⟩, _ => .error (.fault (.noValue g))
  | .value text :: rest | .stray text :: rest => leave text (a.takeWords rest)

def check (a : Arguments) (left : List String) : Except ArgumentFault Arguments :=
  if a.rootZone.isNone then .error .noRootZone
  else if !left.isEmpty then .error (.leftOver left)
  else if a.watch.any fun x => x.le .zero then .error .watchNotPositive
  else .ok a

def ofList (arguments : List String) : Except NotRun Arguments :=
  match Word.ofArguments arguments with
  | .error a => .error (.fault (.ambiguous a))
  | .ok words =>
      match none.takeWords words with
      | .error r => .error r
      | .ok (a, left) =>
          match a.check left with
          | .error fault => .error (.fault fault)
          | .ok a => .ok a

/-- A command line that is accepted gives a root zone. -/
theorem rootZone_ne_none_of_check {a b : Arguments} {left : List String}
    (h : a.check left = .ok b)
    : b.rootZone ≠ .none := by
  unfold check at h
  split at h
  · simp at h
  · next hz =>
    split at h
    · simp at h
    · split at h
      · simp at h
      · simp only [Except.ok.injEq] at h
        subst h
        simpa using hz

end Arguments

end NameserverAudit.Command
