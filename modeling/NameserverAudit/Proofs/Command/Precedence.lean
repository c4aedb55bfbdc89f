import Mathlib.Data.List.Forall2
import NameserverAudit.Proofs.Command.Said
import NameserverAudit.Settings

/-! Where the settings of a command line come from: what the line says counts before what the
environment states, and that before the standard. Main statement: of an accepted environment
and an accepted command line, settings are refused exactly if those preferred are, and differ
from them at most in the two ledger files, which the environment cannot choose.
-/

namespace NameserverAudit

-----------------------------------------------------------------------------------------
-- Choices
-----------------------------------------------------------------------------------------

/-- `Chosen read otherwise given stated x`: a setting is `x` if the command line gives it the
text `given` and the environment states `stated`, one constructor for each source.
-/
inductive Chosen {α : Type} (read : String → Option α) (otherwise : α)
    : Option String → Option String → α → Prop
  | given {text : String} {stated : Option String} {x : α} (reads : read text = some x)
      : Chosen read otherwise (some text) stated x
  | stated {text : String} {x : α} (reads : read text = some x)
      : Chosen read otherwise none (some text) x
  | standard : Chosen read otherwise none none otherwise

namespace Chosen

variable {α : Type} {read : String → Option α} {otherwise : α}
  {given stated : Option String}

theorem unique {x y : α} (h : Chosen read otherwise given stated x)
    (h' : Chosen read otherwise given stated y)
    : x = y := by
  cases h with
  | given reads =>
    cases h' with
    | given reads' => exact Option.some.inj (reads.symm.trans reads')
  | stated reads =>
    cases h' with
    | stated reads' => exact Option.some.inj (reads.symm.trans reads')
  | standard =>
    cases h'
    rfl

/-- What the command line gives replaces what the environment gave. -/
theorem renewed {x : α} {new : Option α} (h : Chosen read otherwise none stated x)
    (h' : Command.Renewed read none given new)
    : Chosen read otherwise given stated (new.getD x) := by
  cases h' with
  | kept => exact h
  | given reads => exact .given reads

end Chosen

-----------------------------------------------------------------------------------------
-- Preferred settings
-----------------------------------------------------------------------------------------

namespace Settings

open Command (Arguments Mark LineSays Renewed lastText? exists_ok_of_bind)

/-- Every text is a path. -/
def readPath (text : String) : Option (Option String) :=
  some (some text)

def isYes (text : String) : Bool :=
  ["1", "true", "yes", "on"].contains (String.ofList (Text.lower (Text.trim text.toList)))

/-- `Preferred env marks s`: every setting comes from the first of its sources that says
anything, the command line with its `marks`, the environment, and the standard.
-/
structure Preferred (env : Environment) (marks : List Mark) (s : Settings) : Prop where
  rootZone : Chosen readPath standard.rootZone (lastText? .rootZone marks)
    (stated? env "DNS_AUDIT_ROOT_ZONE") s.rootZone
  ledgerIn : Chosen readPath standard.ledgerIn (lastText? .ledgerIn marks)
    (stated? env "DNS_AUDIT_CACHE") s.ledgerIn
  ledgerOut : Chosen readPath standard.ledgerOut (lastText? .ledgerOut marks)
    (stated? env "DNS_AUDIT_CACHE") s.ledgerOut
  timeout : Chosen Reading.double? standard.timeout (lastText? .timeout marks)
    (stated? env "DNS_AUDIT_TIMEOUT") s.timeout
  workers : Chosen Reading.int? standard.workers (lastText? .workers marks)
    (stated? env "DNS_AUDIT_THREADS") s.workers
  attempts : Chosen Reading.int? standard.attempts (lastText? .attempts marks)
    (stated? env "DNS_AUDIT_PROBE_ATTEMPTS") s.attempts
  useIpv6 :
    if .on .noIpv6 ∈ marks then s.useIpv6 = false
    else Chosen (fun text => some (isYes text)) standard.useIpv6 none
      (stated? env "DNS_AUDIT_IPV6") s.useIpv6
  /-- No flag gives the age up to which a measurement holds. -/
  maxAge : Chosen Reading.double? standard.maxAge none
    (stated? env "DNS_AUDIT_CACHE_MAX_AGE") s.maxAge
  probeWorkers : s.probeWorkers = standard.probeWorkers
  payload : s.payload = standard.payload

/-- At most one choice of settings is preferred, field by field. -/
theorem Preferred.unique {env : Environment} {marks : List Mark} {s t : Settings}
    (h : Preferred env marks s) (h' : Preferred env marks t)
    : s = t := by
  have sameIpv6 : s.useIpv6 = t.useIpv6 := by
    have left := h.useIpv6
    have right := h'.useIpv6
    split at left
    · next off =>
      rw [if_pos off] at right
      exact left.trans right.symm
    · next on =>
      rw [if_neg on] at right
      exact left.unique right
  cases s
  cases t
  simp only [mk.injEq]
  exact ⟨h.rootZone.unique h'.rootZone, h.ledgerIn.unique h'.ledgerIn,
    h.ledgerOut.unique h'.ledgerOut, h.timeout.unique h'.timeout,
    h.workers.unique h'.workers, h.probeWorkers.trans h'.probeWorkers.symm,
    h.attempts.unique h'.attempts, h.maxAge.unique h'.maxAge, sameIpv6,
    h.payload.trans h'.payload.symm⟩

-----------------------------------------------------------------------------------------
-- The environment
-----------------------------------------------------------------------------------------

theorem chosen_of_number {α : Type} {env : Environment} {key : String}
    {read : String → Option α} {otherwise x : α} (h : number env key read otherwise = .ok x)
    : Chosen read otherwise none (stated? env key) x := by
  unfold number at h
  cases heard : stated? env key with
  | none =>
    rw [heard] at h
    cases h
    exact .standard
  | some text =>
    rw [heard] at h
    dsimp only at h
    split at h <;> cases h
    next reads => exact .stated reads

theorem chosen_switch (env : Environment) (key : String) (otherwise : Bool)
    : Chosen (fun text => some (isYes text)) otherwise none (stated? env key)
        (switch env key otherwise) := by
  unfold switch
  cases stated? env key with
  | none => exact .standard
  | some text => exact .stated rfl

theorem chosen_path (stated : Option String) : Chosen readPath none none stated stated := by
  cases stated with
  | none => exact .standard
  | some text => exact .stated rfl

/-- Settings with the paths that an environment states. -/
def withStatedPaths (env : Environment) (s : Settings) : Settings :=
  { s with
    rootZone := stated? env "DNS_AUDIT_ROOT_ZONE"
    ledgerIn := stated? env "DNS_AUDIT_CACHE"
    ledgerOut := stated? env "DNS_AUDIT_CACHE" }

/-- If the command line is silent, the preferred settings are those of the environment, by its
variables in turn.
-/
theorem preferred_withStatedPaths {env : Environment} {s : Settings}
    (h : stated env = .ok s)
    : Preferred env [] (s.withStatedPaths env) := by
  unfold stated at h
  obtain ⟨timeout, timed, h⟩ := exists_ok_of_bind h
  obtain ⟨workers, manned, h⟩ := exists_ok_of_bind h
  obtain ⟨attempts, tried, h⟩ := exists_ok_of_bind h
  obtain ⟨maxAge, aged, h⟩ := exists_ok_of_bind h
  cases h
  exact {
    rootZone := chosen_path _
    ledgerIn := chosen_path _
    ledgerOut := chosen_path _
    timeout := chosen_of_number timed
    workers := chosen_of_number manned
    attempts := chosen_of_number tried
    useIpv6 := chosen_switch _ _ _
    maxAge := chosen_of_number aged
    probeWorkers := rfl
    payload := rfl }

-----------------------------------------------------------------------------------------
-- The command line
-----------------------------------------------------------------------------------------

/-- Settings changed by what a command line asks for, and only by that. -/
def preferring (s : Settings) (a : Arguments) : Settings :=
  { s.override a with
    rootZone := a.rootZone.or s.rootZone
    ledgerIn := a.ledgerIn.or s.ledgerIn
    ledgerOut := a.ledgerOut.or s.ledgerOut }

theorem chosen_path_or {otherwise x : Option String} {given stated new : Option String}
    (h : Chosen readPath otherwise none stated x) (h' : Renewed some none given new)
    : Chosen readPath otherwise given stated (new.or x) := by
  cases h' with
  | kept => exact h
  | given reads => exact .given (congrArg some reads)

/-- What a command line asks for is preferred to what holds without it, field by field. -/
theorem Preferred.preferring {env : Environment} {marks : List Mark} {s : Settings}
    {a : Arguments} (h : Preferred env [] s) (h' : Arguments.Reflects marks .none a)
    : Preferred env marks (s.preferring a) where
  rootZone := chosen_path_or h.rootZone h'.rootZone
  ledgerIn := chosen_path_or h.ledgerIn h'.ledgerIn
  ledgerOut := chosen_path_or h.ledgerOut h'.ledgerOut
  timeout := h.timeout.renewed h'.timeout
  workers := h.workers.renewed h'.workers
  attempts := h.attempts.renewed h'.attempts
  useIpv6 := by
    have asked : a.noIpv6 = decide (.on .noIpv6 ∈ marks) := h'.noIpv6
    have before := h.useIpv6
    rw [if_neg List.not_mem_nil] at before
    split
    · next off => simp [Settings.preferring, override, asked, off]
    · next on => simpa [Settings.preferring, override, asked, on] using before
  maxAge := h.maxAge
  probeWorkers := h.probeWorkers
  payload := h.payload

/-- The check looks at no path. -/
theorem check_error_iff_of_paths {s t : Settings} {fault : SettingsFault}
    (same : t = { s with
      rootZone := t.rootZone, ledgerIn := t.ledgerIn, ledgerOut := t.ledgerOut })
    : t.check = .error fault ↔ s.check = .error fault := by
  rw [same]
  unfold check
  repeat' split
  all_goals simp

/-- A path of the command line stands against the environment if it is given, or if the
environment states none.
-/
theorem path_stands_iff {given new : Option String} (h : Renewed some none given new)
    (stated : Option String)
    : new = new.or stated ↔ given ≠ none ∨ stated = none := by
  cases h with
  | kept => simp [eq_comm]
  | given reads => simp

theorem stated_of_ofEnvironment {env : Environment} {s : Settings}
    (h : ofEnvironment env = .ok s)
    : stated env = .ok s := by
  obtain ⟨t, read, checked⟩ := exists_ok_of_bind h
  rw [read, (limits_of_check checked).1]

theorem ofArguments_eq {env : Environment} {base : Settings} (a : Arguments)
    (accepted : ofEnvironment env = .ok base)
    : ofArguments env a = (base.override a).check := by
  rw [ofArguments, accepted]
  rfl

/-- The settings of a command line that is accepted, in an environment that is accepted: they
are refused for a fault exactly if the preferred ones are, and otherwise are those up to the
ledger files. A ledger file is the preferred one exactly if its flag is given or the environment
states none. Witness: what the command line says, and what the environment gives changed by it.
-/
theorem ofArguments_preferred {env : Environment} {base : Settings} {arguments : List String}
    {a : Arguments} (accepted : ofEnvironment env = .ok base)
    (parsed : Arguments.ofList arguments = .ok a)
    : ∃ marks wanted,
        (∀ said, LineSays arguments said ↔ said = marks)
        ∧ (∀ s, Preferred env marks s ↔ s = wanted)
        ∧ (∀ fault, ofArguments env a = .error fault ↔ wanted.check = .error fault)
        ∧ ∀ s, ofArguments env a = .ok s →
            s = { wanted with ledgerIn := s.ledgerIn, ledgerOut := s.ledgerOut }
            ∧ (s.ledgerIn = wanted.ledgerIn
                ↔ lastText? .ledgerIn marks ≠ none ∨ stated? env "DNS_AUDIT_CACHE" = none)
            ∧ (s.ledgerOut = wanted.ledgerOut
                ↔ lastText? .ledgerOut marks ≠ none
                  ∨ stated? env "DNS_AUDIT_CACHE" = none) := by
  obtain ⟨marks, line, reflected⟩ := Arguments.exists_lineSays parsed
  obtain ⟨path, zone⟩ := Option.ne_none_iff_exists'.mp (Arguments.rootZone_ne_none parsed)
  have preferred := (preferred_withStatedPaths (stated_of_ofEnvironment accepted)).preferring
    reflected
  have changed : base.override a = { (base.withStatedPaths env).preferring a with
      ledgerIn := a.ledgerIn, ledgerOut := a.ledgerOut } := by
    simp [preferring, override, withStatedPaths, zone]
  refine ⟨marks, _, fun said => ⟨fun h => h.unique line, fun h => h ▸ line⟩,
    fun s => ⟨fun h => h.unique preferred, fun h => h ▸ preferred⟩, fun fault => ?_, ?_⟩
  · rw [ofArguments_eq a accepted]
    exact check_error_iff_of_paths (by rw [changed])
  · intro s h
    rw [ofArguments_eq a accepted] at h
    obtain ⟨rfl, -⟩ := limits_of_check h
    exact ⟨changed, path_stands_iff reflected.ledgerIn _,
      path_stands_iff reflected.ledgerOut _⟩

/-- An environment that states a ledger file, and two settings that the command line changes. -/
def ledgerEnvironment : Environment :=
  [("DNS_AUDIT_CACHE", "c"), ("DNS_AUDIT_THREADS", "4"), ("DNS_AUDIT_IPV6", "yes")]

def shortLine : List String :=
  ["--root-zone", "z", "--threads=2", "--threads", "8", "--no-ipv6"]

theorem ledgerEnvironment_accepted
    : ofEnvironment ledgerEnvironment
      = .ok { standard with ledgerIn := some "c", ledgerOut := some "c", workers := 4 } := by
  decide +kernel

theorem shortLine_accepted
    : Arguments.ofList shortLine
      = .ok { Arguments.none with rootZone := some "z", workers := some 8, noIpv6 := true } := by
  decide +kernel

theorem shortLine_preferred
    : ∃ base a marks wanted,
        ofEnvironment ledgerEnvironment = .ok base ∧ Arguments.ofList shortLine = .ok a
        ∧ (∀ said, LineSays shortLine said ↔ said = marks)
        ∧ (∀ s, Preferred ledgerEnvironment marks s ↔ s = wanted)
        ∧ ∀ s, ofArguments ledgerEnvironment a = .ok s →
            s = { wanted with ledgerIn := s.ledgerIn, ledgerOut := s.ledgerOut } := by
  obtain ⟨marks, wanted, line, preferred, -, differ⟩ :=
    ofArguments_preferred ledgerEnvironment_accepted shortLine_accepted
  exact ⟨_, _, marks, wanted, ledgerEnvironment_accepted, shortLine_accepted, line, preferred,
    fun s h => (differ s h).1⟩

/-- A ledger file that only the environment states is preferred to none, and is not used. -/
theorem shortLine_drops_ledger
    : ∃ base a s,
        ofEnvironment ledgerEnvironment = .ok base ∧ Arguments.ofList shortLine = .ok a
        ∧ ofArguments ledgerEnvironment a = .ok s ∧ s.ledgerIn = none
        ∧ ∀ marks, ¬ Preferred ledgerEnvironment marks s := by
  have settled : ofArguments ledgerEnvironment
      { Arguments.none with rootZone := some "z", workers := some 8, noIpv6 := true }
      = .ok { standard with rootZone := some "z", workers := 8, useIpv6 := false } := by
    decide +kernel
  refine ⟨_, _, _, ledgerEnvironment_accepted, shortLine_accepted, settled, rfl,
    fun marks preferred => ?_⟩
  have chosen := preferred.ledgerIn
  have states : stated? ledgerEnvironment "DNS_AUDIT_CACHE" = some "c" := by decide +kernel
  rw [states] at chosen
  generalize lastText? .ledgerIn marks = given at chosen
  -- Whatever source counts gives a path, since the environment is not silent.
  cases chosen with
  | given reads | stated reads => cases reads

end Settings

end NameserverAudit
