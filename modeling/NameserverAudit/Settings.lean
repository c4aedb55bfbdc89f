import NameserverAudit.Command.Arguments
import NameserverAudit.Json.Value
import NameserverAudit.Text.Case
import NameserverAudit.Zone.Directory

/-!
The settings of an audit: what they are if nobody says anything, what the environment says
about them, and what the command line says. Main statement: settings that were checked have a
timeout, workers, attempts and an age within their limits.
-/

namespace NameserverAudit

/-- The variables of the environment with their values. -/
abbrev Environment := List (String × String)

def Environment.value? (env : Environment) (key : String) : Option String :=
  (env.find? fun entry => entry.1 = key).map (·.2)

structure Settings where
  rootZone : Option String
  ledgerIn : Option String
  ledgerOut : Option String
  timeout : Double
  workers : Int
  /-- How many root servers are probed at a time. -/
  probeWorkers : Int
  /-- How often a root server is asked in a probe. -/
  attempts : Int
  maxAge : Double
  useIpv6 : Bool
  payload : Int
deriving DecidableEq, Repr

inductive SettingsFault where
  | notANumber (key raw : String)
  | timeoutNotPositive
  | tooFewWorkers
  | tooFewAttempts
  | negativeAge
deriving DecidableEq, Repr

def SettingsFault.message : SettingsFault → String
  | .notANumber key raw => s!"{key}={Text.quoted raw} is not a valid number"
  | .timeoutNotPositive => "timeout must be positive"
  | .tooFewWorkers => "threads must be at least 1"
  | .tooFewAttempts => "probe attempts must be at least 1"
  | .negativeAge => "cache max age cannot be negative"

namespace Settings

/-- The settings that hold if nobody says anything. -/
def standard : Settings where
  rootZone := none
  ledgerIn := none
  ledgerOut := none
  timeout := .ofInt 5
  workers := 1
  probeWorkers := 20
  attempts := 3
  maxAge := .ofInt 86400
  useIpv6 := true
  payload := 1232

instance : Inhabited Settings := ⟨standard⟩

/-- The families of the servers that may be asked. -/
def families (s : Settings) : List FamilyName :=
  if s.useIpv6 then [.known .ipv4, .known .ipv6] else [.known .ipv4]

def toJson (s : Settings) : Json :=
  .object [
    ("root_zone", Json.ofString? s.rootZone),
    ("cache_in", Json.ofString? s.ledgerIn),
    ("cache_out", Json.ofString? s.ledgerOut),
    ("timeout", .float s.timeout),
    ("threads", .int s.workers),
    ("probe_workers", .int s.probeWorkers),
    ("probe_attempts", .int s.attempts),
    ("cache_max_age", .float s.maxAge),
    ("use_ipv6", .bool s.useIpv6),
    ("edns_payload", .int s.payload),
    ("families", Json.ofStrings (s.families.map FamilyName.text))]

/-- Settings within their limits; what is no number is within every limit. -/
def check (s : Settings) : Except SettingsFault Settings :=
  if s.timeout.le .zero then .error .timeoutNotPositive
  else if s.workers < 1 then .error .tooFewWorkers
  else if s.attempts < 1 then .error .tooFewAttempts
  else if s.maxAge.lt .zero then .error .negativeAge
  else .ok s

/-! ### The environment -/

/-- A variable that is set to more than blanks. -/
def stated? (env : Environment) (key : String) : Option String :=
  (env.value? key).filter fun raw => !(Text.trim raw.toList).isEmpty

def path? (env : Environment) (key : String) : Option String :=
  (env.value? key).filter fun raw => !raw.isEmpty

/-- The number that a variable states, or the one that holds if it states nothing. -/
def number {α : Type} (env : Environment) (key : String) (read : String → Option α)
    (otherwise : α) : Except SettingsFault α :=
  match stated? env key with
  | none => .ok otherwise
  | some raw =>
      match read raw with
      | some x => .ok x
      | none => .error (.notANumber key raw)

/-- A variable that says yes, or what holds if it states nothing. -/
def switch (env : Environment) (key : String) (otherwise : Bool) : Bool :=
  match stated? env key with
  | none => otherwise
  | some raw =>
      ["1", "true", "yes", "on"].contains (String.ofList (Text.lower (Text.trim raw.toList)))

/-- The settings that the environment gives, before they are checked. -/
def stated (env : Environment) : Except SettingsFault Settings := do
  let timeout ← number env "DNS_AUDIT_TIMEOUT" Reading.double? standard.timeout
  let workers ← number env "DNS_AUDIT_THREADS" Reading.int? standard.workers
  let attempts ← number env "DNS_AUDIT_PROBE_ATTEMPTS" Reading.int? standard.attempts
  let maxAge ← number env "DNS_AUDIT_CACHE_MAX_AGE" Reading.double? standard.maxAge
  return {
    standard with
    rootZone := path? env "DNS_AUDIT_ROOT_ZONE"
    ledgerIn := path? env "DNS_AUDIT_CACHE"
    ledgerOut := path? env "DNS_AUDIT_CACHE"
    timeout, workers, attempts, maxAge
    useIpv6 := switch env "DNS_AUDIT_IPV6" standard.useIpv6 }

def ofEnvironment (env : Environment) : Except SettingsFault Settings := do
  check (← stated env)

/-! ### The command line -/

/-- The settings changed by what a command line asks for. Its paths count even if it leaves
them out; of the numbers only those that it gives. -/
def override (s : Settings) (a : Command.Arguments) : Settings :=
  { s with
    rootZone := a.rootZone
    ledgerIn := a.ledgerIn
    ledgerOut := a.ledgerOut
    workers := a.workers.getD s.workers
    timeout := a.timeout.getD s.timeout
    attempts := a.attempts.getD s.attempts
    useIpv6 := s.useIpv6 && !a.noIpv6 }

/-- The settings of a command line in an environment. -/
def ofArguments (env : Environment) (a : Command.Arguments) : Except SettingsFault Settings := do
  check ((← ofEnvironment env).override a)

/-- Checking changes nothing, and what passed is within the limits, by the tests in turn. -/
theorem limits_of_check {s t : Settings} (h : s.check = .ok t)
    : t = s ∧ s.timeout.le .zero = false ∧ 1 ≤ s.workers ∧ 1 ≤ s.attempts
      ∧ s.maxAge.lt .zero = false := by
  unfold check at h
  split at h
  · simp at h
  · split at h
    · simp at h
    · split at h
      · simp at h
      · split at h
        · simp at h
        · simp only [Except.ok.injEq] at h
          exact ⟨h.symm, by simp_all, by omega, by omega, by simp_all⟩

end Settings

end NameserverAudit
