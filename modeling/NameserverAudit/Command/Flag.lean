/-!
The flags of the command line and how they are spelled. Main statement: a spelling stands for
one flag only.
-/

namespace NameserverAudit.Command

inductive Flag where
  | help
  | rootZone
  | list
  | output
  | ledgerIn
  | ledgerOut
  | all
  | watch
  | workers
  | timeout
  | attempts
  | noProbe
  | noIpv6
  | summary
  | verbose
deriving DecidableEq, Repr

namespace Flag

/-- All flags, in the order in which messages list them. -/
def every : List Flag := [
  .help, .rootZone, .list, .output, .ledgerIn, .ledgerOut, .all, .watch, .workers, .timeout,
  .attempts, .noProbe, .noIpv6, .summary, .verbose]

/-- The spellings of a flag, the short one first. -/
def spellings : Flag → List String
  | .help => ["-h", "--help"]
  | .rootZone => ["--root-zone"]
  | .list => ["-c"]
  | .output => ["-o"]
  | .ledgerIn => ["--cache-in"]
  | .ledgerOut => ["--cache-out"]
  | .all => ["--all"]
  | .watch => ["-w", "--watch"]
  | .workers => ["--threads"]
  | .timeout => ["--timeout"]
  | .attempts => ["--probe-attempts"]
  | .noProbe => ["--no-probe"]
  | .noIpv6 => ["--no-ipv6"]
  | .summary => ["--summary"]
  | .verbose => ["-v", "--verbose"]

/-- The name of a flag in messages: all its spellings. -/
def label (f : Flag) : String :=
  "/".intercalate f.spellings

/-- The flag is followed by a value; the others are switches. -/
def takesValue : Flag → Bool
  | .rootZone | .list | .output | .ledgerIn | .ledgerOut => true
  | .watch | .workers | .timeout | .attempts => true
  | .help | .all | .noProbe | .noIpv6 | .summary | .verbose => false

def table : List (String × Flag) :=
  every.flatMap fun f => f.spellings.map (·, f)

def ofSpelling? (s : String) : Option Flag :=
  (table.find? fun entry => entry.1 = s).map (·.2)

end Flag

end NameserverAudit.Command
