import NameserverAudit.Command.Run
import Std.Time.DateTime.Timestamp

/-!
The command as a program. It finds out what the paths of the command line lead to, runs the
command, and writes what the run left behind. No network is attached, so every message times
out.
-/

namespace NameserverAudit.Command

def variableNames : List String := [
  "DNS_AUDIT_ROOT_ZONE", "DNS_AUDIT_CACHE", "DNS_AUDIT_TIMEOUT", "DNS_AUDIT_THREADS",
  "DNS_AUDIT_PROBE_ATTEMPTS", "DNS_AUDIT_CACHE_MAX_AGE", "DNS_AUDIT_IPV6"]

def readEnvironment : IO Environment :=
  variableNames.filterMapM fun key => return (← IO.getEnv key).map (key, ·)

/-- Adds what a path leads to: a file, a directory, or nothing. -/
def look (disk : Disk) (path : String) : IO Disk := do
  try
    let bytes ← IO.FS.readBinFile path
    return disk.store path bytes.toList
  catch
    | .inappropriateType .. =>
        return { disk with directories := Disk.parts path :: disk.directories }
    | .noFileOrDirectory .. => return disk
    | e => throw e

def parent (path : String) : String :=
  String.ofList (path.toList.reverse.dropWhile (· ≠ '/')).reverse

def readDisk (a : Arguments) : IO Disk := do
  let writes := a.output :: a.ledgerOut.toList
  let reads := a.rootZone.toList ++ a.list.toList ++ a.ledgerIn.toList
  (reads ++ writes ++ writes.map parent).foldlM look ⟨[], []⟩

partial def readAll (stream : IO.FS.Stream) : IO (List UInt8) := do
  let bytes ← stream.read 65536
  if bytes.isEmpty then return []
  return bytes.toList ++ (← readAll stream)

/-- Writes the files that a run left behind and that were not there before. -/
def writeDisk (a : Arguments) (before after : Disk) : IO Unit := do
  for path in a.output :: a.ledgerOut.toList do
    if after.bytes? path ≠ before.bytes? path then
      if let some bytes := after.bytes? path then
        IO.FS.writeBinFile path ⟨bytes.toArray⟩

def maxPasses : Nat := 1000

/-- Tells the end of a run, and gives its exit code. -/
def tell (ending : Ending) : IO UInt32 := do
  match ending with
  | .help => IO.println ("usage: dns-audit " ++ " ".intercalate (Flag.every.map Flag.label))
  | .misused fault => IO.eprintln (usageLine fault)
  | .broken fault => IO.eprintln fault.message
  | .done _ | .stopped _ | .unfinished => pure ()
  return match ending with
    | .help | .unfinished => 0
    | .misused _ => 2
    | .broken _ => 1
    | .done code => code.number.toUInt32
    | .stopped _ => ExitCode.stopped.number.toUInt32

def runOnce (arguments : List String) (a : Arguments) : IO UInt32 := do
  let before ← readDisk a
  let input ← if a.list = some "-" then readAll (← IO.getStdin) else pure []
  let sinceEpoch := (← Std.Time.Timestamp.now).toNanosecondsSinceUnixEpoch.val / 1000
  let now := (Instant.ofMicroseconds? (Instant.epoch + sinceEpoch)).getD default
  let s : Surroundings := ⟨← readEnvironment, .silent, now⟩
  let (ending, c) := run s input arguments maxPasses before
  for n in c.journal.notices do
    IO.eprintln s!"{n.gravity.name} {n.message}"
  IO.print c.output
  IO.eprint c.errors
  writeDisk a before c.disk
  tell ending

end NameserverAudit.Command

def main (arguments : List String) : IO UInt32 :=
  match NameserverAudit.Command.Arguments.ofList arguments with
  | .ok a => NameserverAudit.Command.runOnce arguments a
  | .error .help => NameserverAudit.Command.tell .help
  | .error (.fault fault) => NameserverAudit.Command.tell (.misused fault)
