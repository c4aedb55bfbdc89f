import NameserverAudit.Command.Run
import NameserverAudit.Exchange.Script
import NameserverAudit.Proofs.Name.Reading
import NameserverAudit.Proofs.Pass.Watch
import NameserverAudit.Proofs.Report.Results
import NameserverAudit.Proofs.Walk.Responses

/-! What a run reports. Main statement: a run that audits a list and comes to its end has written
one array of results for each of its passes, and the exit code tells of the last pass, so of the
last array; a watch has failures in its last pass and in no other.
-/

namespace NameserverAudit.Command

-----------------------------------------------------------------------------------------
-- What is written
-----------------------------------------------------------------------------------------

/-- The array of a pass: the objects of its verdicts, or those that tell of a failure. -/
def arrayOf (includeAll : Bool) (verdicts : List Verdict) : Json :=
  .array (Results.chosen includeAll (verdicts.map Verdict.toJson))

/-- The text of passes: for each one its array and a line end. -/
def textOf (includeAll : Bool) (passes : List (List Verdict)) : String :=
  String.join (passes.map fun verdicts => (arrayOf includeAll verdicts).render ++ "\n")

/-- The text stands where results are written: a hyphen means the standard output. -/
def Console.Holds (c : Console) (place text : String) : Prop :=
  if place = "-" then c.output = text
  else c.output = "" ∧ c.disk.bytes? place = some (Text.Utf8.encode text.toList)

/-- Reporting passes writes their text. -/
theorem report_holds (a : Arguments) (passes : List (List Verdict)) {c : Console}
    (unwritten : c.output = "")
    : (report a passes c).Holds a.output (textOf a.all passes) := by
  have text : String.join (passes.map (Results.text a.all)) = textOf a.all passes := by
    simp only [textOf, arrayOf, ← Results.toJson_eq]
    rfl
  unfold report Console.Holds
  rw [text]
  dsimp only
  split
  · rw [unwritten, String.empty_append]
  · exact ⟨unwritten, Disk.lookup_put _ _ _⟩

-----------------------------------------------------------------------------------------
-- Audits that come to their end
-----------------------------------------------------------------------------------------

/-- How an audit in passes is reported. The last pass stands apart. -/
structure Reported (a : Arguments) (list : List Expected) (auditor : Auditor) (begun : Journal)
    (earlier : List (List Verdict)) (last : List Verdict) (code : ExitCode) (c : Console)
    : Prop where
  /-- The passes were made one after the other, as the auditor makes them. -/
  series : ∃ k, Pass.Series auditor.walker.lookup auditor.workers list
    (.real (a.watch.getD .zero)) begun (earlier ++ [last]) k
  /-- Every pass has one verdict on each entry of the list, in its order. -/
  judged : ∀ verdicts ∈ earlier ++ [last], Pass.Judges list verdicts
  /-- For every pass one array and a line end is written, and nothing else. -/
  written : c.Holds a.output (textOf a.all (earlier ++ [last]))
  /-- Every array can be read back. -/
  readable : ∀ verdicts ∈ earlier ++ [last],
    Json.parse (arrayOf a.all verdicts).render = .ok (arrayOf a.all verdicts)
  /-- The exit code is 2 if the last pass has a failure, and 0 otherwise. -/
  exitCode : code.number = if ∃ v ∈ last, v.success = false then 2 else 0
  /-- If only failures are written, it is 2 just if the last array is not empty. -/
  lastArray : a.all = false → (code.number = 2 ↔ arrayOf a.all last ≠ .array [])
  /-- Without a watch there is one pass. -/
  single : a.watch = none → earlier = []
  /-- A watch ends with a failure, and there is none before the last pass. -/
  watched : a.watch ≠ none →
    code.number = 2 ∧ ∀ verdicts ∈ earlier, ∀ v ∈ verdicts, v.success = true

/-- A pass has failed just if one of its verdicts is no success. -/
theorem failed_iff (verdicts : List Verdict)
    : Pass.failed verdicts = true ↔ ∃ v ∈ verdicts, v.success = false := by
  simp [Pass.failed]

theorem codeOf_number (last : List Verdict)
    : (codeOf last).number = if ∃ v ∈ last, v.success = false then 2 else 0 := by
  simp only [codeOf, failed_iff]
  split <;> rfl

/-- The passes of an audit that came to its end, and what was reported of them. -/
theorem audit_done {a : Arguments} {auditor : Auditor} {list : List Expected} {fuel : Nat}
    {c c' : Console} {code : ExitCode} (h : audit a auditor list fuel c = (.done code, c'))
    : ∃ earlier last k k',
        Pass.Series auditor.walker.lookup auditor.workers list (.real (a.watch.getD .zero))
          c.journal (earlier ++ [last]) k
        ∧ code = codeOf last
        ∧ c' = report a (earlier ++ [last]) { c with journal := k' }
        ∧ (a.watch = none → earlier = [])
        ∧ (a.watch ≠ none →
            Pass.failed last = true ∧ ∀ verdicts ∈ earlier, Pass.failed verdicts = false) := by
  unfold audit at h
  split at h
  · next unwatched =>
    unfold Auditor.pass at h
    rcases pass : Pass.run auditor.walker.lookup auditor.workers list c.journal
      with ⟨fault | verdicts, k⟩
    all_goals
      rw [pass] at h
      cases h
    exact ⟨[], verdicts, k, k, .single pass, rfl, rfl, fun _ => rfl, fun h => absurd unwatched h⟩
  · next interval watched =>
    rcases hwatch : auditor.watch list (.real interval) fuel c.journal
      with ⟨passes, (- | fault | -), k⟩
    all_goals
      rw [hwatch] at h
      cases h
    obtain ⟨earlier, last, k', rfl, series, clean, ended⟩ := Pass.watchFrom_ended hwatch
    refine ⟨earlier, last, k', k, ?_, by simp, rfl, fun h => ?_, fun _ => ⟨?_, clean⟩⟩
    · rw [watched]
      exact series
    · rw [watched] at h
      cases h
    · rcases ended with ⟨failure, -⟩ | ⟨-, -, n, hn, -⟩
      · exact failure
      · cases hn

/-- An audit that came to its end is reported. -/
theorem audit_reported {a : Arguments} {auditor : Auditor} {list : List Expected} {fuel : Nat}
    {c c' : Console} {code : ExitCode} (unwritten : c.output = "")
    (h : audit a auditor list fuel c = (.done code, c'))
    : ∃ earlier last, Reported a list auditor c.journal earlier last code c' := by
  obtain ⟨earlier, last, k, k', series, rfl, rfl, single, watched⟩ := audit_done h
  refine ⟨earlier, last, ?_⟩
  constructor
  case series => exact ⟨k, series⟩
  case judged => exact series.judges
  case written => exact report_holds a _ unwritten
  case readable =>
    intro verdicts _
    simp only [arrayOf, ← Results.toJson_eq]
    exact Results.parse_toJson a.all verdicts
  case exitCode => exact codeOf_number last
  case lastArray =>
    intro failures
    rw [codeOf_number, arrayOf, failures, ne_eq, Json.array.injEq, Results.chosen_eq_nil_iff]
    split <;> simp_all
  case single => exact single
  case watched =>
    intro hwatch
    obtain ⟨failure, clean⟩ := watched hwatch
    refine ⟨by simp [codeOf, failure, ExitCode.number], fun verdicts hv v hmem => ?_⟩
    have successes := clean verdicts hv
    rw [Pass.failed, List.any_eq_false] at successes
    simpa using successes v hmem

-----------------------------------------------------------------------------------------
-- Whole runs
-----------------------------------------------------------------------------------------

/-- The audit of a task begins with this auditor and at this point, after the root servers were
probed and the ledger was written as the command line says.
-/
def Begins (s : Surroundings) (a : Arguments) (task : Task) (c : Console) (auditor : Auditor)
    (begun : Console) : Prop :=
  ∃ probed,
    probe s a task.auditor c = (.ok auditor, probed)
    ∧ saveLedger a auditor probed = (.ok (), begun)

theorem Begins.output {s : Surroundings} {a : Arguments} {task : Task} {c begun : Console}
    {auditor : Auditor} (h : Begins s a task c auditor begun)
    : begun.output = c.output := by
  obtain ⟨probed, hprobe, hsave⟩ := h
  have first : probed.output = c.output := by
    unfold probe at hprobe
    split at hprobe
    · cases hprobe
      rfl
    · dsimp only at hprobe
      split at hprobe <;> cases hprobe
      rfl
  have second : begun.output = probed.output := by
    unfold saveLedger at hsave
    split at hsave
    · cases hsave
      rfl
    · split at hsave <;> cases hsave
      rfl
  exact second.trans first

/-- A run with a list that is done has begun the audit and come to its end. -/
theorem perform_done {s : Surroundings} {a : Arguments} {task : Task} {fuel : Nat}
    {c c' : Console} {code : ExitCode} (some : task.list ≠ [])
    (h : perform s a task fuel c = (.done code, c'))
    : ∃ auditor begun,
        Begins s a task c auditor begun
        ∧ audit a auditor task.list fuel begun = (.done code, c') := by
  have not_stopped {fault : RunFault} {c : Console} : endWith fault c ≠ (.done code, c') := by
    unfold endWith stop
    split <;> simp
  unfold perform at h
  split at h
  · exact absurd h not_stopped
  · next auditor probed hprobe =>
    split at h
    · exact absurd h not_stopped
    · next begun hsave =>
      refine ⟨auditor, begun, ⟨probed, hprobe, hsave⟩, ?_⟩
      rw [if_neg (by simpa using some)] at h
      split at h
      · exact h
      · split at h
        · exact absurd h not_stopped
        · exact h

/-- A run that was given a list and is done has audited the list in passes and reported them: one
array for each pass, and the exit code for the last one.
-/
theorem run_done_reported {s : Surroundings} {input : List UInt8} {arguments : List String}
    {a : Arguments} {fuel : Nat} {disk : Disk} {task : Task} {code : ExitCode} {c : Console}
    (accepted : Arguments.ofList arguments = .ok a)
    (prepared : (prepare s input a disk .start).1 = .ok task) (some : task.list ≠ [])
    (done : run s input arguments fuel disk = (.done code, c))
    : ∃ auditor begun earlier last,
        Begins s a task { Console.start disk with journal := (prepare s input a disk .start).2 }
          auditor begun
        ∧ Reported a task.list auditor begun.journal earlier last code c := by
  have ready : prepare s input a disk .start
      = (.ok task, (prepare s input a disk .start).2) := by
    rw [← prepared]
  have performed
      : perform s a task fuel
          { Console.start disk with journal := (prepare s input a disk .start).2 }
        = (.done code, c) := by
    simp only [run, accepted, runArguments] at done
    rw [show (Console.start disk).journal = .start from rfl, ready] at done
    simpa [some] using done
  obtain ⟨auditor, begun, begins, audited⟩ := perform_done some performed
  obtain ⟨earlier, last, reported⟩ := audit_reported begins.output audited
  exact ⟨auditor, begun, earlier, last, begins, reported⟩

/-- A zone with one root server, and a list with one domain. -/
def watchedDisk : Disk :=
  ⟨[(["root.zone"], Text.Utf8.encode ". NS a.root.\na.root. A 192.0.2.1\n".toList),
    (["list.json"], Text.Utf8.encode
      "[\x7b\"domain_name\": \"example\", \"ns\": [\"ns.example.\"]\x7d]".toList)], []⟩

/-- The root server publishes the expected nameserver of the domain twice, which is enough for
one pass, and then says that there is no such name.
-/
def watchedNetwork : Network :=
  let published : Response :=
    { Response.blank with
      authoritative := true
      answer := [⟨.written "example.", .nameservers [.written "ns.example."]⟩] }
  let gone : Response := { Response.blank with authoritative := true, rcode := .nxDomain }
  Network.ofRoutes [
    ⟨.udp, "192.0.2.1", "example.", "NS",
      [⟨.zero, .response published⟩, ⟨.zero, .response published⟩, ⟨.zero, .response gone⟩]⟩]

/-- The command line of a watch that starts a pass every minute. -/
def watchArguments : List String :=
  ["--root-zone", "root.zone", "-c", "list.json", "--no-probe", "-w", "60"]

/-- Witness: a watch of two passes, a clean one and one with a failure. -/
theorem watchedDisk_reported
    : let s : Surroundings := ⟨[], watchedNetwork, .atEpoch⟩
      let after := run s [] watchArguments 3 watchedDisk
      ∃ a task,
        Arguments.ofList watchArguments = .ok a
        ∧ (prepare s [] a watchedDisk .start).1 = .ok task
        ∧ task.list ≠ []
        ∧ after.1 = .done .failed
        ∧ ∃ auditor begun earlier last,
            Begins s a task
              { Console.start watchedDisk with
                journal := (prepare s [] a watchedDisk .start).2 }
              auditor begun
            ∧ Reported a task.list auditor begun.journal earlier last .failed after.2 := by
  intro s after
  let a : Arguments :=
    { Arguments.none with
      rootZone := some "root.zone"
      list := some "list.json"
      noProbe := true
      watch := some (.ofInt 60) }
  have accepted : Arguments.ofList watchArguments = .ok a := by decide +kernel
  have list : ((prepare s [] a watchedDisk .start).1.toOption.map (·.list))
      = some [⟨"example", some (.ofList ["ns.example."]), none⟩] := by
    decide +kernel
  obtain ⟨task, hread, hlist⟩ := Option.map_eq_some_iff.1 list
  have prepared : (prepare s [] a watchedDisk .start).1 = .ok task := by
    cases hprepare : (prepare s [] a watchedDisk .start).1 with
    | error fault => rw [hprepare] at hread; cases hread
    | ok t => rw [hprepare] at hread; exact congrArg _ (Option.some.inj hread)
  have some : task.list ≠ [] := by simp [hlist]
  have done : after.1 = .done .failed := by decide +kernel
  have ended : after = (.done .failed, after.2) := by rw [← done]
  exact ⟨a, task, accepted, prepared, some, done,
    run_done_reported accepted prepared some ended⟩

end NameserverAudit.Command
