import NameserverAudit.Command.Run

/-! Runs that stop because of what they were given. All files are read before anything is sent
or written. Main statement: a run that stops because of its settings, of a file that it reads,
or because there is nothing to do, has sent no message and changed no file.
-/

namespace NameserverAudit

-----------------------------------------------------------------------------------------
-- Preparing
-----------------------------------------------------------------------------------------

namespace Journal

/-- Notices are no messages, by induction on what is noticed. -/
theorem sends_foldl_notice {α : Type} (f : α → Notice) (items : List α) (j : Journal)
    : (items.foldl (fun j item => j.notice (f item)) j).sends = j.sends := by
  induction items generalizing j with
  | nil => rfl
  | cons item rest ih => exact (ih (j.notice (f item))).trans (j.sends_notice (f item))

end Journal

namespace Auditor

theorem readDirectory_sends (disk : Disk) (path : String) (j : Journal)
    : (readDirectory disk path j).2.sends = j.sends := by
  have noticed := Journal.sends_foldl_notice (Notice.rootLeftOut path)
    (Zone.Directory.load disk path).leftOut j
  unfold readDirectory
  dsimp only
  split <;> exact noticed

/-- Setting up an auditor reads files and sends nothing. -/
theorem setUp_sends (settings : Settings) (network : Network) (disk : Disk) (j : Journal)
    : (setUp settings network disk j).2.sends = j.sends := by
  unfold setUp
  split
  · rfl
  · next path _ =>
    have read := readDirectory_sends disk path j
    split
    · next k hread => exact (congrArg (·.2.sends) hread).symm.trans read
    · next k hread =>
      have kept : k.sends = j.sends := (congrArg (·.2.sends) hread).symm.trans read
      split <;> exact kept

/-- Only writing a file can make saving fail. -/
theorem save_error {auditor : Auditor} {path : Option String} {disk : Disk} {fault : RunFault}
    (h : auditor.save path disk = .error fault)
    : ∃ f, fault = .file f := by
  unfold save at h
  split at h
  · cases h
  · split at h
    · next f _ => exact ⟨f, (Except.error.inj h).symm⟩
    · cases h

/-- A fault of a probe is never foreseen. -/
theorem probe_unforeseen {auditor auditor' : Auditor} {now : Instant} {force : Bool}
    {j k : Journal} {fault : RunFault}
    (h : auditor.probe now force j = (.error fault, auditor', k))
    : fault.isForeseen = false := by
  unfold probe at h
  split at h <;> cases h
  rfl

end Auditor

namespace Command

/-- Preparing a task reads files and sends nothing. -/
theorem prepare_sends (s : Surroundings) (input : List UInt8) (a : Arguments) (disk : Disk)
    (j : Journal)
    : (prepare s input a disk j).2.sends = j.sends := by
  unfold prepare
  split
  · rfl
  · next settings _ =>
    have kept := Auditor.setUp_sends settings s.network disk j
    split
    · next hup => exact (congrArg (·.2.sends) hup).symm.trans kept
    · next k hup =>
      have kept : k.sends = j.sends := (congrArg (·.2.sends) hup).symm.trans kept
      split
      · exact kept
      · split <;> exact kept

-----------------------------------------------------------------------------------------
-- Performing
-----------------------------------------------------------------------------------------

/-- A run that ends with a fault and is stopped had this fault, which was foreseen. -/
theorem endWith_stopped {fault : RunFault} {c c' : Console} {why : Stop}
    (h : endWith fault c = (.stopped why, c'))
    : fault.isForeseen = true ∧ why = .fault fault ∧ c' = c.complain why.line := by
  unfold endWith at h
  split at h
  · next foreseen =>
    cases h
    exact ⟨foreseen, rfl, rfl⟩
  · cases h

/-- An audit is never stopped: it is done, broken off, or unfinished. -/
theorem audit_ne_stopped (a : Arguments) (auditor : Auditor) (list : List Expected)
    (fuel : Nat) (c : Console) (why : Stop)
    : (audit a auditor list fuel c).1 ≠ .stopped why := by
  unfold audit
  split
  · split <;> simp
  · dsimp only
    split <;> simp

/-- Once a task is prepared, a run only stops because it cannot write a file. -/
theorem perform_stopped {s : Surroundings} {a : Arguments} {task : Task} {fuel : Nat}
    {c c' : Console} {why : Stop} (h : perform s a task fuel c = (.stopped why, c'))
    : ∃ f, why = .fault (.file f) := by
  unfold perform at h
  split at h
  · next fault k hprobe =>
    -- What goes wrong with a probe breaks the run off.
    have unforeseen : fault.isForeseen = false := by
      unfold probe at hprobe
      split at hprobe
      · cases hprobe
      · dsimp only at hprobe
        split at hprobe
        · next heq =>
          cases hprobe
          exact Auditor.probe_unforeseen heq
        · cases hprobe
    rw [(endWith_stopped h).1] at unforeseen
    cases unforeseen
  · split at h
    · next fault k hsave =>
      obtain ⟨f, rfl⟩ : ∃ f, fault = .file f := by
        unfold saveLedger at hsave
        split at hsave
        · cases hsave
        · split at hsave
          · next heq =>
            cases hsave
            exact Auditor.save_error heq
          · cases hsave
      exact ⟨f, (endWith_stopped h).2.1⟩
    · split at h
      · cases h
      · split at h
        · exact absurd (congrArg Prod.fst h) (audit_ne_stopped _ _ _ _ _ _)
        · split at h
          · next f _ => exact ⟨f, (endWith_stopped h).2.1⟩
          · exact absurd (congrArg Prod.fst h) (audit_ne_stopped _ _ _ _ _ _)

-----------------------------------------------------------------------------------------
-- Whole runs
-----------------------------------------------------------------------------------------

/-- What a run was given is at fault: its settings, a file that it reads, or there is nothing to
do.
-/
inductive Stop.BlamesInput : Stop → Prop
  | nothingToDo : BlamesInput .nothingToDo
  | settings (fault : SettingsFault) : BlamesInput (.fault (.settings fault))
  | noRootZone : BlamesInput (.fault .noRootZone)
  | zone (fault : Zone.Fault) : BlamesInput (.fault (.zone fault))
  | ledger (fault : ArchiveFault) : BlamesInput (.fault (.ledger fault))
  | list (fault : DomainListFault) : BlamesInput (.fault (.list fault))

/-- A run that stops because of what it was given has sent no message and left all files as they
were; it has printed the line that tells why, and nothing else.
-/
theorem run_stopped_untouched {s : Surroundings} {input : List UInt8}
    {arguments : List String} {fuel : Nat} {disk : Disk} {why : Stop} {c : Console}
    (stopped : run s input arguments fuel disk = (.stopped why, c))
    (blames : why.BlamesInput)
    : c.journal.sends = []
      ∧ c.disk = disk
      ∧ c.output = ""
      ∧ c.errors = why.line ++ "\n" := by
  unfold run at stopped
  split at stopped
  · cases stopped
  · cases stopped
  · next a _ =>
    have sends := prepare_sends s input a disk (Console.start disk).journal
    unfold runArguments at stopped
    dsimp only at stopped
    split at stopped
    · next fault k hprepare =>
      rw [hprepare] at sends
      obtain ⟨-, -, rfl⟩ := endWith_stopped stopped
      exact ⟨sends, rfl, rfl, by simp [Console.complain, Console.start]⟩
    · next task k hprepare =>
      rw [hprepare] at sends
      split at stopped
      · cases stopped
        exact ⟨sends, rfl, rfl, by simp [Console.complain, Console.start]⟩
      · obtain ⟨f, rfl⟩ := perform_stopped stopped
        cases blames

/-- A zone with one root server, and a domain list that is cut off. -/
def garbledDisk : Disk :=
  ⟨[(["root.zone"], Text.Utf8.encode ". NS a.root.\na.root. A 192.0.2.1\n".toList),
    (["list.json"], Text.Utf8.encode "[\x7b]".toList)], []⟩

/-- Witness: a run that was to write the ledger and the results stops at the domain list. -/
theorem garbledDisk_untouched
    : let arguments := ["--root-zone", "root.zone", "-c", "list.json", "-o", "out.json",
        "--cache-out", "ledger.json"]
      let why : Stop :=
        .fault (.list (.notJson "list.json" (.malformed .expectingName 1 3 2)))
      let after := run ⟨[], .silent, .atEpoch⟩ [] arguments 1 garbledDisk
      after.1 = .stopped why
      ∧ why.BlamesInput
      ∧ after.2.journal.sends = []
      ∧ after.2.disk = garbledDisk
      ∧ after.2.output = ""
      ∧ after.2.errors = why.line ++ "\n" := by
  intro arguments why after
  have stopped : after.1 = .stopped why := by decide +kernel
  have blames : why.BlamesInput := .list _
  have ended : after = (.stopped why, after.2) := by rw [← stopped]
  exact ⟨stopped, blames, run_stopped_untouched ended blames⟩

end Command

end NameserverAudit
