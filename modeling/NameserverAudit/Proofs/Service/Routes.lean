import NameserverAudit.Proofs.Latency.Unbroken
import NameserverAudit.Proofs.Pass.Independence
import NameserverAudit.Proofs.Report.Results
import NameserverAudit.Proofs.Report.Table
import NameserverAudit.Proofs.Service.Requests

/-! The two ways to ask the service about a domain. Main statement: from one session a request with
parameters and a request with a list of one entry are answered alike: with one refusal, or with
one verdict, which the second answer also counts, or that the service is unavailable; and if the
lookup of the domain is refused, or probing breaks, both break off with the same fault.
-/

namespace NameserverAudit

-----------------------------------------------------------------------------------------
-- One audit
-----------------------------------------------------------------------------------------

/-- From journals with the same messages an audit has the same verdict, or the same fault. -/
theorem Pass.auditOne_of_sends {w : Walker} {j j' : Journal} (same : j.sends = j'.sends)
    (e : Expected)
    : (auditOne w.lookup e j).1 = (auditOne w.lookup e j').1 := by
  have begun (j : Journal) : (j.add (.began e.domain)).sends = j.sends := rfl
  apply auditOne_congr
  apply Walker.lookup_of_agrees
  apply Network.agrees_of_sends
  rw [begun, begun, same]

namespace Auditor

theorem auditOne_fst (a : Auditor) (e : Expected) (j : Journal)
    : (a.auditOne e j).1 = (Pass.auditOne a.walker.lookup e j).1.mapError .walk := by
  unfold auditOne
  rcases Pass.auditOne a.walker.lookup e j with ⟨refusal | v, k⟩ <;> rfl

theorem pass_fst (a : Auditor) (list : List Expected) (j : Journal)
    : (a.pass list j).1 = (Pass.run a.walker.lookup a.workers list j).1.mapError .walk := by
  unfold pass
  rcases Pass.run a.walker.lookup a.workers list j with ⟨refusal | vs, k⟩ <;> rfl

/-- An auditor has one verdict on a domain, or one fault, be it audited alone or in a pass. -/
theorem pass_singleton_fst (a : Auditor) (e : Expected) (j : Journal)
    : (a.pass [e] j).1 = (a.auditOne e j).1.map fun v => [v] := by
  have same (n : Int) : (j.add (.workers n)).sends = j.sends := rfl
  rw [pass_fst, auditOne_fst, Pass.run_singleton_fst, Pass.auditOne_of_sends (same _)]
  cases (Pass.auditOne a.walker.lookup e j).1 <;> rfl

/-- What an audit comes to by how the lookup of its domain ended: with a verdict if something was
published or there was no answer, and with the refusal if it was refused.
-/
theorem auditOne_of_resolve (a : Auditor) (e : Expected) (j : Journal)
    : (∃ p,
        (a.auditOne e j).1 = .ok (.of e p)
        ∧ ∀ refusal,
            (a.walker.resolve true true e.domain (j.add (.began e.domain))).1
              ≠ .error (.refused refusal))
      ∨ ∃ refusal,
          (a.auditOne e j).1 = .error (.walk refusal)
          ∧ (a.walker.resolve true true e.domain (j.add (.began e.domain))).1
            = .error (.refused refusal) := by
  rw [auditOne_fst, Pass.auditOne_fst, Walker.lookup]
  rcases a.walker.resolve true true e.domain (j.add (.began e.domain))
    with ⟨(u | refusal) | p, k⟩
  · exact .inl ⟨.failed u.message, rfl, by simp⟩
  · exact .inr ⟨refusal, rfl, rfl⟩
  · exact .inl ⟨p, rfl, by simp⟩

end Auditor

/-- The summary of one verdict: it is a success or not, and has each of its anomalies once. -/
def Results.summaryOfOne (v : Verdict) : Json :=
  .object [
    ("domains", .int 1),
    ("passed", .int (if v.success then 1 else 0)),
    ("failed", .int (if v.success then 0 else 1)),
    ("flags", .object (v.flags.map fun flag => (flag.name, .int 1)))]

theorem Anomaly.name_injective : Function.Injective Anomaly.name := by
  intro a b h
  cases a <;> cases b <;> first | rfl | exact absurd h (by decide)

theorem Results.summary_singleton {v : Verdict} (once : v.flags.Nodup)
    : summary [v] = summaryOfOne v := by
  have names : (v.flags.map Anomaly.name).Nodup := once.map Anomaly.name_injective
  have counts : flagCounts [v] = v.flags.map fun flag => (flag.name, 1) := by
    rw [flagCounts, foldl_tally, List.flatMap_singleton, counted, eraseDups_of_nodup names,
      List.map_map]
    refine List.map_congr_left fun flag hflag => ?_
    exact congrArg _ (List.count_eq_one_of_mem names (List.mem_map_of_mem hflag))
  cases hsuccess : v.success <;>
    simp [summary, summaryOfOne, counts, failedCount, hsuccess, Function.comp_def]

namespace Service

-----------------------------------------------------------------------------------------
-- Sessions
-----------------------------------------------------------------------------------------

namespace Session

/-- The auditor of the session, if there is one, asks servers of known families. -/
def KnowsFamilies (v : Session) : Prop :=
  ∀ a, v.auditor = some a → AreKnown a.probes.families

variable {s : Surroundings} {v : Session}

theorem probes_of_probe (a : Auditor) (now : Instant) (force : Bool) (j : Journal)
    : (a.probe now force j).2.1.probes = a.probes := by
  unfold Auditor.probe
  split <;> rfl

theorem saveLedger_auditor (a : Auditor) (v : Session)
    : (saveLedger a v).auditor = v.auditor := by
  unfold saveLedger
  split <;> rfl

theorem families_of_build {a : Auditor} (h : (build s v).1 = .ok a)
    : AreKnown a.probes.families := by
  unfold build at h
  split at h
  · cases h
  · next settings _ =>
    rw [Auditor.probes_of_setUp h]
    exact settings.families_known

theorem auditor_of_build : (build s v).2.auditor = v.auditor := by
  unfold build
  split <;> rfl

/-- What a session is ready with has known families, and is the auditor of the session from then
on.
-/
theorem ready_knows (known : v.KnowsFamilies)
    : (ready s v).2.KnowsFamilies
      ∧ ∀ a, (ready s v).1 = .ready a → (ready s v).2.auditor = some a := by
  have idle {v' : Session} (h : v'.auditor = none) : v'.KnowsFamilies := by
    intro a ha
    cases h.symm.trans ha
  unfold ready
  split
  · next a ha =>
    refine ⟨known, fun b hb => ?_⟩
    cases hb
    exact ha
  · next none =>
    have unchanged := auditor_of_build (s := s) (v := v)
    rw [none] at unchanged
    split
    · next fault v' hbuild =>
      rw [hbuild] at unchanged
      split
      · exact ⟨idle unchanged, fun _ h => by cases h⟩
      · exact ⟨idle unchanged, fun _ h => by cases h⟩
    · next a v' hbuild =>
      rw [hbuild] at unchanged
      have families := families_of_build (congrArg Prod.fst hbuild)
      have kept := probes_of_probe a s.now false v'.journal
      split
      · exact ⟨idle unchanged, fun _ h => by cases h⟩
      · next count b journal hprobe =>
        rw [hprobe] at kept
        constructor
        · intro c hc
          rw [saveLedger_auditor] at hc
          cases hc
          exact kept ▸ families
        · intro c hc
          cases hc
          exact saveLedger_auditor _ _

/-- A session that is set up knows its families. -/
theorem families_of_ready {a : Auditor} (known : v.KnowsFamilies)
    (h : (ready s v).1 = .ready a)
    : AreKnown a.probes.families :=
  (ready_knows known).1 a ((ready_knows known).2 a h)

/-- Answering keeps the auditor of the session. -/
def Keeps (answer : Auditor → Session → Except Fault Answer × Session) : Prop :=
  ∀ a v, (answer a v).2.auditor = v.auditor

theorem auditOne_keeps (r : Request) : Keeps (auditOne r) := by
  intro a v
  unfold auditOne
  split
  · rfl
  · split
    · rfl
    · split <;> rfl

theorem auditList_keeps (r : Request) (content : Option Json) : Keeps (auditList r content) := by
  intro a v
  unfold auditList
  split
  · unfold auditEntries
    split
    · rfl
    · split <;> rfl
  · rfl
  · rfl

theorem rootServers_keeps : Keeps rootServers := by
  intro a v
  unfold rootServers
  split <;> rfl

theorem withAuditor_knows {answer : Auditor → Session → Except Fault Answer × Session}
    (keeps : Keeps answer) (known : v.KnowsFamilies)
    : (withAuditor s v answer).2.KnowsFamilies := by
  have readied := (ready_knows (s := s) known).1
  unfold withAuditor
  generalize ready s v = found at readied ⊢
  rcases found with ⟨a | message | fault, v'⟩
  · intro b hb
    exact readied b ((keeps a v').symm.trans hb)
  · exact readied
  · exact readied

/-- One request does not make families unknown, whatever it asks for. -/
theorem respond_knows (known : v.KnowsFamilies) (r : Request)
    : (respond s r v).2.KnowsFamilies := by
  unfold respond
  split
  · exact withAuditor_knows (auditOne_keeps r) known
  · exact withAuditor_knows rootServers_keeps known
  · split
    · exact known
    · exact known
    · exact withAuditor_knows (auditList_keeps r _) known
  · exact known
  · exact known

/-- The sessions that come about from a start by answering requests; the time and the network may
be others at each of them.
-/
inductive Served : Session → Prop
  | start (disk : Disk) : Served (.start disk)
  | respond {v : Session} (earlier : Served v) (s : Surroundings) (r : Request)
    : Served (respond s r v).2

/-- Every session that comes about knows its families, by induction on the requests. -/
theorem Served.knowsFamilies (h : Served v) : v.KnowsFamilies := by
  induction h with
  | start disk =>
      intro a ha
      cases ha
  | respond earlier s r ih => exact respond_knows ih r

-----------------------------------------------------------------------------------------
-- Both routes
-----------------------------------------------------------------------------------------

variable {a : Auditor} {get post : Request} {domain : String} {ns ip : Option (List String)}

theorem withAuditor_of_ready (answer : Auditor → Session → Except Fault Answer × Session)
    (ready : (ready s v).1 = .ready a)
    : withAuditor s v answer = answer a (Session.ready s v).2 := by
  unfold withAuditor
  generalize Session.ready s v = found at ready ⊢
  obtain ⟨outcome, v'⟩ := found
  cases ready
  rfl

/-- Without an auditor it does not matter how the auditor would have answered. -/
theorem withAuditor_of_not_ready (s : Surroundings) (v : Session)
    (answer : Auditor → Session → Except Fault Answer × Session)
    : (∀ message, (ready s v).1 = .down message →
        (withAuditor s v answer).1
          = .ok (.unavailable s!"audit engine unavailable: {message}"))
      ∧ ∀ fault, (ready s v).1 = .broken fault →
          (withAuditor s v answer).1 = .error (.run fault) := by
  unfold withAuditor
  generalize ready s v = found
  rcases found with ⟨a | message | fault, v'⟩ <;> simp

/-- Both requests need the auditor. -/
theorem respond_needs_auditor (s : Surroundings) (v : Session)
    (asksOne : get.AsksOne domain ns ip) (asksList : post.AsksList domain ns ip)
    : respond s get v = withAuditor s v (auditOne get)
      ∧ ∃ content, respond s post v = withAuditor s v (auditList post content) := by
  constructor
  · rw [respond, asksOne.errand]
  · obtain ⟨entry, content, -⟩ := asksList.content
    refine ⟨some (.array [entry]), ?_⟩
    rw [respond, asksList.errand]
    dsimp only
    rw [content]

/-- A request with parameters is answered with the verdict on its expectation, or refused for
what is wrong with it.
-/
theorem respond_asksOne (ready : (ready s v).1 = .ready a) (asks : get.AsksOne domain ns ip)
    (nonempty : 1 ≤ domain.length) (short : domain.length ≤ 253)
    : (respond s get v).1
      = match expected domain get with
        | .error fault => .ok (.senseless fault.message)
        | .ok e =>
            match (a.auditOne e (Session.ready s v).2.journal).1 with
            | .error fault => .error (.run fault)
            | .ok verdict => .ok (.found verdict.toJson) := by
  have named : get.domain = .ok domain := by
    simp only [Request.domain, asks.domain]
    rw [if_neg (by omega), if_neg (by omega)]
  rw [respond, asks.errand]
  dsimp only
  rw [withAuditor_of_ready _ ready]
  simp only [auditOne, named]
  cases expected domain get with
  | error fault => rfl
  | ok e =>
      dsimp only
      rcases a.auditOne e (Session.ready s v).2.journal with ⟨fault | verdict, j⟩
      · rfl
      · simp only [Results.object_eq]

/-- A request with a list of one entry is answered with the results of a pass over the expectation
of this entry, or refused for what is wrong with it.
-/
theorem respond_asksList (ready : (ready s v).1 = .ready a) (asksOne : get.AsksOne domain ns ip)
    (asks : post.AsksList domain ns ip)
    : (respond s post v).1
      = match expected domain get with
        | .error fault => .ok (.senseless fault.message)
        | .ok e =>
            match (a.pass [e] (Session.ready s v).2.journal).1 with
            | .error fault => .error (.run fault)
            | .ok verdicts => .ok (.found (.object [
                ("results", Results.toJson true verdicts),
                ("summary", Results.summary verdicts)])) := by
  obtain ⟨entry, content, given, names, addresses⟩ := asks.content
  obtain ⟨fields, rfl⟩ := Expected.exists_object_of_field? given
  rw [respond, asks.errand]
  dsimp only
  rw [content]
  dsimp only
  rw [withAuditor_of_ready _ ready]
  simp only [auditList, asks.all, Request.contentFlaws, Request.entryFlaws, Option.getD_some,
    auditEntries, ofJson_singleton, ofEntry_eq_expected asksOne 0 given names addresses]
  cases expected domain get with
  | error fault => rfl
  | ok e =>
      simp only [Except.map]
      rcases a.pass [e] (Session.ready s v).2.journal with ⟨fault | verdicts, j⟩ <;> rfl

theorem isDomain_of_expected {r : Request} {e : Expected} (h : expected domain r = .ok e)
    : Host.isDomain e.domain = true := by
  unfold expected at h
  split at h
  · cases h
  · next host hostStyle =>
    rw [← (Expected.create_eq_ok_iff_collects.1 h).2.1]
    exact Host.isDomain_of_domain? hostStyle

/-- A request states an expectation, and the lookup of its domain is refused, with the journal of
the session.
-/
def LookupRefused (a : Auditor) (j : Journal) (domain : String) (r : Request)
    (refusal : Refusal) : Prop :=
  ∃ e,
    expected domain r = .ok e
    ∧ (a.walker.resolve true true e.domain (j.add (.began e.domain))).1
      = .error (.refused refusal)

/-- From a session with an auditor both requests are answered alike unless the lookup of the
domain is refused, and otherwise they break off with the same fault.
-/
theorem routes_of_ready (known : v.KnowsFamilies) (ready : (ready s v).1 = .ready a)
    (nonempty : 1 ≤ domain.length) (short : domain.length ≤ 253)
    (asksOne : get.AsksOne domain ns ip) (asksList : post.AsksList domain ns ip)
    : ((∀ refusal, ¬LookupRefused a (Session.ready s v).2.journal domain get refusal) →
        ∃ one list,
          (respond s get v).1 = .ok one ∧ (respond s post v).1 = .ok list
          ∧ (one.status = 400 ∧ list.status = 400 ∧ list.body = one.body
            ∨ one.status = 200 ∧ list.status = 200
              ∧ ∃ verdict : Verdict,
                  one.body = verdict.toJson
                  ∧ list.body = .object [
                      ("results", .array [one.body]),
                      ("summary", Results.summaryOfOne verdict)]))
      ∧ ∀ refusal, LookupRefused a (Session.ready s v).2.journal domain get refusal →
          (respond s get v).1 = .error (.run (.walk refusal))
          ∧ (respond s post v).1 = .error (.run (.walk refusal))
          ∧ (¬a.walker.manner.Fits ∧ refusal = .payload ⟨a.walker.manner.payload⟩
            ∨ ∃ record, refusal = .foreign record) := by
  rw [respond_asksOne ready asksOne nonempty short, respond_asksList ready asksOne asksList]
  unfold LookupRefused
  cases stated : expected domain get with
  | error fault => exact ⟨fun _ => ⟨_, _, rfl, rfl, .inl ⟨rfl, rfl, rfl⟩⟩, by simp⟩
  | ok e =>
      dsimp only
      rw [Auditor.pass_singleton_fst]
      rcases a.auditOne_of_resolve e (Session.ready s v).2.journal
        with ⟨p, audited, unrefused⟩ | ⟨refusal, audited, hrefused⟩
      all_goals rw [audited]
      · refine ⟨fun _ => ?_, ?_⟩
        · have once : (Verdict.of e p).flags.Nodup := Verdict.anomalies_nodup _ _
          refine ⟨_, _, rfl, rfl, .inr ⟨rfl, rfl, .of e p, rfl, ?_⟩⟩
          simp only [Results.summary_singleton once, Results.toJson_eq_array]
          rfl
        · rintro refusal ⟨_, ⟨⟩, hrefused⟩
          exact absurd hrefused (unrefused refusal)
      · refine ⟨fun h => absurd ⟨e, rfl, hrefused⟩ (h refusal), ?_⟩
        rintro other ⟨_, ⟨⟩, hother⟩
        cases hrefused.symm.trans hother
        exact ⟨rfl, rfl, (Walker.resolve_refused (w := a.walker)
          (families_of_ready known ready) (isDomain_of_expected stated) hrefused).2⟩

/-- Both ways to ask about a domain are answered alike, from any session. If the auditor cannot be
set up, the service is unavailable for both, with one body, or both break off with the same fault.
If there is an auditor, either both are refused, with one body, or both have an answer. Then the
answer to the request with parameters is the only result in the answer to the request with a list,
and its summary counts the success and the anomalies of this result. Only if the lookup of the
domain is refused, which takes a payload that no message can announce or an address record of
another class, both break off with this fault.
-/
theorem routes_agree (known : v.KnowsFamilies) (nonempty : 1 ≤ domain.length)
    (short : domain.length ≤ 253) (asksOne : get.AsksOne domain ns ip)
    (asksList : post.AsksList domain ns ip)
    : (∀ message, (ready s v).1 = .down message →
        ∃ one list,
          (respond s get v).1 = .ok one ∧ (respond s post v).1 = .ok list
          ∧ one.status = 503 ∧ list.status = 503 ∧ list.body = one.body)
      ∧ (∀ fault, (ready s v).1 = .broken fault →
          (respond s get v).1 = .error (.run fault)
          ∧ (respond s post v).1 = .error (.run fault))
      ∧ ∀ a, (ready s v).1 = .ready a →
          ((∀ refusal, ¬LookupRefused a (ready s v).2.journal domain get refusal) →
            ∃ one list,
              (respond s get v).1 = .ok one ∧ (respond s post v).1 = .ok list
              ∧ (one.status = 400 ∧ list.status = 400 ∧ list.body = one.body
                ∨ one.status = 200 ∧ list.status = 200
                  ∧ ∃ verdict : Verdict,
                      one.body = verdict.toJson
                      ∧ list.body = .object [
                          ("results", .array [one.body]),
                          ("summary", Results.summaryOfOne verdict)]))
          ∧ ∀ refusal, LookupRefused a (ready s v).2.journal domain get refusal →
              (respond s get v).1 = .error (.run (.walk refusal))
              ∧ (respond s post v).1 = .error (.run (.walk refusal))
              ∧ (¬a.walker.manner.Fits ∧ refusal = .payload ⟨a.walker.manner.payload⟩
                ∨ ∃ record, refusal = .foreign record) := by
  obtain ⟨getNeeds, content, postNeeds⟩ := respond_needs_auditor s v asksOne asksList
  have getFails := withAuditor_of_not_ready s v (auditOne get)
  have postFails := withAuditor_of_not_ready s v (auditList post content)
  refine ⟨fun message down => ?_, fun fault broken => ?_, fun a ready => ?_⟩
  · rw [getNeeds, postNeeds]
    exact ⟨_, _, getFails.1 message down, postFails.1 message down, rfl, rfl, rfl⟩
  · rw [getNeeds, postNeeds]
    exact ⟨getFails.2 fault broken, postFails.2 fault broken⟩
  · exact routes_of_ready known ready nonempty short asksOne asksList

/-- A service with the root zone in a file, on a network on which nobody answers. -/
def quietSurroundings : Surroundings :=
  ⟨[("DNS_AUDIT_ROOT_ZONE", "z")], .silent, .atEpoch⟩

/-- Witness: a domain with a nameserver that is expected, on that network. Neither request is
refused.
-/
theorem quietSurroundings_routes_agree
    : let v := Session.start Auditor.knownDisk
      let names := some ["ns1.example.com"]
      ∃ one list,
        (respond quietSurroundings (.ofParameters "Example.com." names none) v).1 = .ok one
        ∧ (respond quietSurroundings (.ofEntry "Example.com." names none) v).1 = .ok list
        ∧ one.status = 200 ∧ list.status = 200
        ∧ ∃ verdict : Verdict,
            one.body = verdict.toJson
            ∧ list.body = .object [
                ("results", .array [one.body]),
                ("summary", Results.summaryOfOne verdict)] := by
  intro v names
  obtain ⟨a, ready⟩ : ∃ a, (ready quietSurroundings v).1 = .ready a := by
    have up : (match (ready quietSurroundings v).1 with | .ready _ => true | _ => false)
        = true := by
      decide +kernel
    split at up
    · next a h => exact ⟨a, h⟩
    · cases up
  let get := Request.ofParameters "Example.com." names none
  have accepted : (respond quietSurroundings get v).1.toOption.map Answer.status = some 200 := by
    decide +kernel
  have asksOne : get.AsksOne "Example.com." names none :=
    Request.asksOne_ofParameters _ (by decide) (by decide)
  obtain ⟨-, -, agree⟩ := routes_agree (s := quietSurroundings)
    (Served.start Auditor.knownDisk).knowsFamilies (by decide) (by decide) asksOne
    (Request.asksList_ofEntry "Example.com." names none)
  obtain ⟨agree, breaks⟩ := agree a ready
  obtain ⟨one, list, hone, hlist, refused | answered⟩ := agree fun refusal h => by
    rw [(breaks refusal h).1] at accepted
    cases accepted
  · rw [hone] at accepted
    cases refused.1.symm.trans (Option.some.inj accepted)
  · exact ⟨one, list, hone, hlist, answered⟩

/-- A service whose environment names a file that is not there. -/
def lostSurroundings : Surroundings :=
  ⟨[("DNS_AUDIT_ROOT_ZONE", "lost")], .silent, .atEpoch⟩

/-- Counterexample: without the file of the root zone both requests for a domain are answered, and
neither is refused with 400 nor answered with 200.
-/
theorem lostSurroundings_unavailable
    : let v := Session.start Auditor.knownDisk
      let answers := fun r => (respond lostSurroundings r v).1.toOption.map Answer.status
      answers (.ofParameters "example.com" none none) = some 503
      ∧ answers (.ofEntry "example.com" none none) = some 503 := by
  decide +kernel

end Session

end Service

end NameserverAudit
