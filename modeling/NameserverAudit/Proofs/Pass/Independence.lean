import Mathlib.Data.List.Forall2
import NameserverAudit.Proofs.Lists
import NameserverAudit.Proofs.Pass.Totality
import NameserverAudit.Proofs.Walk.Responses
import NameserverAudit.Proofs.Walk.Steady

/-! The verdicts of a pass do not depend on one another, but whether there are any does: one
lookup that is refused breaks off the pass for all entries. Main statement: on a steady network a
pass over a domain list has verdicts just if the passes over its entries alone have, and gives
each entry the verdict that the pass over this entry alone gives. So a pass over entries of the
list in any order, as often as one likes, gives their verdicts in this order. Nor does it matter in
which order workers take up the audits of a pass, and how their messages come in between.
-/

namespace NameserverAudit

variable {ε : Type}

/-- The lookup finds the same, whatever was done before. -/
def Lookup.Timeless (lookup : Lookup ε) : Prop :=
  ∀ domain j j', (lookup domain j).1 = (lookup domain j').1

/-- A walker finds the same from journals that the networks do not tell apart. -/
theorem Walker.lookup_of_agrees {w : Walker} {network : Network} {j j' : Journal}
    (agrees : w.network.Agrees network j j') (domain : String)
    : (w.lookup domain j).1 = ((w.on network).lookup domain j').1 := by
  obtain ⟨found, k, k', hk, hk', -⟩ := (resolve_alike agrees true true domain).split
  simp only [lookup, hk, hk']
  cases found with
  | ok p => rfl
  | error fault => cases fault <;> rfl

/-- On a steady network a walker finds the same, whatever was done before. -/
theorem Walker.lookup_timeless {w : Walker} (steady : w.network.Steady)
    : w.lookup.Timeless :=
  fun domain j j' => lookup_of_agrees (steady.agrees j j') domain

namespace Pass

/-- The verdict on a domain when nothing was done before. -/
def alone (lookup : Lookup ε) (e : Expected) : Except ε Verdict :=
  (auditOne lookup e .start).1

variable {lookup : Lookup ε}

/-- An audit that finds the same has the same verdict, or the same fault. -/
theorem auditOne_congr {e : Expected} {j j' : Journal}
    (found : (lookup e.domain (j.add (.began e.domain))).1
      = (lookup e.domain (j'.add (.began e.domain))).1)
    : (auditOne lookup e j).1 = (auditOne lookup e j').1 := by
  rw [auditOne_fst, auditOne_fst, found]

variable (timeless : lookup.Timeless)

include timeless

theorem auditOne_eq_alone (e : Expected) (j : Journal)
    : (auditOne lookup e j).1 = alone lookup e :=
  auditOne_congr (timeless e.domain _ _)

/-- The audits of a list come to what those of its entries alone come to, by induction on the
list.
-/
theorem auditAll_eq_mapM_alone (list : List Expected) (j : Journal)
    : (auditAll lookup list j).1 = list.mapM (alone lookup) := by
  induction list generalizing j with
  | nil => rfl
  | cons first rest ih =>
      rw [List.mapM_cons, ← auditOne_eq_alone timeless first j]
      rcases haudit : auditOne lookup first j with ⟨fault | v, k⟩
      · simp [auditAll, haudit, bind, Except.bind]
      · rw [← ih k]
        rcases hmore : auditAll lookup rest k with ⟨fault | vs, k'⟩
        all_goals simp [auditAll, haudit, hmore, bind, Except.bind, pure, Except.pure]

omit timeless

/-- How an audit is taken up by a worker: after what was done before, and with the messages of
other audits in between its own.
-/
structure Turn where
  start : Journal
  sentByAll : List Sent → List Sent

/-- The audit of an entry as a worker takes it up. -/
def auditTurn (w : Walker) (e : Expected) (turn : Turn) : Except Refusal Verdict :=
  (auditOne (w.on (w.network.amid turn.sentByAll)).lookup e turn.start).1

/-- It makes no difference to a pass on a steady network in which order its audits are taken up, by
how many workers, and how their messages come in between one another: what they come to in the
order of the list is what the pass comes to.
-/
theorem auditAll_eq_mapM_of_turns {w : Walker} (steady : w.network.Steady)
    (list : List Expected) (turns : List Turn) (each : turns.length = list.length) (j : Journal)
    : (auditAll w.lookup list j).1
      = (list.zip turns).mapM fun task => auditTurn w task.1 task.2 := by
  have fixed : (fun task : Expected × Turn => auditTurn w task.1 task.2)
      = alone w.lookup ∘ Prod.fst := by
    funext task
    have found := Walker.lookup_of_agrees
      (steady.agrees_amid task.2.sentByAll (Journal.start.add (.began task.1.domain))
        (task.2.start.add (.began task.1.domain)))
      task.1.domain
    simp only [auditTurn, alone, Function.comp_apply, auditOne_fst, found]
  rw [fixed, ← List.mapM_map, List.map_fst_zip each.ge,
    auditAll_eq_mapM_alone (Walker.lookup_timeless steady)]

/-- A pass over one entry is its audit. -/
theorem run_singleton_fst (lookup : Lookup ε) (workers : Nat) (e : Expected) (j : Journal)
    : (run lookup workers [e] j).1
      = (auditOne lookup e (j.add (.workers (min workers 1)))).1.map fun v => [v] := by
  simp only [run_fst, auditAll, List.length_singleton]
  cases (auditOne lookup e (j.add (.workers (min workers 1)))).1 <;> rfl

include timeless

theorem run_ok_iff {workers : Nat} {list : List Expected} {verdicts : List Verdict}
    {j : Journal}
    : (run lookup workers list j).1 = .ok verdicts
      ↔ List.Forall₂ (fun e v => alone lookup e = .ok v) list verdicts := by
  rw [run_fst, auditAll_eq_mapM_alone timeless, mapM_eq_ok_iff]

/-- A pass over one entry has the verdict on it alone, or its fault. -/
theorem run_singleton (workers : Nat) (e : Expected) (j : Journal)
    : (run lookup workers [e] j).1 = (alone lookup e).map fun v => [v] := by
  rw [run_singleton_fst, auditOne_eq_alone timeless]

omit timeless

/-- On a steady network the verdicts of a pass over an accepted list are independent of one
another. There are verdicts just if the passes over the entries alone have verdicts. Each verdict
is the one that a pass over this entry alone gives, at any time; so entries of the list, chosen in
any order and any number of times, have in this order the same verdicts in a pass over them. A
pass that is broken off is so for the reason that breaks off the pass over one of its entries
alone; with known families that is a payload that no message can announce or an address record of
another class.
-/
theorem run_verdicts_independent {w : Walker} (steady : w.network.Steady) {v : Json}
    {list : List Expected} (accepted : Expected.ofJson v = .ok list) (workers : Nat)
    (j : Journal)
    : ((∃ verdicts, (run w.lookup workers list j).1 = .ok verdicts)
        ↔ ∀ e ∈ list, ∃ verdict, ∀ workers' j',
            (run w.lookup workers' [e] j').1 = .ok [verdict])
      ∧ (∀ verdicts, (run w.lookup workers list j).1 = .ok verdicts →
          verdicts.length = list.length
          ∧ (∀ (i : Nat) (e : Expected), list[i]? = some e → ∀ workers' j',
              ∃ verdict,
                verdicts[i]? = some verdict
                ∧ (run w.lookup workers' [e] j').1 = .ok [verdict])
          ∧ ∀ chosen : List (Expected × Verdict), chosen ⊆ list.zip verdicts →
              ∀ workers' j',
                (run w.lookup workers' (chosen.map Prod.fst) j').1
                  = .ok (chosen.map Prod.snd))
      ∧ ∀ refusal, (run w.lookup workers list j).1 = .error refusal →
          (∃ e ∈ list, ∀ workers' j', (run w.lookup workers' [e] j').1 = .error refusal)
          ∧ (AreKnown w.families →
              (¬w.manner.Fits ∧ refusal = .payload ⟨w.manner.payload⟩)
              ∨ ∃ record, refusal = .foreign record) := by
  have timeless := Walker.lookup_timeless steady
  refine ⟨?_, fun verdicts h => ?_, fun refusal h => ⟨?_, fun known => ?_⟩⟩
  · have single (e : Expected) (verdict : Verdict)
        : alone w.lookup e = .ok verdict
          ↔ ∀ workers' j', (run w.lookup workers' [e] j').1 = .ok [verdict] := by
      simp only [run_ok_iff timeless, List.forall₂_cons, List.Forall₂.nil, and_true,
        forall_const]
    rw [exists_congr fun verdicts => run_ok_iff timeless, exists_forall₂_iff]
    exact forall₂_congr fun e _ => exists_congr fun verdict => single e verdict
  · have each := (run_ok_iff timeless).1 h
    refine ⟨each.length_eq.symm, fun i e he workers' j' => ?_,
      fun chosen within workers' j' => ?_⟩
    · obtain ⟨hi, hat⟩ := List.getElem?_eq_some_iff.1 he
      have hv := each.get hi (each.length_eq ▸ hi)
      refine ⟨_, List.getElem?_eq_getElem (each.length_eq ▸ hi), ?_⟩
      subst hat
      rw [run_singleton timeless, show alone w.lookup list[i] = _ from hv]
      rfl
    · have hpairs : ∀ pair ∈ chosen, alone w.lookup pair.1 = .ok pair.2 :=
        fun pair hpair => List.forall₂_zip each (within hpair)
      rw [run_ok_iff timeless, List.forall₂_map_left_iff, List.forall₂_map_right_iff,
        List.forall₂_same]
      exact hpairs
  · rw [run_fst, auditAll_eq_mapM_alone timeless] at h
    obtain ⟨e, he, hfault⟩ := exists_of_mapM_eq_error h
    exact ⟨e, he, fun workers' j' => by rw [run_singleton timeless, hfault]; rfl⟩
  · obtain ⟨-, -, broken, grounds⟩ :=
      run_gives_verdicts_iff_unrefused accepted known workers j
    obtain ⟨i, ⟨e, he, hrefused⟩, -⟩ := (broken refusal).1 h
    exact (grounds i e refusal he ⟨e, he, hrefused⟩).2

/-- A walker on a network where the root server publishes the nameserver of `www.example.`, and
nothing else is answered.
-/
def terseWalker : Walker :=
  { directory := ⟨[⟨"a.root.", .ofList ["192.0.2.1"], .empty⟩], []⟩
    ledger := .empty
    network := Network.ofRoutes [
      ⟨.udp, "192.0.2.1", "www.example.", "NS",
        [⟨.zero,
          .response
            { Response.blank with
              authoritative := true
              answer :=
                [⟨.written "www.example.", .nameservers [.written "ns.example."]⟩] }⟩]⟩]
    manner := .standard
    families := [.known .ipv4]
    useDelegations := true
    maxSteps := 3
    maxDepth := 2 }

/-- Witness: a pass over two domains, of which one is published, and one over them in another
order and with one of them twice.
-/
theorem terseWalker_verdicts_independent
    : let www : Expected := ⟨"www.example", some (.ofList ["ns.example."]), none⟩
      let mail : Expected := ⟨"mail.example", some (.ofList ["ns.example."]), none⟩
      ∃ first second,
        (run terseWalker.lookup 4 [www, mail] .start).1 = .ok [first, second]
        ∧ (run terseWalker.lookup 1 [mail, www, mail] .start).1
            = .ok [second, first, second] := by
  have steady : terseWalker.network.Steady := Network.steady_ofRoutes (by simp)
  have accepted
      : Expected.ofJson
          (.array [
            .object [("domain_name", .str "www.example"), ("ns", .array [.str "NS.Example"])],
            .object [("domain_name", .str "mail.example"), ("ns", .array [.str "ns.example"])]])
        = .ok [
            ⟨"www.example", some (.ofList ["ns.example."]), none⟩,
            ⟨"mail.example", some (.ofList ["ns.example."]), none⟩] :=
    rfl
  obtain ⟨-, hverdicts, -⟩ := run_verdicts_independent steady accepted 4 .start
  have gives : (run terseWalker.lookup 4
      [⟨"www.example", some (.ofList ["ns.example."]), none⟩,
        ⟨"mail.example", some (.ofList ["ns.example."]), none⟩] .start).1.isOk = true := by
    decide +kernel
  rcases h : (run terseWalker.lookup 4
      [⟨"www.example", some (.ofList ["ns.example."]), none⟩,
        ⟨"mail.example", some (.ofList ["ns.example."]), none⟩] .start).1 with refusal | verdicts
  · rw [h] at gives
    cases gives
  · obtain ⟨hlength, -, hchosen⟩ := hverdicts verdicts h
    obtain ⟨first, second, rfl⟩ := List.length_eq_two.1 hlength
    exact ⟨first, second, h,
      hchosen [(_, second), (_, first), (_, second)] (by simp) 1 .start⟩

example
    : let www : Expected := ⟨"www.example", some (.ofList ["ns.example."]), none⟩
      let mail : Expected := ⟨"mail.example", some (.ofList ["ns.example."]), none⟩
      (run terseWalker.lookup 1 [mail, www, mail] .start).1.toOption.map (·.map (·.success))
        = some [false, true, false] := by
  decide +kernel

/-- A walker that asks for a family that does not exist. It knows an address of the nameserver of
`example.`.
-/
def strayWalker : Walker :=
  { directory :=
      ⟨[⟨"a.root.", .ofList ["192.0.2.1"], .empty⟩],
        [⟨.written "example.", ["ns.example."], [("ns.example.", ["192.0.2.2"])]⟩]⟩
    ledger := .empty
    network := Network.ofRoutes []
    manner := .standard
    families := [.known .ipv4, .other "ipv5"]
    useDelegations := true
    maxSteps := 16
    maxDepth := 2 }

/-- Counterexamples: on a steady network, a pass over one domain has a verdict, but none if there
is another domain in the list, for which the root servers would have to be asked, or whose referral
brings an address of the class Chaos.
-/
theorem strayWalker_verdict_lost
    : let www : Expected := ⟨"www.example", some (.ofList ["ns.example."]), none⟩
      let other : Expected := ⟨"other.test", some (.ofList ["ns.other.test."]), none⟩
      strayWalker.network.Steady
      ∧ Expected.ofJson
          (.array [
            .object [("domain_name", .str "www.example"), ("ns", .array [.str "ns.example"])],
            .object [("domain_name", .str "other.test"), ("ns", .array [.str "ns.other.test"])]])
        = .ok [www, other]
      ∧ (run strayWalker.lookup 4 [www] .start).1.isOk = true
      ∧ (run strayWalker.lookup 4 [www, other] .start).1
        = .error (.unknownFamily ⟨"ipv5"⟩)
      ∧ Walker.chaosWalker.network.Steady
      ∧ (run Walker.chaosWalker.lookup 4 [other] .start).1.isOk = true
      ∧ (run Walker.chaosWalker.lookup 4 [other, www] .start).1 = .error (.foreign (.number 1)) :=
  ⟨Network.steady_ofRoutes (by simp), rfl, by decide +kernel, by decide +kernel,
    Network.steady_ofRoutes (by simp), by decide +kernel, by decide +kernel⟩

end Pass

end NameserverAudit
