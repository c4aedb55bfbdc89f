import NameserverAudit.Exchange.Script
import NameserverAudit.Proofs.Pass.Watch
import NameserverAudit.Proofs.Verdict.Grammar
import NameserverAudit.Proofs.Walk.Cuts
import NameserverAudit.Proofs.Walk.Refusal
import NameserverAudit.Proofs.Walk.Responses

/-! What breaks off a pass over an accepted domain list. An audit puts up with a lookup that ended
without an answer, but not with one that was refused. Main statement: if no lookup is refused,
there is one verdict for each domain, in the order of the list, on what its lookup published or
on nothing if the lookup ended without an answer; and otherwise the pass breaks off. The audits are
taken up one after the other here. To an audit among others it is as if it were alone on a network
that answers it so, and what is said of one audit is said for every network.
-/

namespace NameserverAudit

-----------------------------------------------------------------------------------------
-- Accepted lists
-----------------------------------------------------------------------------------------

namespace Expected

theorem Denotes.isDomain {entry : Json} {e : Expected} (h : Denotes entry e)
    : Host.isDomain e.domain = true := by
  obtain ⟨raw, ns, ip, -, hostStyle, -⟩ := h
  exact Host.isDomain_of_domain? hostStyle

/-- Accepted entries are about host-style domains, by induction on what they denote. -/
theorem isDomain_of_ofEntries {i : Nat} {entries : List Json} {list : List Expected}
    (h : ofEntries i entries = .ok list)
    : ∀ e ∈ list, Host.isDomain e.domain = true := by
  have denote := ofEntries_eq_ok_iff.1 h
  clear h
  induction denote with
  | nil => simp
  | cons head tail ih => exact List.forall_mem_cons.2 ⟨head.isDomain, ih⟩

theorem isDomain_of_ofJson {v : Json} {list : List Expected} (h : ofJson v = .ok list)
    : ∀ e ∈ list, Host.isDomain e.domain = true := by
  unfold ofJson at h
  split at h
  · exact isDomain_of_ofEntries h
  · cases h

end Expected

-----------------------------------------------------------------------------------------
-- Verdicts on nothing
-----------------------------------------------------------------------------------------

namespace Verdict

/-- The verdict on nothing has the one anomaly that nothing was found out, as soon as an axis
is checked.
-/
theorem flags_failed (e : Expected) (message : String)
    : (Verdict.of e (.failed message)).flags
      = if e.nameservers.isSome || e.addresses.isSome then [.unresolved] else [] := by
  rcases e with ⟨domain, - | names, - | addresses⟩ <;> rfl

/-- The verdict on nothing is a success just if no axis is checked. -/
theorem success_failed (e : Expected) (message : String)
    : (Verdict.of e (.failed message)).success
      = !(e.nameservers.isSome || e.addresses.isSome) := by
  rcases e with ⟨domain, - | names, - | addresses⟩ <;> rfl

end Verdict

-----------------------------------------------------------------------------------------
-- Passes
-----------------------------------------------------------------------------------------

namespace Pass

variable {ε : Type}

/-- The journal of a pass when the domain with a number comes up. -/
def before (lookup : Lookup ε) (workers : Nat) (list : List Expected) (i : Nat) (j : Journal)
    : Journal :=
  (auditAll lookup (list.take i) (j.add (.workers (min workers list.length)))).2

/-- The audits of a list either have all verdicts, each with the journal that the audits before
it left, or the first of them that breaks off does so for the whole list. By induction on the
list.
-/
theorem auditAll_cases (lookup : Lookup ε) (list : List Expected) (j : Journal)
    : (∃ verdicts,
        (auditAll lookup list j).1 = .ok verdicts
        ∧ verdicts.length = list.length
        ∧ ∀ i e, list[i]? = some e →
            ∃ v,
              verdicts[i]? = some v
              ∧ (auditOne lookup e (auditAll lookup (list.take i) j).2).1 = .ok v)
      ∨ ∃ i e fault,
          (auditAll lookup list j).1 = .error fault
          ∧ list[i]? = some e
          ∧ (auditOne lookup e (auditAll lookup (list.take i) j).2).1 = .error fault
          ∧ ∀ earlier < i, ∀ e', list[earlier]? = some e' →
              ∃ v, (auditOne lookup e' (auditAll lookup (list.take earlier) j).2).1 = .ok v := by
  induction list generalizing j with
  | nil => exact .inl ⟨[], rfl, rfl, by simp⟩
  | cons first rest ih =>
      rcases haudit : auditOne lookup first j with ⟨fault | v, k⟩
      · refine .inr ⟨0, first, fault, ?_, rfl, congrArg Prod.fst haudit, by simp⟩
        simp [auditAll, haudit]
      · have hfirst : (auditOne lookup first j).1 = .ok v := congrArg Prod.fst haudit
        rcases ih k with ⟨vs, hvs, hlength, hat⟩ | ⟨i, e, fault, hfault, he, hbreaks, hearlier⟩
        · refine .inl ⟨v :: vs, by simp [auditAll, haudit, hvs], by simp [hlength], ?_⟩
          rintro (_ | i) e he
          · obtain rfl : first = e := by simpa using he
            exact ⟨v, rfl, hfirst⟩
          · obtain ⟨u, hu, hone⟩ := hat i e (by simpa using he)
            exact ⟨u, by simpa using hu, by simpa [auditAll, haudit] using hone⟩
        · refine .inr ⟨i + 1, e, fault, by simp [auditAll, haudit, hfault], by simpa using he,
            by simpa [auditAll, haudit] using hbreaks, ?_⟩
          rintro (_ | earlier) hlt e' he'
          · obtain rfl : first = e' := by simpa using he'
            exact ⟨v, hfirst⟩
          · obtain ⟨u, hu⟩ := hearlier earlier (by omega) e' (by simpa using he')
            exact ⟨u, by simpa [auditAll, haudit] using hu⟩

/-- The verdicts of a pass are those of its audits. -/
theorem run_fst (lookup : Lookup ε) (workers : Nat) (list : List Expected) (j : Journal)
    : (run lookup workers list j).1
      = (auditAll lookup list (j.add (.workers (min workers list.length)))).1 := by
  cases list <;> rfl

-----------------------------------------------------------------------------------------
-- Lookups of a pass
-----------------------------------------------------------------------------------------

/-- The journal with which the lookup for an entry begins, whose number is given. -/
def begun (lookup : Lookup ε) (workers : Nat) (list : List Expected) (i : Nat) (e : Expected)
    (j : Journal) : Journal :=
  (before lookup workers list i j).add (.began e.domain)

variable (w : Walker) (workers : Nat) (list : List Expected) (j : Journal)

/-- The lookup for the entry with a number is refused. -/
def RefusedAt (i : Nat) (refusal : Refusal) : Prop :=
  ∃ e,
    list[i]? = some e
    ∧ (w.resolve true true e.domain (begun w.lookup workers list i e j)).1
      = .error (.refused refusal)

/-- The verdict on an entry with a number is on what its lookup published, or on nothing. The
verdict on nothing has the one anomaly that nothing was found out if an axis is checked, and is
a success if none is.
-/
def Settles (i : Nat) (e : Expected) (verdict : Verdict) : Prop :=
  (∃ p,
    (w.resolve true true e.domain (begun w.lookup workers list i e j)).1 = .ok p
    ∧ verdict = .of e p)
  ∨ ∃ u,
      (w.resolve true true e.domain (begun w.lookup workers list i e j)).1
        = .error (.unresolved u)
      ∧ verdict = .of e (.failed u.message)
      ∧ (e.nameservers.isSome ∨ e.addresses.isSome →
          verdict.flags = [.unresolved] ∧ verdict.success = false)
      ∧ (e.nameservers = none ∧ e.addresses = none →
          verdict.flags = [] ∧ verdict.success = true)

variable {list} {i : Nat} {e : Expected}

/-- An audit has a verdict just if its lookup is not refused, and this verdict settles the entry;
or else it breaks off with the refusal.
-/
theorem auditOne_settles (he : list[i]? = some e)
    : (∃ v,
        (auditOne w.lookup e (before w.lookup workers list i j)).1 = .ok v
        ∧ Settles w workers list j i e v
        ∧ ∀ refusal, ¬RefusedAt w workers list j i refusal)
      ∨ ∃ refusal,
          (auditOne w.lookup e (before w.lookup workers list i j)).1 = .error refusal
          ∧ RefusedAt w workers list j i refusal := by
  have refused {refusal : Refusal} (h : RefusedAt w workers list j i refusal)
      : (w.resolve true true e.domain (begun w.lookup workers list i e j)).1
        = .error (.refused refusal) := by
    obtain ⟨e', he', h⟩ := h
    obtain rfl : e = e' := Option.some.inj (he.symm.trans he')
    exact h
  have audited := auditOne_fst w.lookup e (before w.lookup workers list i j)
  have looked : (w.lookup e.domain (begun w.lookup workers list i e j)).1
      = match (w.resolve true true e.domain (begun w.lookup workers list i e j)).1 with
        | .ok p => .ok p
        | .error (.unresolved u) => .error (.unresolved u.message)
        | .error (.refused refusal) => .error (.refused refusal) := by
    unfold Walker.lookup
    split <;> next heq => rw [heq]
  change (auditOne w.lookup e (before w.lookup workers list i j)).1
    = conclude e (w.lookup e.domain (begun w.lookup workers list i e j)).1 at audited
  rw [looked] at audited
  rcases hres : (w.resolve true true e.domain (begun w.lookup workers list i e j)).1
    with (u | refusal) | p
  all_goals rw [hres] at audited
  · refine .inl ⟨_, audited, .inr ⟨u, hres, rfl, fun h => ?_, fun h => ?_⟩, fun refusal h => ?_⟩
    · have checked : (e.nameservers.isSome || e.addresses.isSome) = true := by simpa using h
      rw [Verdict.flags_failed, Verdict.success_failed, checked]
      exact ⟨rfl, rfl⟩
    · rw [Verdict.flags_failed, Verdict.success_failed, h.1, h.2]
      exact ⟨rfl, rfl⟩
    · cases hres.symm.trans (refused h)
  · exact .inr ⟨refusal, audited, e, he, hres⟩
  · refine .inl ⟨_, audited, .inl ⟨p, hres, rfl⟩, fun refusal h => ?_⟩
    cases hres.symm.trans (refused h)

variable {w workers j}

/-- The lookup for the entry with a number is refused, and none before it is. -/
def FirstRefused (w : Walker) (workers : Nat) (list : List Expected) (j : Journal) (i : Nat)
    (refusal : Refusal) : Prop :=
  RefusedAt w workers list j i refusal
  ∧ ∀ earlier < i, ∀ other, ¬RefusedAt w workers list j earlier other

/-- Neither of two first refusals comes before the other, so they are the same. -/
theorem FirstRefused.unique {i' : Nat} {refusal refusal' : Refusal}
    (h : FirstRefused w workers list j i refusal)
    (h' : FirstRefused w workers list j i' refusal')
    : refusal = refusal' := by
  obtain rfl : i = i' := by
    rcases Nat.lt_trichotomy i i' with hlt | heq | hlt
    · exact absurd h.1 (h'.2 i hlt refusal)
    · exact heq
    · exact absurd h'.1 (h.2 i' hlt refusal')
  obtain ⟨e, he, hrefused⟩ := h.1
  obtain ⟨e', he', hrefused'⟩ := h'.1
  obtain rfl : e = e' := Option.some.inj (he.symm.trans he')
  cases hrefused.symm.trans hrefused'
  rfl

/-- A pass either settles every entry with one verdict, and no lookup in it is refused, or it
breaks off with the first refusal.
-/
theorem run_cases (w : Walker) (workers : Nat) (list : List Expected) (j : Journal)
    : (∃ verdicts,
        (run w.lookup workers list j).1 = .ok verdicts
        ∧ verdicts.length = list.length
        ∧ (∀ i e, list[i]? = some e →
            ∃ verdict, verdicts[i]? = some verdict ∧ Settles w workers list j i e verdict)
        ∧ ∀ i refusal, ¬RefusedAt w workers list j i refusal)
      ∨ ∃ i refusal,
          (run w.lookup workers list j).1 = .error refusal
          ∧ FirstRefused w workers list j i refusal := by
  rw [run_fst]
  rcases auditAll_cases w.lookup list (j.add (.workers (min workers list.length)))
    with ⟨verdicts, hvs, hlength, hat⟩ | ⟨i, e, fault, hfault, he, hbreaks, hearlier⟩
  · have settled (i : Nat) (e : Expected) (he : list[i]? = some e)
        : (∃ verdict, verdicts[i]? = some verdict ∧ Settles w workers list j i e verdict)
          ∧ ∀ refusal, ¬RefusedAt w workers list j i refusal := by
      obtain ⟨verdict, hverdict, haudit⟩ := hat i e he
      rcases auditOne_settles w workers j he
        with ⟨u, hu, hsettles, unrefused⟩ | ⟨refusal, hr, -⟩
      · obtain rfl : verdict = u := Except.ok.inj (haudit.symm.trans hu)
        exact ⟨⟨verdict, hverdict, hsettles⟩, unrefused⟩
      · cases haudit.symm.trans hr
    exact .inl ⟨verdicts, hvs, hlength, fun i e he => (settled i e he).1,
      fun i refusal ⟨e, he, h⟩ => (settled i e he).2 refusal ⟨e, he, h⟩⟩
  · refine .inr ⟨i, fault, hfault, ?_, ?_⟩
    · rcases auditOne_settles w workers j he
        with ⟨u, hu, -, -⟩ | ⟨refusal, hr, hrefused⟩
      · cases hu.symm.trans hbreaks
      · obtain rfl : refusal = fault := Except.error.inj (hr.symm.trans hbreaks)
        exact hrefused
    · rintro earlier hlt other ⟨e', he', h⟩
      obtain ⟨u, hu⟩ := hearlier earlier hlt e' he'
      rcases auditOne_settles w workers j he'
        with ⟨-, -, -, unrefused⟩ | ⟨refusal, hr, -⟩
      · exact unrefused other ⟨e', he', h⟩
      · cases hu.symm.trans hr

/-- A pass over an accepted domain list with known families has verdicts just if no lookup in it
is refused. Then there is one verdict for each entry, in the order of the list, on what its
lookup published, or on nothing if that lookup ended without an answer. Otherwise the pass breaks
off with the first refusal. A lookup is only refused for a payload that no message can announce,
or for an address record of another class that a response brought in this lookup.
-/
theorem run_gives_verdicts_iff_unrefused {v : Json} (accepted : Expected.ofJson v = .ok list)
    (known : AreKnown w.families) (workers : Nat) (j : Journal)
    : ((∃ verdicts, (run w.lookup workers list j).1 = .ok verdicts)
        ↔ ∀ i refusal, ¬RefusedAt w workers list j i refusal)
      ∧ (∀ verdicts, (run w.lookup workers list j).1 = .ok verdicts →
          verdicts.length = list.length
          ∧ ∀ i e, list[i]? = some e →
              ∃ verdict,
                verdicts[i]? = some verdict ∧ Settles w workers list j i e verdict)
      ∧ (∀ refusal, (run w.lookup workers list j).1 = .error refusal
          ↔ ∃ i, FirstRefused w workers list j i refusal)
      ∧ ∀ i e refusal, list[i]? = some e → RefusedAt w workers list j i refusal →
          let start := begun w.lookup workers list i e j
          w.Grounds start.sends (w.resolve true true e.domain start).2.sends refusal
          ∧ (¬w.manner.Fits ∧ refusal = .payload ⟨w.manner.payload⟩
            ∨ ∃ record, refusal = .foreign record) := by
  have grounds (i : Nat) (e : Expected) (refusal : Refusal) (he : list[i]? = some e)
      (h : RefusedAt w workers list j i refusal)
      : let start := begun w.lookup workers list i e j
        w.Grounds start.sends (w.resolve true true e.domain start).2.sends refusal
        ∧ (¬w.manner.Fits ∧ refusal = .payload ⟨w.manner.payload⟩
          ∨ ∃ record, refusal = .foreign record) := by
    obtain ⟨e', he', hrefused⟩ := h
    obtain rfl : e = e' := Option.some.inj (he.symm.trans he')
    have host := Expected.isDomain_of_ofJson accepted e (List.mem_of_getElem? he)
    exact Walker.resolve_refused known host hrefused
  rcases run_cases w workers list j with ⟨verdicts, hvs, hlength, settled, unrefused⟩
    | ⟨i, refusal, hbroken, hfirst⟩
  · refine ⟨⟨fun _ => unrefused, fun _ => ⟨verdicts, hvs⟩⟩, fun vs h => ?_, fun refusal => ?_,
      grounds⟩
    · obtain rfl : verdicts = vs := Except.ok.inj (hvs.symm.trans h)
      exact ⟨hlength, settled⟩
    · constructor
      · intro h
        cases hvs.symm.trans h
      · rintro ⟨i, h, -⟩
        exact absurd h (unrefused i refusal)
  · refine ⟨⟨?_, fun h => absurd hfirst.1 (h i refusal)⟩, fun vs h => ?_, fun other => ?_,
      grounds⟩
    · rintro ⟨vs, h⟩
      cases hbroken.symm.trans h
    · cases hbroken.symm.trans h
    · rw [hbroken, Except.error.injEq]
      constructor
      · rintro rfl
        exact ⟨i, hfirst⟩
      · rintro ⟨i', h⟩
        exact hfirst.unique h

/-- Witness: a pass over two domains, of which one is checked, on the network whose referrals go
round in circles. No lookup is refused there.
-/
theorem circularWalker_gives_all_verdicts
    : let list : List Expected :=
        [⟨"www.example", some (.ofList ["ns.example."]), none⟩,
          ⟨"mail.example", none, none⟩]
      ∃ verdicts,
        (run Walker.circularWalker.lookup 4 list .start).1 = .ok verdicts
        ∧ verdicts.length = list.length
        ∧ ∀ i e, list[i]? = some e →
            ∃ verdict,
              verdicts[i]? = some verdict
              ∧ Settles Walker.circularWalker 4 list .start i e verdict := by
  intro list
  have accepted
      : Expected.ofJson
          (.array [
            .object [
              ("domain_name", .str "www.example"),
              ("ns", .array [.str "NS.Example"])],
            .object [("domain_name", .str "mail.example")]])
        = .ok list :=
    rfl
  have known : AreKnown Walker.circularWalker.families := by
    unfold AreKnown
    decide
  have gives : (run Walker.circularWalker.lookup 4 list .start).1.isOk = true := by
    decide +kernel
  obtain ⟨-, settled, -⟩ := run_gives_verdicts_iff_unrefused accepted known 4 .start
  rcases h : (run Walker.circularWalker.lookup 4 list .start).1 with refusal | verdicts
  · rw [h] at gives
    cases gives
  · exact ⟨verdicts, rfl, settled verdicts h⟩

/-- Counterexample: on the network that brings an address of another class, a pass over an accepted
list of two domains has no verdicts at all, although a pass over the second domain alone has one.
-/
theorem chaosWalker_breaks_off
    : let www : Expected := ⟨"www.example", some (.ofList ["ns.example."]), none⟩
      let mail : Expected := ⟨"mail.example", none, none⟩
      Expected.ofJson
          (.array [
            .object [("domain_name", .str "www.example"), ("ns", .array [.str "NS.Example"])],
            .object [("domain_name", .str "mail.example")]])
        = .ok [www, mail]
      ∧ (run Walker.chaosWalker.lookup 4 [www, mail] .start).1 = .error (.foreign (.number 1))
      ∧ (run Walker.chaosWalker.lookup 4 [mail] .start).1.isOk = true :=
  ⟨rfl, by decide +kernel, by decide +kernel⟩

end Pass

end NameserverAudit
