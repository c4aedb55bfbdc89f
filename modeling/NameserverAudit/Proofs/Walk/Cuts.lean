import NameserverAudit.Proofs.Walk.Asking
import NameserverAudit.Proofs.Walk.Start
import NameserverAudit.Proofs.Walk.Step

/-! The cuts at which a walk stands. Each lies strictly below the one before it and contains
the name, so there are at most as many as the name has labels, and one for the root. Main
statement: a walk that may take that many steps never takes too many, whatever comes back.
-/

namespace NameserverAudit

open Text

/-- The wording of a cause tells whether the walk took too many steps: any other wording is
another fixed text, or has a character that this one has not.
-/
theorem Cause.message_eq_loop {cause : Cause} (h : cause.message = "referral loop")
    : cause = .loop := by
  have lacks (c : Char) (hc : c ∉ "referral loop".toList) : c ∉ cause.message.toList := by
    rwa [h]
  cases cause with
  | loop => rfl
  | noRoots | nobody | noAuthority =>
      unfold message at h
      exact absurd h (by decide)
  | query fault =>
      refine absurd ?_ (lacks '/' (by decide))
      unfold message QueryFault.message
      simp only [String.toList_append, List.mem_append, toString]
      simp
  | lame server name =>
      refine absurd ?_ (lacks 'm' (by decide))
      unfold message
      simp only [String.toList_append, List.mem_append, toString]
      simp
  | noAddress server child =>
      refine absurd ?_ (lacks 'd' (by decide))
      unfold message
      simp only [String.toList_append, List.mem_append, toString]
      simp
  | notAuthoritative server name =>
      refine absurd ?_ (lacks 's' (by decide))
      unfold message
      simp only [String.toList_append, List.mem_append, toString]
      simp

namespace Walker

variable {w : Walker} {nested : Option Search} {q : Question}

-----------------------------------------------------------------------------------------
-- One step
-----------------------------------------------------------------------------------------

/-- A step that gets anywhere stays at an authoritative cut, or leads to a zone strictly below
the cut that contains the name.
-/
theorem step_leads_down {cut : Cut} {cause : Cause} {servers : List Server} {j : Journal}
    {landing : Landing} (h : (w.step nested q cut cause servers j).1 = .ok landing)
    : landing = .arrived cut
      ∨ ∃ next : Cut,
          (landing = .arrived next ∨ landing = .onward next)
          ∧ next.zone.IsBelow cut.zone
          ∧ q.name.isWithin next.zone = true := by
  obtain ⟨_, _, _, _, -, -, usable⟩ := step_eq_ok_iff.1 (Prod.ext h rfl)
  cases usable with
  | authoritative _ _ => exact .inl rfl
  | delegating _ _ refers _ _ _ => exact .inr ⟨_, .inl rfl, refers.leads.2⟩
  | referring _ _ refers _ _ _ => exact .inr ⟨_, .inr rfl, refers.leads.2⟩

/-- A step never tells of too many steps: it ends at its cut, for a reason that one of the
servers gives.
-/
theorem step_cause_ne_loop {cut : Cut} {cause : Cause} {servers : List Server} {j : Journal}
    {u : Unresolved} (hcause : cause ≠ .loop)
    (h : (w.step nested q cut cause servers j).1 = .error (.unresolved u))
    : u.stage = .zone cut.zone ∧ u.cause ≠ .loop := by
  cases servers with
  | nil =>
      simp only [step, Except.error.injEq, WalkFault.unresolved.injEq] at h
      exact h ▸ ⟨rfl, hcause⟩
  | cons server rest =>
      obtain ⟨stage, _, _, _, -, -, unusable⟩ :=
        (step_eq_unresolved_iff (by simp)).1 (Prod.ext h rfl)
      refine ⟨stage, fun loop => ?_⟩
      rw [loop] at unusable
      cases unusable

-----------------------------------------------------------------------------------------
-- All steps of a walk
-----------------------------------------------------------------------------------------

/-- The cuts at which a descent of so many steps stands, from its first one on. A step that
stays at an authoritative cut leads to no other.
-/
def visited (w : Walker) (nested : Option Search) (q : Question)
    : Nat → Cut → Journal → List Cut
  | 0, cut, _ => [cut]
  | steps + 1, cut, j =>
      match w.step nested q cut .nobody cut.servers j with
      | (.error _, _) => [cut]
      | (.ok (.arrived next), _) => if next = cut then [cut] else [cut, next]
      | (.ok (.onward next), j) => cut :: w.visited nested q steps next j

/-- The searches that are nested in a walk of a depth. -/
def nestedAt (w : Walker) : Nat → Option Search
  | 0 => none
  | depth + 1 => some (w.walk depth)

/-- The cuts at which the walk to a name stands, from the start on. -/
def cuts (w : Walker) (depth : Nat) (q : Question) (j : Journal) : List Cut :=
  match w.startCut q.text with
  | .error _ => []
  | .ok cut => w.visited (w.nestedAt depth) q w.maxSteps cut j

theorem walk_eq (w : Walker) (depth : Nat) : w.walk depth = w.walkWith (w.nestedAt depth) := by
  cases depth <;> rfl

/-- A descent stands at its first cut, and then at cuts below it that contain the name. By
induction on the steps.
-/
theorem visited_descends (w : Walker) (nested : Option Search) (q : Question) (steps : Nat)
    (cut : Cut) (j : Journal)
    : ∃ rest,
        w.visited nested q steps cut j = cut :: rest
        ∧ (∀ next ∈ rest, next.zone.IsBelow cut.zone ∧ q.name.isWithin next.zone = true)
        ∧ rest.Pairwise (fun above below => below.zone.IsBelow above.zone) := by
  induction steps generalizing cut j with
  | zero => exact ⟨[], rfl, by simp, .nil⟩
  | succ steps ih =>
      rcases hstep : w.step nested q cut .nobody cut.servers j with ⟨fault | landing, j'⟩
      · exact ⟨[], by simp [visited, hstep], by simp, .nil⟩
      have hlands := step_leads_down (by rw [hstep])
      cases landing with
      | arrived next =>
          by_cases hstays : next = cut
          · exact ⟨[], by simp [visited, hstep, hstays], by simp, .nil⟩
          · refine ⟨[next], by simp [visited, hstep, hstays], ?_, by simp⟩
            rcases hlands with hlands | ⟨below, hlands | hlands, hdown⟩
            · exact absurd (Landing.arrived.inj hlands) hstays
            · rw [Landing.arrived.inj hlands]
              simpa using hdown
            · cases hlands
      | onward next =>
          obtain ⟨rest, hrest, hbelow, hpairwise⟩ := ih next j'
          have hdown : next.zone.IsBelow cut.zone ∧ q.name.isWithin next.zone = true := by
            rcases hlands with hlands | ⟨below, hlands | hlands, hdown⟩
            · cases hlands
            · cases hlands
            · rwa [Landing.onward.inj hlands]
          refine ⟨next :: rest, by simp [visited, hstep, hrest], ?_, ?_⟩
          · intro further hf
            rcases List.mem_cons.1 hf with rfl | hf
            · exact hdown
            · exact ⟨(hbelow further hf).1.trans hdown.1, (hbelow further hf).2⟩
          · exact List.pairwise_cons.2 ⟨fun further hf => (hbelow further hf).1, hpairwise⟩

/-- Cuts below one another that contain a name are no more than the name has labels, and one
for the root: the number of labels grows from cut to cut. By induction on the cuts.
-/
theorem length_le_of_descends {name : DomainName} {cut : Cut} {rest : List Cut}
    (hname : name.isWithin cut.zone = true)
    (hbelow : ∀ next ∈ rest, next.zone.IsBelow cut.zone ∧ name.isWithin next.zone = true)
    (hpairwise : rest.Pairwise (fun above below => below.zone.IsBelow above.zone))
    : (cut :: rest).length + cut.zone.labels.length ≤ name.labels.length + 1 := by
  induction rest generalizing cut with
  | nil =>
      have := DomainName.labels_le_of_isWithin hname
      simp only [List.length_cons, List.length_nil]
      omega
  | cons next rest ih =>
      obtain ⟨hfirst, hwithin⟩ := hbelow next (by simp)
      obtain ⟨hnext, hrest⟩ := List.pairwise_cons.1 hpairwise
      have hmore := ih hwithin
        (fun c hc => ⟨hnext c hc, (hbelow c (List.mem_cons_of_mem next hc)).2⟩) hrest
      have := hfirst.labels_lt
      simp only [List.length_cons] at hmore ⊢
      omega

/-- A descent ends at the last cut where it stands, with an answer or without one, and it has
taken too many steps only if it stands at one cut more than it may take steps. By induction on
the steps.
-/
theorem descend_ends (w : Walker) (nested : Option Search) (q : Question) (steps : Nat)
    (cut : Cut) (j : Journal)
    : (∀ last, (w.descend nested q steps cut j).1 = .ok last →
        (w.visited nested q steps cut j).getLast? = some last)
      ∧ ∀ u, (w.descend nested q steps cut j).1 = .error (.unresolved u) →
          (∃ last,
            (w.visited nested q steps cut j).getLast? = some last
            ∧ u.stage = .zone last.zone)
          ∧ (u.cause = .loop → (w.visited nested q steps cut j).length = steps + 1) := by
  induction steps generalizing cut j with
  | zero =>
      refine ⟨by simp [descend], ?_⟩
      intro u hu
      simp only [descend, Except.error.injEq, WalkFault.unresolved.injEq] at hu
      subst hu
      exact ⟨⟨cut, rfl, rfl⟩, fun _ => rfl⟩
  | succ steps ih =>
      rcases hstep : w.step nested q cut .nobody cut.servers j with ⟨fault | landing, j'⟩
      · have hvisited : w.visited nested q (steps + 1) cut j = [cut] := by
          simp [visited, hstep]
        simp only [descend, hstep, hvisited]
        refine ⟨by simp, ?_⟩
        intro u hu
        simp only [Except.error.injEq] at hu
        subst hu
        obtain ⟨hstage, hcause⟩ := step_cause_ne_loop (by simp) (congrArg Prod.fst hstep)
        exact ⟨⟨cut, rfl, hstage⟩, fun h => absurd h hcause⟩
      cases landing with
      | arrived next =>
          have hvisited : (w.visited nested q (steps + 1) cut j).getLast? = some next := by
            by_cases hstays : next = cut <;> simp [visited, hstep, hstays]
          simp only [descend, hstep, hvisited]
          exact ⟨by simp, by simp⟩
      | onward next =>
          obtain ⟨rest, hrest, -, -⟩ := visited_descends w nested q steps next j'
          have hvisited : w.visited nested q (steps + 1) cut j
              = cut :: w.visited nested q steps next j' := by
            simp [visited, hstep]
          have hlast : (w.visited nested q (steps + 1) cut j).getLast?
              = (w.visited nested q steps next j').getLast? := by
            rw [hvisited, hrest, List.getLast?_cons_cons]
          have hdescend : w.descend nested q (steps + 1) cut j
              = w.descend nested q steps next j' := by
            simp [descend, hstep]
          rw [hdescend, hlast, hvisited]
          refine ⟨(ih next j').1, ?_⟩
          intro u hu
          obtain ⟨hend, hloop⟩ := (ih next j').2 u hu
          exact ⟨hend, fun h => by rw [List.length_cons, hloop h]⟩

-----------------------------------------------------------------------------------------
-- Walks that end at a cut
-----------------------------------------------------------------------------------------

/-- A usable server was asked, so a message can announce the payload. -/
theorem Usable.fits {cut : Cut} {server : Server} {landing : Landing} {j k : Journal}
    (h : w.Usable nested q cut server j landing k)
    : w.manner.Fits := by
  by_contra misfit
  have refused := w.ask_of_not_fits server q .ns j misfit
  cases h with
  | authoritative asked _ | delegating asked _ _ _ _ _ | referring asked _ _ _ _ _ =>
      cases refused.symm.trans asked

/-- A walk that ends at a cut has asked a usable server at its first one. -/
theorem fits_of_walk {depth : Nat} {last : Cut} {j : Journal}
    (h : (w.walk depth q j).1 = .ok last)
    : w.manner.Fits := by
  rw [walk_eq] at h
  unfold walkWith at h
  split at h
  · cases h
  · next cut _ =>
    cases hsteps : w.maxSteps with
    | zero =>
        rw [hsteps] at h
        cases h
    | succ steps =>
        rw [hsteps] at h
        rcases hstep : w.step (w.nestedAt depth) q cut .nobody cut.servers j
          with ⟨fault | landing, k⟩
        · simp [descend, hstep] at h
        · obtain ⟨_, _, _, _, -, -, usable⟩ := step_eq_ok_iff.1 hstep
          exact usable.fits

-----------------------------------------------------------------------------------------
-- Referrals cannot go round in circles
-----------------------------------------------------------------------------------------

/-- The cuts of a walk to a name of plain text all contain the name, and each lies strictly
below those before it; so no more referrals are followed than the name has labels. The walk
ends at the last of its cuts, and if it may take one step more than that, it never ends because
it took too many, whatever comes back.
-/
theorem cuts_descend_to_name (w : Walker) {domain : String} {q : Question}
    (plain : DomainName.IsPlain domain.toList)
    (asks : Question.ofText (canonicalName domain) = .ok q) (depth : Nat) (j : Journal)
    : (∀ cut ∈ w.cuts depth q j, q.name.isWithin cut.zone = true)
      ∧ (w.cuts depth q j).Pairwise (fun above below => below.zone.IsBelow above.zone)
      ∧ (w.cuts depth q j).length ≤ q.name.labels.length + 1
      ∧ (∀ cut, (w.walk depth q j).1 = .ok cut → (w.cuts depth q j).getLast? = some cut)
      ∧ (q.name.labels.length + 1 ≤ w.maxSteps →
          ∀ u, (w.walk depth q j).1 = .error (.unresolved u) →
            u.cause.message ≠ "referral loop") := by
  obtain ⟨hplain, hcanonical⟩ := DomainName.canonicalName_plain plain
  have hq : q.text = canonicalName domain
      ∧ DomainName.ofText (canonicalName domain) = .ok q.name := by
    unfold Question.ofText at asks
    split at asks
    · next n hn =>
      rw [← Except.ok.inj asks]
      exact ⟨rfl, hn⟩
    · cases asks
  rw [walk_eq]
  unfold cuts walkWith
  rcases hstart : w.startCut q.text with fault | cut
  · refine ⟨by simp, .nil, by simp, by simp, ?_⟩
    intro _ u hu hloop
    have hcause := startCut_cause (hstart.trans hu)
    rw [Cause.message_eq_loop hloop] at hcause
    cases hcause
  have hwithin : q.name.isWithin cut.zone = true :=
    isWithin_startCut hplain hcanonical hq.2 (hq.1 ▸ hstart)
  obtain ⟨rest, hvisited, hbelow, hpairwise⟩ :=
    visited_descends w (w.nestedAt depth) q w.maxSteps cut j
  have hlength := length_le_of_descends hwithin hbelow hpairwise
  obtain ⟨hok, herror⟩ :=
    descend_ends w (w.nestedAt depth) q w.maxSteps cut j
  dsimp only
  refine ⟨?_, ?_, ?_, hok, fun hsteps u hu hloop => ?_⟩
  · rw [hvisited]
    intro c hc
    rcases List.mem_cons.1 hc with rfl | hc
    · exact hwithin
    · exact (hbelow c hc).2
  · rw [hvisited]
    exact List.pairwise_cons.2 ⟨fun c hc => (hbelow c hc).1, hpairwise⟩
  · rw [hvisited]
    omega
  · have hmany := (herror u hu).2 (Cause.message_eq_loop hloop)
    rw [hvisited] at hmany
    omega

/-- A walker on a network where every server refers everybody to the zone `example.` and its
nameserver `ns.example.`, without an address.
-/
def circularWalker : Walker :=
  let refer : Response :=
    { authoritative := false
      truncated := false
      rcode := .noError
      answer := []
      authority :=
        [⟨DomainName.written "example.", .nameservers [DomainName.written "ns.example."]⟩]
      additional := [] }
  { directory := ⟨[⟨"a.root.", .ofList ["192.0.2.1"], .empty⟩], []⟩
    ledger := .empty
    network := fun _ _ => ⟨.zero, .response refer⟩
    manner := .standard
    families := [.known .ipv4, .known .ipv6]
    useDelegations := true
    maxSteps := 3
    maxDepth := 2 }

theorem circularWalker_cuts_descend
    : let q : Question := ⟨"www.example.", DomainName.written "www.example."⟩
      (∀ cut ∈ circularWalker.cuts 2 q .start, q.name.isWithin cut.zone = true)
      ∧ (circularWalker.cuts 2 q .start).Pairwise
          (fun above below => below.zone.IsBelow above.zone)
      ∧ (circularWalker.cuts 2 q .start).length ≤ q.name.labels.length + 1
      ∧ (∀ cut, (circularWalker.walk 2 q .start).1 = .ok cut →
          (circularWalker.cuts 2 q .start).getLast? = some cut)
      ∧ (q.name.labels.length + 1 ≤ circularWalker.maxSteps →
          ∀ u, (circularWalker.walk 2 q .start).1 = .error (.unresolved u) →
            u.cause.message ≠ "referral loop") :=
  have plain : DomainName.IsPlain "www.example".toList := by
    have hall : "www.example".toList.all (fun c => c.toNat < 0x80 && c ≠ '\\') = true := by
      decide
    intro c hc
    simpa using List.all_eq_true.1 hall c hc
  cuts_descend_to_name circularWalker plain rfl 2 .start

end Walker

end NameserverAudit
