import NameserverAudit.Proofs.Zone.Covering
import NameserverAudit.Walk.Descent

/-! One step of a walk, server by server. A server of the cut is usable if it answers for the
name or refers to a zone further down with at least one address. Main statements: a step lands
where the first usable server leads, after all servers before it were asked and were unusable;
it ends without an answer just if all servers are unusable, for the cause that the last one
gives; and it is refused just if the first server that is not unusable gives reason for that.
-/

namespace NameserverAudit

-----------------------------------------------------------------------------------------
-- Referrals
-----------------------------------------------------------------------------------------

namespace RecordSet

/-- The record set is of nameservers of a zone that lies strictly below another one and covers
a name.
-/
def LeadsDown (zone name : DomainName) (s : RecordSet) : Prop :=
  (∃ targets, s.content = .nameservers targets)
  ∧ s.owner.IsBelow zone
  ∧ name.isWithin s.owner = true

/-- The referral that a record set makes, if it leads down. -/
def down? (zone name : DomainName) (s : RecordSet) : Option Referral :=
  match s.content with
  | .nameservers targets =>
      if Response.leadsDown zone s.owner name then some ⟨s.owner, targets⟩ else none
  | _ => none

theorem leadsDown_iff {zone name owner : DomainName} {targets : List DomainName}
    : LeadsDown zone name ⟨owner, .nameservers targets⟩
      ↔ Response.leadsDown zone owner name = true := by
  simp only [LeadsDown, Response.leadsDown, DomainName.IsBelow, Bool.and_eq_true,
    Bool.not_eq_true', Content.nameservers.injEq, exists_eq', true_and]
  constructor
  · rintro ⟨⟨within, ne⟩, covers⟩
    exact ⟨⟨ne, within⟩, covers⟩
  · rintro ⟨⟨ne, within⟩, covers⟩
    exact ⟨⟨within, ne⟩, covers⟩

theorem down?_eq_some_iff {zone name : DomainName} {s : RecordSet} {referral : Referral}
    : s.down? zone name = some referral
      ↔ s = ⟨referral.zone, .nameservers referral.targets⟩ ∧ s.LeadsDown zone name := by
  obtain ⟨owner, content⟩ := s
  obtain ⟨child, targets⟩ := referral
  cases content with
  | nameservers targets' =>
      rw [leadsDown_iff]
      by_cases leads : Response.leadsDown zone owner name = true <;> simp [down?, leads]
  | ipv4 _ | ipv6 _ | foreign _ _ | other _ => simp [down?]

theorem down?_eq_none_iff {zone name : DomainName} {s : RecordSet}
    : s.down? zone name = none ↔ ¬s.LeadsDown zone name := by
  obtain ⟨owner, content⟩ := s
  cases content with
  | nameservers targets =>
      rw [leadsDown_iff]
      by_cases leads : Response.leadsDown zone owner name = true <;> simp [down?, leads]
  | ipv4 _ | ipv6 _ | foreign _ _ | other _ => simp [down?, LeadsDown]

end RecordSet

namespace Response

/-- A response without an error refers from a zone down towards a name: the referral is the
first record set in its authority section that leads there.
-/
structure RefersDown (r : Response) (zone name : DomainName) (referral : Referral) : Prop where
  clear : r.rcode = .noError
  leads : RecordSet.LeadsDown zone name ⟨referral.zone, .nameservers referral.targets⟩
  first : ∃ front back,
    r.authority = front ++ ⟨referral.zone, .nameservers referral.targets⟩ :: back
    ∧ ∀ s ∈ front, ¬s.LeadsDown zone name

/-- Record sets are looked through for the first one that leads down, by induction on them. -/
theorem firstDown_eq_findSome? (zone name : DomainName) (sets : List RecordSet)
    : firstDown zone name sets = sets.findSome? (RecordSet.down? zone name) := by
  induction sets with
  | nil => rfl
  | cons s rest ih =>
      obtain ⟨owner, content⟩ := s
      cases content with
      | nameservers targets =>
          by_cases leads : leadsDown zone owner name = true <;>
            simp [firstDown, RecordSet.down?, leads, ih]
      | ipv4 _ | ipv6 _ | foreign _ _ | other _ =>
          simp [firstDown, List.findSome?_cons, RecordSet.down?, ih]

/-- A referral is read off a response just if the response refers down. -/
theorem referral?_eq_some_iff {r : Response} {zone name : DomainName} {referral : Referral}
    : r.referral? zone name = some referral ↔ r.RefersDown zone name referral := by
  unfold referral?
  split
  · next clear =>
    rw [firstDown_eq_findSome?, List.findSome?_eq_some_iff]
    constructor
    · rintro ⟨front, s, back, hsets, hdown, hfront⟩
      obtain ⟨rfl, leads⟩ := RecordSet.down?_eq_some_iff.1 hdown
      exact ⟨clear, leads, front, back, hsets,
        fun s hs => RecordSet.down?_eq_none_iff.1 (hfront s hs)⟩
    · rintro ⟨-, leads, front, back, hsets, hfront⟩
      exact ⟨front, _, back, hsets, RecordSet.down?_eq_some_iff.2 ⟨rfl, leads⟩,
        fun s hs => RecordSet.down?_eq_none_iff.2 (hfront s hs)⟩
  · next unclear =>
    simp only [reduceCtorEq, false_iff]
    exact fun h => unclear h.clear

theorem referral?_eq_none_iff {r : Response} {zone name : DomainName}
    : r.referral? zone name = none ↔ ∀ referral, ¬r.RefersDown zone name referral := by
  simp only [Option.eq_none_iff_forall_ne_some, ne_eq, referral?_eq_some_iff]

end Response

namespace Walker

/-- The cut where a step lands. -/
def Landing.cut : Landing → Cut
  | .arrived cut | .onward cut => cut

variable (w : Walker) (nested : Option Search) (q : Question) (cut : Cut)

-----------------------------------------------------------------------------------------
-- Servers of a cut
-----------------------------------------------------------------------------------------

/-- The server, asked at a point of the history, is of no use at a cut. The cause tells why, and
the last point is where the next server is asked.
-/
inductive Unusable (server : Server) (j : Journal) : Cause → Journal → Prop
  /-- The query fails. -/
  | failed {fault : QueryFault} {k : Journal}
      (asked : w.ask server q .ns j = (.ok (.error fault), k))
      : Unusable server j (.query fault) k
  /-- The response neither answers for the name nor refers further down. -/
  | lame {r : Response} {k : Journal}
      (asked : w.ask server q .ns j = (.ok (.ok r), k))
      (answersNot : r.authoritative = false)
      (refersNot : ∀ referral, ¬r.RefersDown cut.zone q.name referral)
      : Unusable server j (.lame server q.text) k
  /-- No nameserver that the response refers to has an address. -/
  | addressless {r : Response} {m k : Journal} {referral : Referral}
      (asked : w.ask server q .ns j = (.ok (.ok r), m))
      (answersNot : r.authoritative = false)
      (refers : r.RefersDown cut.zone q.name referral)
      (addressless : w.serversOf nested server r referral.targets m = (.ok [], k))
      : Unusable server j (.noAddress server referral.zone.canonicalText) k

/-- The server, asked at a point of the history, is of use at a cut, and leads somewhere. -/
inductive Usable (server : Server) (j : Journal) : Landing → Journal → Prop
  /-- The response answers for the name: so the servers of the cut are those wanted. -/
  | authoritative {r : Response} {k : Journal}
      (asked : w.ask server q .ns j = (.ok (.ok r), k))
      (answers : r.authoritative = true)
      : Usable server j (.arrived cut) k
  /-- The response refers to the name itself: so the nameservers of the name are those wanted. -/
  | delegating {r : Response} {m k : Journal} {referral : Referral} {servers : List Server}
      (asked : w.ask server q .ns j = (.ok (.ok r), m))
      (answersNot : r.authoritative = false)
      (refers : r.RefersDown cut.zone q.name referral)
      (addressed : w.serversOf nested server r referral.targets m = (.ok servers, k))
      (some : servers ≠ [])
      (wanted : referral.zone.canonicalText = q.text)
      : Usable server j (.arrived ⟨referral.zone, w.ledger.ranked servers⟩) k
  /-- The response refers to a zone between the cut and the name. -/
  | referring {r : Response} {m k : Journal} {referral : Referral} {servers : List Server}
      (asked : w.ask server q .ns j = (.ok (.ok r), m))
      (answersNot : r.authoritative = false)
      (refers : r.RefersDown cut.zone q.name referral)
      (addressed : w.serversOf nested server r referral.targets m = (.ok servers, k))
      (some : servers ≠ [])
      (between : referral.zone.canonicalText ≠ q.text)
      : Usable server j (.onward ⟨referral.zone, w.ledger.ranked servers⟩) k

/-- The server cannot be asked, or the servers that it refers to cannot be told: then the step is
refused.
-/
inductive Refused (server : Server) (j : Journal) : Refusal → Journal → Prop
  | asking {k : Journal} {refusal : Refusal}
      (refused : w.ask server q .ns j = (.error refusal, k))
      : Refused server j refusal k
  | referring {r : Response} {m k : Journal} {referral : Referral} {refusal : Refusal}
      (asked : w.ask server q .ns j = (.ok (.ok r), m))
      (answersNot : r.authoritative = false)
      (refers : r.RefersDown cut.zone q.name referral)
      (refused
        : w.serversOf nested server r referral.targets m = (.error refusal, k))
      : Refused server j refusal k

/-- The servers are asked one after the other and are all of no use. -/
inductive AllUnusable : List Server → Journal → Journal → Prop
  | nobody (j : Journal) : AllUnusable [] j j
  | server {server : Server} {rest : List Server} {cause : Cause} {j m k : Journal}
      (first : w.Unusable nested q cut server j cause m) (others : AllUnusable rest m k)
      : AllUnusable (server :: rest) j k

variable {w nested q cut} {server : Server} {rest : List Server} {j k : Journal}

/-- A step passes over an unusable server. -/
theorem Unusable.step_eq {cause : Cause} (h : w.Unusable nested q cut server j cause k)
    (before : Cause)
    : w.step nested q cut before (server :: rest) j = w.step nested q cut cause rest k := by
  rw [step]
  cases h with
  | failed asked => simp only [asked]
  | lame asked answersNot refersNot =>
      simp only [asked, answersNot, Response.referral?_eq_none_iff.2 refersNot, Bool.false_eq_true,
        if_false]
  | addressless asked answersNot refers addressless =>
      simp only [asked, answersNot, Response.referral?_eq_some_iff.2 refers, Bool.false_eq_true,
        if_false, addressless]

/-- A step ends at a usable server. -/
theorem Usable.step_eq {landing : Landing} (h : w.Usable nested q cut server j landing k)
    (before : Cause)
    : w.step nested q cut before (server :: rest) j = (.ok landing, k) := by
  rw [step]
  cases h with
  | authoritative asked answers => simp only [asked, answers, if_true]
  | delegating asked answersNot refers addressed some wanted =>
      simp only [asked, answersNot, Response.referral?_eq_some_iff.2 refers, Bool.false_eq_true,
        if_false, addressed]
      simp [wanted]
  | referring asked answersNot refers addressed some between =>
      simp only [asked, answersNot, Response.referral?_eq_some_iff.2 refers, Bool.false_eq_true,
        if_false, addressed]
      simp [between]

theorem Refused.step_eq {refusal : Refusal} (h : w.Refused nested q cut server j refusal k)
    (before : Cause)
    : w.step nested q cut before (server :: rest) j = (.error (.refused refusal), k) := by
  rw [step]
  cases h with
  | asking refused => simp only [refused]
  | referring asked answersNot refers refused =>
      simp only [asked, answersNot, Response.referral?_eq_some_iff.2 refers, refused,
        Bool.false_eq_true, if_false]

/-- A server is unusable or usable, unless the step is refused at it. -/
theorem server_cases (w : Walker) (nested : Option Search) (q : Question) (cut : Cut)
    (server : Server) (j : Journal)
    : (∃ cause k, w.Unusable nested q cut server j cause k)
      ∨ (∃ landing k, w.Usable nested q cut server j landing k)
      ∨ ∃ refusal k, w.Refused nested q cut server j refusal k := by
  rcases asked : w.ask server q .ns j with ⟨refusal | fault | r, m⟩
  · exact .inr (.inr ⟨_, _, .asking asked⟩)
  · exact .inl ⟨_, _, .failed asked⟩
  cases answers : r.authoritative with
  | true => exact .inr (.inl ⟨_, _, .authoritative asked answers⟩)
  | false =>
      cases hreferral : r.referral? cut.zone q.name with
      | none =>
          exact .inl ⟨_, _, .lame asked answers (Response.referral?_eq_none_iff.1 hreferral)⟩
      | some referral =>
          have refers := Response.referral?_eq_some_iff.1 hreferral
          rcases found : w.serversOf nested server r referral.targets m
            with ⟨refusal | servers, k⟩
          · exact .inr (.inr ⟨_, _, .referring asked answers refers found⟩)
          by_cases some : servers = []
          · subst some
            exact .inl ⟨_, _, .addressless asked answers refers found⟩
          by_cases wanted : referral.zone.canonicalText = q.text
          · exact .inr (.inl ⟨_, _, .delegating asked answers refers found some wanted⟩)
          · exact .inr (.inl ⟨_, _, .referring asked answers refers found some wanted⟩)

-----------------------------------------------------------------------------------------
-- One step
-----------------------------------------------------------------------------------------

/-- A step passes over unusable servers, by induction on them. -/
theorem AllUnusable.step_eq {front : List Server} (h : w.AllUnusable nested q cut front j k)
    (before : Cause)
    : ∃ cause, w.step nested q cut before (front ++ rest) j = w.step nested q cut cause rest k := by
  induction h generalizing before with
  | nobody j => exact ⟨before, rfl⟩
  | server first _ ih =>
      obtain ⟨cause, hcause⟩ := ih _
      exact ⟨cause, (first.step_eq before).trans hcause⟩

/-- A step lands where the first usable server leads, past all servers before it. By induction
on the servers.
-/
theorem step_eq_ok_iff {before : Cause} {servers : List Server} {landing : Landing}
    : w.step nested q cut before servers j = (.ok landing, k)
      ↔ ∃ front server rest m,
          servers = front ++ server :: rest
          ∧ w.AllUnusable nested q cut front j m
          ∧ w.Usable nested q cut server m landing k := by
  constructor
  · intro h
    induction servers generalizing before j with
    | nil => simp [step] at h
    | cons server rest ih =>
        rcases server_cases w nested q cut server j
          with ⟨cause, m, unusable⟩ | ⟨landing', k', usable⟩ | ⟨refusal, k', refused⟩
        · rw [unusable.step_eq] at h
          obtain ⟨front, server', rest', m', rfl, others, usable⟩ := ih h
          exact ⟨server :: front, server', rest', m', rfl, .server unusable others, usable⟩
        · rw [usable.step_eq] at h
          cases h
          exact ⟨[], server, rest, j, rfl, .nobody j, usable⟩
        · rw [refused.step_eq] at h
          cases h
  · rintro ⟨front, server, rest, m, rfl, unusable, usable⟩
    obtain ⟨cause, hcause⟩ := unusable.step_eq before
    rw [hcause, usable.step_eq]

/-- A step ends without an answer just if all servers are unusable: at its cut, and for the
cause that the last server gives. By induction on the servers.
-/
theorem step_eq_unresolved_iff {before : Cause} {servers : List Server} {u : Unresolved}
    (some : servers ≠ [])
    : w.step nested q cut before servers j = (.error (.unresolved u), k)
      ↔ u.stage = .zone cut.zone
        ∧ ∃ front last m,
            servers = front ++ [last]
            ∧ w.AllUnusable nested q cut front j m
            ∧ w.Unusable nested q cut last m u.cause k := by
  constructor
  · intro h
    induction servers generalizing before j with
    | nil => exact absurd rfl some
    | cons server rest ih =>
        rcases server_cases w nested q cut server j
          with ⟨cause, m, unusable⟩ | ⟨landing', k', usable⟩ | ⟨refusal, k', refused⟩
        · rw [unusable.step_eq] at h
          by_cases more : rest = []
          · subst more
            rw [step] at h
            cases h
            exact ⟨rfl, [], server, j, rfl, .nobody j, unusable⟩
          · obtain ⟨stage, front, last, m', rfl, others, hlast⟩ := ih more h
            exact ⟨stage, server :: front, last, m', rfl, .server unusable others, hlast⟩
        · rw [usable.step_eq] at h
          cases h
        · rw [refused.step_eq] at h
          cases h
  · obtain ⟨stage, reason⟩ := u
    rintro ⟨rfl, front, last, m, rfl, unusable, hlast⟩
    obtain ⟨cause, hcause⟩ := unusable.step_eq before
    rw [hcause, hlast.step_eq, step]

/-- A step is refused at a server just if that is so when all servers before it are unusable. By
induction on the servers.
-/
theorem step_eq_refused_iff {before : Cause} {servers : List Server} {refusal : Refusal}
    : w.step nested q cut before servers j = (.error (.refused refusal), k)
      ↔ ∃ front server rest m,
          servers = front ++ server :: rest
          ∧ w.AllUnusable nested q cut front j m
          ∧ w.Refused nested q cut server m refusal k := by
  constructor
  · intro h
    induction servers generalizing before j with
    | nil => simp [step] at h
    | cons server rest ih =>
        rcases server_cases w nested q cut server j
          with ⟨cause, m, unusable⟩ | ⟨landing', k', usable⟩ | ⟨refusal', k', refused⟩
        · rw [unusable.step_eq] at h
          obtain ⟨front, server', rest', m', rfl, others, refused⟩ := ih h
          exact ⟨server :: front, server', rest', m', rfl, .server unusable others, refused⟩
        · rw [usable.step_eq] at h
          cases h
        · rw [refused.step_eq] at h
          cases h
          exact ⟨[], server, rest, j, rfl, .nobody j, refused⟩
  · rintro ⟨front, server, rest, m, rfl, unusable, refused⟩
    obtain ⟨cause, hcause⟩ := unusable.step_eq before
    rw [hcause, refused.step_eq]

end Walker

end NameserverAudit
