import NameserverAudit.Proofs.Walk.Refusal
import NameserverAudit.Proofs.Walk.Responses
import NameserverAudit.Proofs.Walk.Steady
import NameserverAudit.Proofs.Zone.Covering
import NameserverAudit.Proofs.Zone.Delegations

/-! Starting at a known delegation and asking the root. If the root servers refer to the
delegation just as the directory knows it, the step from the root leads to a cut with the same
servers as the delegation gives, and from there on both walks ask the same. Main statement: both
lookups have the same end, also where a record without an address breaks them off.
-/

namespace NameserverAudit

-----------------------------------------------------------------------------------------
-- Responses that refer to a delegation
-----------------------------------------------------------------------------------------

/-- The addresses of a record set as they stand in zone text. -/
def Content.presentations : Content → List String
  | .ipv4 xs => xs.map fun a => (Address.v4 a).presentation
  | .ipv6 xs => xs.map fun a => (Address.v6 a none).presentation
  | _ => []

/-- The addresses of a record set as they stand in zone text, each with its owner. -/
def RecordSet.pairs (s : RecordSet) : List (String × String) :=
  s.content.presentations.map (Prod.mk s.owner.canonicalText)

namespace Response

/-- The response refers to a delegation: it is neither an error nor authoritative, it names the
nameservers of the zone and those of no other, and it brings all the glue, in the same order,
and no address records of another class.
-/
structure RefersTo (r : Response) (d : Zone.Delegation) : Prop where
  rcode : r.rcode = .noError
  authoritative : r.authoritative = false
  authority : ∃ owner targets,
    r.authority = [⟨owner, .nameservers targets⟩]
    ∧ owner.canonicalText = d.zone
    ∧ targets.map DomainName.canonicalText = d.nameservers
  additional : r.additional.flatMap RecordSet.pairs = d.pairs
  legible : Response.firstForeign r.additional = none

end Response

/-- What a record set presents in canonical form are its addresses. -/
theorem Content.presentations_of_canonical {c : Content}
    (canonical : ∀ a ∈ c.presentations, canonicalAddress a = .ok a)
    : c.presentations = c.addresses := by
  cases c with
  | nameservers targets | foreign family records | other type => rfl
  | ipv4 xs => rfl
  | ipv6 xs =>
      refine List.map_congr_left fun x hx => ?_
      exact (Address.text_of_canonicalAddress (canonical _ (List.mem_map_of_mem hx))).symm

/-- What a record set presents is of the family of the set. -/
theorem Content.familyOf_of_mem_presentations {c : Content} {a : String}
    (h : a ∈ c.presentations)
    : Response.familyOf c = some (Zone.Delegation.familyOf a) := by
  cases c with
  | nameservers targets | foreign family records | other type => simp [presentations] at h
  | ipv4 xs =>
      obtain ⟨x, -, rfl⟩ := List.mem_map.1 h
      rw [Zone.Delegation.familyOf_eq ⟨_, rfl, rfl⟩]
      rfl
  | ipv6 xs =>
      obtain ⟨x, -, rfl⟩ := List.mem_map.1 h
      rw [Zone.Delegation.familyOf_eq ⟨_, rfl, rfl⟩]
      rfl

namespace Response

variable {r : Response} (wants : Family → Bool) (ns : String)

/-- If all glue is in canonical form, the glue for a nameserver is what stands beside its name,
of the wanted families: a record set has addresses of one family alone. By induction on the
record sets.
-/
theorem glueFor_of_canonical
    (canonical : ∀ s ∈ r.additional, ∀ a ∈ s.content.presentations, canonicalAddress a = .ok a)
    : r.glueFor wants ns
      = ((r.additional.flatMap RecordSet.pairs).filter fun pair =>
          wants (Zone.Delegation.familyOf pair.2) && pair.1 = ns).map Prod.snd := by
  unfold glueFor
  generalize r.additional = sets at canonical ⊢
  induction sets with
  | nil => rfl
  | cons s rest ih =>
      have hone (a : String) (ha : a ∈ s.content.presentations)
          : (wants (Zone.Delegation.familyOf a) && s.owner.canonicalText = ns)
            = (((familyOf s.content).map wants).getD false && s.owner.canonicalText = ns) := by
        rw [Content.familyOf_of_mem_presentations ha]
        rfl
      have hset : (s.pairs.filter fun pair =>
            wants (Zone.Delegation.familyOf pair.2) && pair.1 = ns).map Prod.snd
          = s.content.addresses.filter fun _ =>
              ((familyOf s.content).map wants).getD false && s.owner.canonicalText = ns := by
        rw [← Content.presentations_of_canonical (canonical s (by simp)),
          ← List.filter_congr hone, RecordSet.pairs, List.filter_map, List.map_map]
        exact List.map_id _
      rw [List.flatMap_cons, List.filter_append, List.map_append, hset,
        ← ih fun t ht => canonical t (List.mem_cons_of_mem s ht), List.filter_cons]
      cases ((familyOf s.content).map wants).getD false && decide (s.owner.canonicalText = ns)
      · simp
      · simp

/-- The glue of a response that refers to a delegation is the glue of the delegation. -/
theorem RefersTo.glueFor {d : Zone.Delegation} (refers : r.RefersTo d) (proper : d.Proper)
    (canonical : ∀ entry ∈ d.glue, ∀ a ∈ entry.2, canonicalAddress a = .ok a)
    : r.glueFor wants ns
      = (d.glueOf ns).filter fun a => wants (Zone.Delegation.familyOf a) := by
  rw [glueFor_of_canonical wants ns, refers.additional,
    Zone.Delegation.glueOf_eq_pairs proper.owners, List.filter_map, List.filter_filter]
  · rfl
  · intro s hs a ha
    have hpair : (s.owner.canonicalText, a) ∈ d.pairs := by
      rw [← refers.additional]
      exact List.mem_flatMap.2 ⟨s, hs, List.mem_map_of_mem ha⟩
    obtain ⟨entry, he, hpair⟩ := List.mem_flatMap.1 hpair
    obtain ⟨b, hb, heq⟩ := List.mem_map.1 hpair
    obtain rfl : b = a := congrArg Prod.snd heq
    exact canonical entry he b hb

end Response

namespace Walker

variable {w : Walker} {nested : Option Search} {q : Question} {d : Zone.Delegation}

-----------------------------------------------------------------------------------------
-- The step from the root
-----------------------------------------------------------------------------------------

/-- New servers that are all different are put at the end, by induction on them. -/
theorem addServers_of_nodup {out new : List Server} (h : (out ++ new).Nodup)
    : addServers out new = out ++ new := by
  induction new generalizing out with
  | nil => simp [addServers]
  | cons s rest ih =>
      have hnew : s ∉ out := fun hs =>
        (List.nodup_append.1 h).2.2 s hs s (by simp) rfl
      have hrest : (out ++ [s] ++ rest).Nodup := by simpa using h
      rw [addServers, if_neg (by simpa using hnew), ih hrest]
      simp

/-- The servers that the glue of a response makes of nameservers. -/
def gluedServers (w : Walker) (r : Response) (targets : List DomainName) : List Server :=
  targets.flatMap fun t =>
    (r.glueFor w.wants t.canonicalText).map (Server.mk t.canonicalText)

/-- If all nameservers have glue, the servers that they make are those of the glue, and nobody
is asked. By induction on the nameservers.
-/
theorem referredServers_of_glued {contacted : Server} {r : Response} {out : List Server}
    {targets : List DomainName}
    (glued : ∀ t ∈ targets, r.glueFor w.wants t.canonicalText ≠ [])
    (nodup : (out ++ w.gluedServers r targets).Nodup) (j : Journal)
    : w.referredServers nested contacted r out targets j
      = (.ok (out ++ w.gluedServers r targets), j) := by
  induction targets generalizing out with
  | nil => simp [referredServers, gluedServers]
  | cons t rest ih =>
      have hfound : w.addressesFor nested contacted r (.ofName t) j
          = (.ok (r.glueFor w.wants t.canonicalText), j) := by
        unfold addressesFor
        split
        · next hnone => exact absurd hnone (glued t (by simp))
        · rfl
      have hcons : out ++ w.gluedServers r (t :: rest)
          = out ++ (r.glueFor w.wants t.canonicalText).map (Server.mk t.canonicalText)
            ++ w.gluedServers r rest := by
        simp [gluedServers]
      rw [hcons] at nodup ⊢
      have hadd := addServers_of_nodup (List.nodup_append.1 nodup).1
      rw [← ih (fun t ht => glued t (List.mem_cons_of_mem _ ht)) nodup, ← hadd]
      simp only [referredServers, hfound]
      rfl

theorem gluedServers_of_refersTo {r : Response} {targets : List DomainName}
    (refers : r.RefersTo d) (names : targets.map DomainName.canonicalText = d.nameservers)
    (proper : d.Proper) (glued : d.Glued w.families)
    : w.gluedServers r targets = d.servers w.families := by
  rw [gluedServers, Zone.Delegation.servers, ← names, List.flatMap_map]
  refine List.flatMap_congr fun t _ => ?_
  rw [refers.glueFor w.wants t.canonicalText proper glued.canonical]
  rfl

/-- A response that refers to a delegation leads to the servers of the delegation. -/
theorem serversOf_of_refersTo (nested : Option Search) (contacted : Server)
    {r : Response} {targets : List DomainName} (refers : r.RefersTo d)
    (names : targets.map DomainName.canonicalText = d.nameservers) (proper : d.Proper)
    (glued : d.Glued w.families) (j : Journal)
    : w.serversOf nested contacted r targets j = (.ok (d.servers w.families), j) := by
  have hservers := gluedServers_of_refersTo refers names proper glued
  have hnodup : ([] ++ w.gluedServers r targets).Nodup := by
    rw [List.nil_append, hservers]
    exact proper.servers_nodup w.families
  simp only [serversOf, refers.legible]
  rw [← hservers, ← List.nil_append (w.gluedServers r targets)]
  refine referredServers_of_glued (fun t ht => ?_) hnodup j
  obtain ⟨a, ha, hwanted⟩ := glued.wanted t.canonicalText (names ▸ List.mem_map_of_mem ht)
  rw [refers.glueFor w.wants t.canonicalText proper glued.canonical]
  exact List.ne_nil_of_mem (List.mem_filter.2 ⟨ha, by simpa [wants]⟩)

/-- A response that refers to a delegation refers from the root towards all names below the
zone, by the name of the zone in some spelling.
-/
theorem referral_of_refersTo {r : Response} {name : DomainName} (refers : r.RefersTo d)
    (proper : d.Proper) (below : name.IsBelow d.name)
    : ∃ owner targets,
        r.referral? .root name = some ⟨owner, targets⟩
        ∧ owner.canonicalText = d.zone
        ∧ targets.map DomainName.canonicalText = d.nameservers := by
  obtain ⟨owner, targets, hauthority, howner, hnames⟩ := refers.authority
  refine ⟨owner, targets, ?_, howner, hnames⟩
  have hfolded : owner.folded = d.name.folded := DomainName.folded_of_canonicalText howner
  have hroot : owner.same .root = false := by
    rw [Bool.eq_false_iff, ne_eq, DomainName.same_iff, hfolded]
    exact fun h => proper.notRoot (DomainName.canonicalText_of_folded_nil h)
  have hwithin : name.isWithin owner = true := by
    rw [DomainName.isWithin_iff, hfolded, ← DomainName.isWithin_iff]
    exact below.1
  rw [Response.referral?, if_pos refers.rcode, hauthority]
  simp [Response.firstDown, Response.leadsDown, hroot, hwithin, owner.isWithin_root]

/-- The step from the root, if the first server refers to a delegation, leads to the servers of
the delegation.
-/
theorem step_of_refersTo (nested : Option Search) {text : String}
    (asks : Question.ofText text = .ok q) (below : q.name.IsBelow d.name) (proper : d.Proper)
    (glued : d.Glued w.families) {server : Server} (rest : List Server) {r : Response}
    {j k : Journal}
    (answers : w.ask server q .ns j = (.ok (.ok r), k)) (refers : r.RefersTo d)
    : ∃ owner,
        owner.canonicalText = d.zone
        ∧ w.step nested q ⟨.root, server :: rest⟩ .nobody (server :: rest) j
          = (.ok (.onward ⟨owner, w.ledger.ranked (d.servers w.families)⟩), k) := by
  obtain ⟨owner, targets, hreferral, howner, hnames⟩ := referral_of_refersTo refers proper below
  refine ⟨owner, howner, ?_⟩
  have hreferred := serversOf_of_refersTo nested server refers hnames proper glued k
  have hchild : owner.canonicalText ≠ q.text :=
    howner ▸ Question.text_ne_of_isBelow asks below
  obtain ⟨first, more, hservers⟩ := List.exists_cons_of_ne_nil (glued.servers_ne_nil proper)
  rw [hservers] at hreferred
  simp [step, answers, refers.authoritative, hreferral, hreferred, hservers, hchild]

theorem descend_of_step {steps : Nat} {cut next : Cut} {j k : Journal}
    (h : w.step nested q cut .nobody cut.servers j = (.ok (.onward next), k))
    : w.descend nested q (steps + 1) cut j = w.descend nested q steps next k := by
  simp only [descend, h]

-----------------------------------------------------------------------------------------
-- Cuts whose zones are spelled differently
-----------------------------------------------------------------------------------------

/-- The ends of two walks or lookups are the same: both are answers, which are related, or both
tell of the same stage and the same cause, or both were refused for the same reason.
-/
inductive SameEnd {α : Type} (related : α → α → Prop)
    : Except WalkFault α → Except WalkFault α → Prop
  | answered {a a' : α} (same : related a a') : SameEnd related (.ok a) (.ok a')
  | unresolved {u u' : Unresolved} (stage : u.stage.text = u'.stage.text)
    (cause : u.cause = u'.cause)
    : SameEnd related (.error (.unresolved u)) (.error (.unresolved u'))
  | refused (refusal : Refusal)
    : SameEnd related (.error (.refused refusal)) (.error (.refused refusal))

theorem SameEnd.refl {α : Type} {related : α → α → Prop} (hrefl : ∀ a, related a a)
    (result : Except WalkFault α)
    : SameEnd related result result := by
  rcases result with (u | refusal) | a
  · exact .unresolved rfl rfl
  · exact .refused refusal
  · exact .answered (hrefl a)

/-- The cuts have the same servers, and zones with the same canonical text. -/
structure Respelled (cut cut' : Cut) : Prop where
  zone : cut.zone.canonicalText = cut'.zone.canonicalText
  servers : cut.servers = cut'.servers

/-- The landings are at cuts with the same servers; only an end may be at cuts of different
spelling.
-/
inductive Landing.Respelled : Landing → Landing → Prop
  | arrived {cut cut' : Cut} (same : Walker.Respelled cut cut')
    : Respelled (.arrived cut) (.arrived cut')
  | onward (cut : Cut) : Respelled (.onward cut) (.onward cut)

/-- A referral does not depend on the spelling of the zone it leads down from. -/
theorem referral_respelled {zone zone' : DomainName}
    (h : zone.canonicalText = zone'.canonicalText) (r : Response) (name : DomainName)
    : r.referral? zone name = r.referral? zone' name := by
  have hfolded := DomainName.folded_of_canonicalText h
  have hdown (child : DomainName)
      : Response.leadsDown zone child name = Response.leadsDown zone' child name := by
    simp only [Response.leadsDown, DomainName.same, DomainName.isWithin, hfolded]
  unfold Response.referral?
  split
  · induction r.authority with
    | nil => rfl
    | cons s rest ih => simp only [Response.firstDown, hdown, ih]
  · rfl

/-- Steps from cuts that differ in spelling end alike, with the same journal: a referral does
not depend on the spelling. By induction on the servers that are asked.
-/
theorem step_respelled (w : Walker) (nested : Option Search) (q : Question) {cut cut' : Cut}
    (same : Respelled cut cut') (cause : Cause) (servers : List Server) (j : Journal)
    : (w.step nested q cut cause servers j).2 = (w.step nested q cut' cause servers j).2
      ∧ SameEnd Landing.Respelled (w.step nested q cut cause servers j).1
          (w.step nested q cut' cause servers j).1 := by
  induction servers generalizing cause j with
  | nil => exact ⟨rfl, .unresolved same.zone rfl⟩
  | cons server rest ih =>
      simp only [step, referral_respelled same.zone]
      rcases w.ask server q .ns j with ⟨refusal | fault | r, k⟩
      · exact ⟨rfl, .refused refusal⟩
      · exact ih _ _
      · dsimp only
        split
        · exact ⟨rfl, .answered (.arrived same)⟩
        · split
          · exact ih _ _
          · next referral _ =>
            rcases w.serversOf nested server r referral.targets k
              with ⟨refusal | ⟨⟩ | ⟨s, found⟩, k⟩
            · exact ⟨rfl, .refused refusal⟩
            · exact ih _ _
            · refine ⟨rfl, .answered ?_⟩
              split
              · exact .arrived ⟨rfl, rfl⟩
              · exact .onward _

/-- Descents from cuts that differ in spelling end at cuts with the same servers: the first
step leads both to one cut.
-/
theorem descend_respelled {cut cut' : Cut} (same : Respelled cut cut') (steps : Nat)
    (j : Journal)
    : SameEnd Respelled (w.descend nested q steps cut j).1
        (w.descend nested q steps cut' j).1 := by
  cases steps with
  | zero => exact .unresolved same.zone rfl
  | succ steps =>
      have hstep := step_respelled w nested q same .nobody cut.servers j
      rcases hfirst : w.step nested q cut .nobody cut.servers j with ⟨landing, k⟩
      rcases hsecond : w.step nested q cut' .nobody cut.servers j with ⟨landing', k'⟩
      rw [hfirst, hsecond] at hstep
      obtain ⟨rfl, hlanding⟩ := hstep
      rw [same.servers] at hfirst hsecond
      simp only [descend, same.servers, hfirst, hsecond]
      cases hlanding with
      | unresolved stage cause => exact .unresolved stage cause
      | refused refusal => exact .refused refusal
      | answered hlanding =>
          cases hlanding with
          | arrived same => exact .answered same
          | onward next => exact .refl (fun _ => ⟨rfl, rfl⟩) _

-----------------------------------------------------------------------------------------
-- Both ways to start
-----------------------------------------------------------------------------------------

/-- Lookups by walkers that ask the same network in the same manner have the same end, if their
walks end at cuts with the same servers.
-/
theorem resolve_of_walks {w' : Walker} (like : w.AsksLike w') (here : w'.network = w.network)
    (steady : w.network.Steady)
    {domain : String} (asks : Question.ofText (canonicalName domain) = .ok q)
    {j j' : Journal}
    (walks : SameEnd Respelled (w.walk w.maxDepth q j).1 (w'.walk w'.maxDepth q j').1)
    (nameservers addresses : Bool)
    : SameEnd (· = ·) (w.resolve nameservers addresses domain j).1
        (w'.resolve nameservers addresses domain j').1 := by
  simp only [resolve, asks]
  rcases hwalk : w.walk w.maxDepth q j with ⟨landed, k⟩
  rcases hwalk' : w'.walk w'.maxDepth q j' with ⟨landed', k'⟩
  rw [hwalk, hwalk'] at walks
  cases walks with
  | unresolved stage cause => exact .unresolved stage cause
  | refused refusal => exact .refused refusal
  | @answered cut cut' same =>
      have agrees : w.network.Agrees w'.network k k' := by
        rw [here]
        exact steady.agrees k k'
      have hcollect := collect_alike like agrees q same.servers.symm
        (wantedTypes nameservers addresses)
      dsimp only
      rw [← hcollect.1]
      exact .refl (fun _ => rfl) _

/-- The walker that starts at the root and may take one step more than a given number, without
nested walks.
-/
def fromRoot (w : Walker) (steps : Nat) : Walker :=
  { w with useDelegations := false, maxSteps := steps + 1, maxDepth := 0 }

/-- The walker that starts at the delegations it knows and may take a given number of steps,
without nested walks.
-/
def fromDelegation (w : Walker) (steps : Nat) : Walker :=
  { w with useDelegations := true, maxSteps := steps, maxDepth := 0 }

theorem fromRoot_startCut {roots : List Server} {name : String}
    (rooted : w.directory.servers w.families = .ok roots) (present : roots ≠ []) (steps : Nat)
    : (w.fromRoot steps).startCut name = .ok ⟨.root, w.ledger.ranked roots⟩ := by
  obtain ⟨first, more, rfl⟩ := List.exists_cons_of_ne_nil present
  simp [startCut, rootCut, fromRoot, rooted]

theorem fromDelegation_startCut {name : String}
    (covered : w.directory.delegationFor name = some d) (present : d.servers w.families ≠ [])
    (steps : Nat)
    : (w.fromDelegation steps).startCut name
      = .ok ⟨d.name, w.ledger.ranked (d.servers w.families)⟩ := by
  obtain ⟨first, more, hservers⟩ := List.exists_cons_of_ne_nil present
  simp [startCut, fromDelegation, covered, hservers]

/-- On a steady network whose root servers refer to a delegation, the walk from the root stands
after its first step at the servers of the delegation.
-/
theorem walk_fromRoot {text : String} {roots : List Server} (steady : w.network.Steady)
    (asks : Question.ofText text = .ok q) (below : q.name.IsBelow d.name) (proper : d.Proper)
    (glued : d.Glued w.families) (rooted : w.directory.servers w.families = .ok roots)
    (present : roots ≠ [])
    (refers : ∀ s ∈ roots, ∃ r, (w.ask s q .ns .start).1 = .ok (.ok r) ∧ r.RefersTo d)
    (steps : Nat) (j : Journal)
    : ∃ owner k,
        owner.canonicalText = d.zone
        ∧ (w.fromRoot steps).walk 0 q j
          = (w.fromRoot steps).descend none q steps
              ⟨owner, w.ledger.ranked (d.servers w.families)⟩ k := by
  -- The root servers stand in some order of preference, and the first one is asked.
  obtain ⟨server, rest, hranked⟩ : ∃ server rest, w.ledger.ranked roots = server :: rest :=
    List.exists_cons_of_ne_nil fun h =>
      present (h ▸ w.ledger.ranked_perm roots).nil_eq.symm
  have hmem : server ∈ roots := Ledger.mem_ranked.1 (hranked ▸ List.mem_cons_self)
  obtain ⟨r, hr, hrefers⟩ := refers server hmem
  have halike := AsksLike.ask (.refl w) (steady.agrees .start j) q server .ns
  have hasked : w.ask server q .ns j = (.ok (.ok r), (w.ask server q .ns j).2) :=
    Prod.ext (halike.1 ▸ hr) rfl
  obtain ⟨owner, howner, hstep⟩ :=
    step_of_refersTo (w := w.fromRoot steps) none asks below proper glued rest hasked hrefers
  refine ⟨owner, (w.ask server q .ns j).2, howner, ?_⟩
  simp only [walk, walkWith, fromRoot_startCut rooted present, hranked]
  exact descend_of_step hstep

theorem walk_fromDelegation (covered : w.directory.delegationFor q.text = some d)
    (present : d.servers w.families ≠ []) (steps : Nat) (j : Journal)
    : (w.fromDelegation steps).walk 0 q j
      = (w.fromDelegation steps).descend none q steps
          ⟨d.name, w.ledger.ranked (d.servers w.families)⟩ j := by
  simp only [walk, walkWith, fromDelegation_startCut covered present]
  rfl

/-- A lookup that starts at a known delegation has the same end as one that starts at the root
and may take one step more, on a steady network whose root servers refer to the delegation as
the directory knows it: the same published data, or no answer for the same cause at the same
stage. The name lies strictly below the delegation that covers it, and all nameservers of the
delegation have canonical glue of the families that are asked.
-/
theorem resolve_from_delegation_agrees {w : Walker} {reader : Zone.Reader}
    {source text domain : String} {q : Question}
    {d : Zone.Delegation} {roots : List Server}
    (read : (Zone.Directory.ofTextBy reader source text).directory = .ok w.directory)
    (steady : w.network.Steady) (asks : Question.ofText (canonicalName domain) = .ok q)
    (covered : w.directory.delegationFor q.text = some d) (below : q.name.IsBelow d.name)
    (glued : d.Glued w.families) (rooted : w.directory.servers w.families = .ok roots)
    (present : roots ≠ [])
    (refers : ∀ s ∈ roots, ∃ r, (w.ask s q .ns .start).1 = .ok (.ok r) ∧ r.RefersTo d)
    (nameservers addresses : Bool) (steps : Nat) (j j' : Journal)
    : SameEnd (· = ·) ((w.fromRoot steps).resolve nameservers addresses domain j).1
        ((w.fromDelegation steps).resolve nameservers addresses domain j').1 := by
  have proper : d.Proper :=
    Zone.Directory.read_proper read d (Zone.Directory.mem_of_covering covered)
  have like : (w.fromRoot steps).AsksLike (w.fromDelegation steps) := ⟨rfl, rfl, rfl⟩
  obtain ⟨owner, k, howner, hroot⟩ :=
    walk_fromRoot steady asks below proper glued rooted present refers steps j
  have hdelegation :=
    walk_fromDelegation (w := w) covered (glued.servers_ne_nil proper) steps j'
  have same : Respelled ⟨owner, w.ledger.ranked (d.servers w.families)⟩
      ⟨d.name, w.ledger.ranked (d.servers w.families)⟩ :=
    ⟨howner, rfl⟩
  have alike := descend_alike_of_agrees like (steady.agrees k j') q .none steps
    ⟨d.name, w.ledger.ranked (d.servers w.families)⟩
  have walks : SameEnd Respelled ((w.fromRoot steps).walk 0 q j).1
      ((w.fromDelegation steps).walk 0 q j').1 := by
    rw [hroot, hdelegation, ← alike.1]
    exact descend_respelled same steps k
  exact resolve_of_walks like rfl steady asks walks nameservers addresses

/-- A delegation with glue of both families. -/
def exampleDelegation : Zone.Delegation :=
  ⟨.written "example.", ["ns.example."], [("ns.example.", ["192.0.2.2", "2001:db8::2"])]⟩

/-- A response that refers to that delegation, by its name in another spelling. -/
def exampleReferral : Response :=
  { Response.blank with
    authority := [⟨.written "Example.", .nameservers [.written "ns.example."]⟩]
    additional := [
      ⟨.written "ns.example.", .ipv4 [⟨[192, 0, 2, 2], rfl⟩]⟩,
      ⟨.written "ns.example.", .ipv6 [⟨[0x2001, 0xdb8, 0, 0, 0, 0, 0, 2], rfl⟩]⟩] }

/-- A walker that knows the delegation, on a network where the root server refers to it and its
nameserver publishes an address.
-/
def delegatedWalker : Walker :=
  let route (server type : String) (r : Response) : Route :=
    ⟨.udp, server, "www.example.", type, [⟨.zero, .response r⟩]⟩
  let published (answer : List RecordSet) : Response :=
    { Response.blank with authoritative := true, answer }
  { directory := ⟨[⟨"a.root.", .ofList ["192.0.2.1"], .empty⟩], [exampleDelegation]⟩
    ledger := .empty
    network := Network.ofRoutes [
      route "192.0.2.1" "NS" exampleReferral,
      route "192.0.2.2" "NS" (published []),
      route "192.0.2.2" "A"
        (published [⟨.written "www.example.", .ipv4 [⟨[192, 0, 2, 81], rfl⟩]⟩])]
    manner := .standard
    families := [.known .ipv4]
    useDelegations := true
    maxSteps := 16
    maxDepth := 3 }

theorem exampleReferral_refersTo : exampleReferral.RefersTo exampleDelegation where
  rcode := rfl
  authoritative := rfl
  authority := ⟨_, _, rfl, by decide +kernel, by decide +kernel⟩
  additional := by decide +kernel
  legible := rfl

/-- Witness: both ways to start, with one step below the delegation. -/
theorem delegatedWalker_agrees
    : SameEnd (· = ·) ((delegatedWalker.fromRoot 1).resolve true true "www.example" .start).1
        ((delegatedWalker.fromDelegation 1).resolve true true "www.example" .start).1 := by
  have read
      : (Zone.Directory.ofText ""
          (". NS a.root.\na.root. A 192.0.2.1\nexample. NS ns.example.\n"
            ++ "ns.example. A 192.0.2.2\nns.example. AAAA 2001:db8::2\n")).directory
        = .ok delegatedWalker.directory := by
    decide +kernel
  have steady : delegatedWalker.network.Steady := Network.steady_ofRoutes (by simp)
  have asks : Question.ofText (canonicalName "www.example")
      = .ok ⟨"www.example.", .written "www.example."⟩ := by
    decide +kernel
  have covered : delegatedWalker.directory.delegationFor "www.example."
      = some exampleDelegation := by
    decide +kernel
  have below : (DomainName.written "www.example.").IsBelow (.written "example.") := by
    unfold DomainName.IsBelow
    decide
  have glued : exampleDelegation.Glued delegatedWalker.families :=
    ⟨by decide +kernel, by decide +kernel⟩
  have rooted : delegatedWalker.directory.servers delegatedWalker.families
      = .ok [⟨"a.root.", "192.0.2.1"⟩] := by
    decide +kernel
  have refers : ∀ s ∈ [(⟨"a.root.", "192.0.2.1"⟩ : Server)], ∃ r,
      (delegatedWalker.ask s ⟨"www.example.", .written "www.example."⟩ .ns .start).1
        = .ok (.ok r)
      ∧ r.RefersTo exampleDelegation := by
    intro s hs
    rw [List.mem_singleton.1 hs]
    exact ⟨exampleReferral, by decide +kernel, exampleReferral_refersTo⟩
  exact resolve_from_delegation_agrees read steady asks covered below glued rooted (by simp)
    refers true true 1 .start .start

example
    : ((delegatedWalker.fromRoot 1).resolve true true "www.example" .start).1.toOption
      = some ⟨.empty, .ofList ["192.0.2.81"], true, true, none⟩ := by
  decide +kernel

end Walker

end NameserverAudit
