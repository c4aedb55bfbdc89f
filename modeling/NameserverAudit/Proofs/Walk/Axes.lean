import NameserverAudit.Proofs.Walk.Collection
import NameserverAudit.Proofs.Walk.Cuts
import NameserverAudit.Proofs.Walk.Refusal
import NameserverAudit.Proofs.Walk.Steady

/-! Lookups of one axis. Main statement: on a steady network a lookup that leaves an axis out has
a result just if the lookup of both axes has one with the other axis answered, and then it is
that result without the axis that was left out; only a lookup of both axes can be refused for an
address record of another class when that of the nameservers has a result. A walk that fails ends
all of them alike.
-/

namespace NameserverAudit

namespace Published

/-- What is published, as far as nameservers go. -/
def onlyNameservers (p : Published) : Published :=
  { p with addresses := .empty, addressesAnswered := false }

/-- What is published, as far as addresses go. -/
def onlyAddresses (p : Published) : Published :=
  { p with nameservers := .empty, nameserversAnswered := false }

end Published

namespace Walker

variable {w : Walker} {q : Question} {cut : Cut}

-----------------------------------------------------------------------------------------
-- The walk to a domain
-----------------------------------------------------------------------------------------

/-- The walk to a domain: what is asked about it, and the cut whose servers are then asked. -/
def walkTo (w : Walker) (domain : String) (j : Journal)
    : Except WalkFault (Question × Cut) × Journal :=
  let text := canonicalName domain
  match Question.ofText text with
  | .ok q =>
      match w.walk w.maxDepth q j with
      | (.error fault, j) => (.error fault, j)
      | (.ok cut, j) => (.ok (q, cut), j)
  | .error fault =>
      match w.startCut text with
      | .error f => (.error f, j)
      | .ok cut =>
          if w.maxSteps = 0 then (.error (.unresolved ⟨.zone cut.zone, .loop⟩), j)
          else (.error (.refused (.badName fault)), j)

/-- A lookup is a walk, and a collection at the cut where it ends. -/
theorem resolve_eq (w : Walker) (nameservers addresses : Bool) (domain : String) (j : Journal)
    : w.resolve nameservers addresses domain j
      = match w.walkTo domain j with
        | (.error fault, k) => (.error fault, k)
        | (.ok (q, cut), k) => w.collect q cut (wantedTypes nameservers addresses) k := by
  rcases hq : Question.ofText (canonicalName domain) with fault | q
  · rcases hstart : w.startCut (canonicalName domain) with f | cut
    · simp only [resolve, walkTo, hq, hstart]
    · by_cases hsteps : w.maxSteps = 0 <;>
        simp only [resolve, walkTo, hq, hstart, hsteps, if_true, if_false]
  · rcases hwalk : w.walk w.maxDepth q j with ⟨fault | cut, k⟩ <;>
      simp only [resolve, walkTo, hq, hwalk]

/-- On a steady network a walk ends at the same cut, whatever was done before. -/
theorem walkTo_steady (steady : w.network.Steady) (domain : String) (j j' : Journal)
    : (w.walkTo domain j).1 = (w.walkTo domain j').1 := by
  unfold walkTo
  dsimp only
  split
  · next q _ =>
    obtain ⟨landed, k, k', hk, hk', -⟩ :=
      (w.walk_alike w.network w.maxDepth q j j' (steady.agrees j j')).split
    have hk' : w.walk w.maxDepth q j' = (landed, k') := hk'
    rw [hk, hk']
    cases landed <;> rfl
  · split
    · rfl
    · split <;> rfl

theorem fits_of_walkTo {domain : String} {j : Journal}
    (h : (w.walkTo domain j).1 = .ok (q, cut))
    : w.manner.Fits := by
  unfold walkTo at h
  dsimp only at h
  split at h
  · next q' _ =>
    rcases hwalk : w.walk w.maxDepth q' j with ⟨fault | last, k⟩
    all_goals rw [hwalk] at h
    · cases h
    · exact fits_of_walk (congrArg Prod.fst hwalk)
  · split at h
    · cases h
    · split at h <;> cases h

theorem resolve_of_walk_error {fault : WalkFault} {domain : String} {j : Journal}
    (h : (w.walkTo domain j).1 = .error fault) (nameservers addresses : Bool)
    : (w.resolve nameservers addresses domain j).1 = .error fault := by
  rw [resolve_eq]
  rcases hwalk : w.walkTo domain j with ⟨fault' | landed, k⟩
  all_goals
    rw [hwalk] at h
    cases h
  rfl

theorem resolve_of_walk_ok {cut : Cut} {domain : String} {j : Journal}
    (h : (w.walkTo domain j).1 = .ok (q, cut)) (nameservers addresses : Bool)
    : ∃ k, w.resolve nameservers addresses domain j
        = w.collect q cut (wantedTypes nameservers addresses) k := by
  rw [resolve_eq]
  rcases hwalk : w.walkTo domain j with ⟨fault | landed, k⟩
  all_goals
    rw [hwalk] at h
    cases h
  exact ⟨k, rfl⟩

-----------------------------------------------------------------------------------------
-- Collecting for one axis
-----------------------------------------------------------------------------------------

section Parts

theorem ns_ne_address : RecordType.ns ≠ .a ∧ RecordType.ns ≠ .aaaa := by decide

variable {p : Published}

/-- The union of the answers to all types, as far as nameservers go, is that of the answers
about nameservers.
-/
theorem IsUnion.onlyNameservers (h : w.IsUnion q cut (wantedTypes true true) p)
    : w.IsUnion q cut (wantedTypes true false) p.onlyNameservers := by
  constructor
  case nameservers =>
    exact fun x => by simp [Published.onlyNameservers, h.nameservers, wantedTypes]
  case addresses =>
    exact fun x => by simp [Published.onlyNameservers, wantedTypes, ns_ne_address]
  case nameserversAnswered =>
    simp [Published.onlyNameservers, h.nameserversAnswered, wantedTypes]
  case addressesAnswered => simp [Published.onlyNameservers, wantedTypes, ns_ne_address]
  case error => exact h.error

/-- The union of the answers to all types, as far as addresses go, is that of the answers about
addresses.
-/
theorem IsUnion.onlyAddresses (h : w.IsUnion q cut (wantedTypes true true) p)
    : w.IsUnion q cut (wantedTypes false true) p.onlyAddresses := by
  constructor
  case nameservers =>
    exact fun x => by simp [Published.onlyAddresses, wantedTypes, ns_ne_address]
  case addresses =>
    exact fun x => by simp [Published.onlyAddresses, h.addresses, wantedTypes, ns_ne_address]
  case nameserversAnswered => simp [Published.onlyAddresses, wantedTypes, ns_ne_address]
  case addressesAnswered =>
    simp [Published.onlyAddresses, h.addressesAnswered, wantedTypes, ns_ne_address]
  case error => exact h.error

theorem IsUnion.nameserversAnswered_iff (h : w.IsUnion q cut (wantedTypes true true) p)
    : p.nameserversAnswered = true ↔ w.SomeAnswer q cut (wantedTypes true false) := by
  simp [h.nameserversAnswered, wantedTypes, SomeAnswer]

theorem IsUnion.addressesAnswered_iff (h : w.IsUnion q cut (wantedTypes true true) p)
    : p.addressesAnswered = true ↔ w.SomeAnswer q cut (wantedTypes false true) := by
  simp [h.addressesAnswered, wantedTypes, SomeAnswer, ns_ne_address]

/-- Addresses are not read off the answers about nameservers. -/
theorem legible_nameservers (w : Walker) (q : Question) (cut : Cut)
    : w.Legible q cut (wantedTypes true false) := by
  intro type htype r _
  obtain rfl : type = .ns := by simpa [wantedTypes] using htype
  cases hforeign : r.foreignOf .ns with
  | none => rfl
  | some record =>
      obtain ⟨s, hs, foreign⟩ := List.exists_of_findSome?_eq_some hforeign
      have hns := of_decide_eq_true (List.mem_filter.1 hs).2
      rcases Content.type_of_foreign? foreign with ha | ha
      · exact absurd (hns.symm.trans ha) ns_ne_address.1
      · exact absurd (hns.symm.trans ha) ns_ne_address.2

/-- If addresses can be read off the answers about addresses, they can be read off all. -/
theorem legible_addresses_iff
    : w.Legible q cut (wantedTypes false true) ↔ w.Legible q cut (wantedTypes true true) := by
  have names := legible_nameservers w q cut
  simp only [Legible, wantedTypes, List.nil_append, List.singleton_append, Bool.false_eq_true,
    if_true, if_false, List.append_nil, List.forall_mem_cons] at names ⊢
  exact ⟨fun h => ⟨names.1, h⟩, And.right⟩

variable {part whole : List RecordType} {answered : Published → Bool}
  {restrict : Published → Published}

/-- On a steady network, if addresses can be read off all answers, a collection of some types has
a result just if the one of all types has one that answers them, and then it is the part of it
that is about them.
-/
theorem collect_part (fits : w.manner.Fits) (steady : w.network.Steady) (nonempty : part ≠ [])
    (within : part ⊆ whole) (legible : w.Legible q cut part ↔ w.Legible q cut whole)
    (union : ∀ {p}, w.IsUnion q cut whole p → w.IsUnion q cut part (restrict p))
    (answers : ∀ {p}, w.IsUnion q cut whole p →
      (answered p = true ↔ w.SomeAnswer q cut part))
    (j k : Journal) (p : Published)
    : (w.collect q cut part j).1 = .ok p
      ↔ ∃ full,
          (w.collect q cut whole k).1 = .ok full
          ∧ answered full = true
          ∧ p = restrict full := by
  simp only [collect_eq_ok_iff fits steady]
  constructor
  · rintro ⟨readable, some, isUnion⟩
    obtain ⟨type, htype, r, hr⟩ := some.resolve_left nonempty
    obtain ⟨full, -, isUnion'⟩ := (collect_outcome (q := q) fits steady cut whole k).1
      (legible.1 readable) (.inr ⟨type, within htype, r, hr⟩)
    exact ⟨full, ⟨legible.1 readable, .inr ⟨type, within htype, r, hr⟩, isUnion'⟩,
      (answers isUnion').2 some, (union isUnion').unique isUnion⟩
  · rintro ⟨full, ⟨readable, -, isUnion⟩, hanswered, rfl⟩
    exact ⟨legible.2 readable, (answers isUnion).1 hanswered, union isUnion⟩

end Parts

-----------------------------------------------------------------------------------------
-- Whole lookups
-----------------------------------------------------------------------------------------

/-- On a steady network, if the walk fails, a lookup of both axes and those of one axis alone all
fail with its fault. If it succeeds, a lookup of the addresses alone has a result just if the
lookup of both axes has a result with the addresses answered, and then it is this result without
the nameservers. In the same way a lookup of the nameservers alone leaves out the addresses,
unless the lookup of both axes is refused; this is so just for an address record of another
class, and then the lookup of the addresses alone is refused too. The lookups may be made at
different times.
-/
theorem resolve_of_one_axis {w : Walker} (steady : w.network.Steady) (domain : String)
    (j jn ja : Journal)
    : (∀ fault, (w.walkTo domain j).1 = .error fault →
        (w.resolve true true domain j).1 = .error fault
        ∧ (w.resolve true false domain jn).1 = .error fault
        ∧ (w.resolve false true domain ja).1 = .error fault)
      ∧ (∀ p,
          (w.resolve false true domain ja).1 = .ok p
          ↔ (∃ landed, (w.walkTo domain j).1 = .ok landed)
            ∧ ∃ full,
                (w.resolve true true domain j).1 = .ok full
                ∧ full.addressesAnswered = true
                ∧ p = full.onlyAddresses)
      ∧ ((∀ p,
            (w.resolve true false domain jn).1 = .ok p
            ↔ (∃ landed, (w.walkTo domain j).1 = .ok landed)
              ∧ ∃ full,
                  (w.resolve true true domain j).1 = .ok full
                  ∧ full.nameserversAnswered = true
                  ∧ p = full.onlyNameservers)
          ∨ ∃ record record',
              (w.resolve true true domain j).1 = .error (.refused (.foreign record))
              ∧ (w.resolve false true domain ja).1 = .error (.refused (.foreign record'))) := by
  have hn := walkTo_steady steady domain jn j
  have ha := walkTo_steady steady domain ja j
  rcases hwalk : (w.walkTo domain j).1 with fault | ⟨q, cut⟩
  · have all := resolve_of_walk_error hwalk
    have alln := resolve_of_walk_error (hn.trans hwalk)
    have alla := resolve_of_walk_error (ha.trans hwalk)
    exact ⟨by simp [all, alln, alla], by simp [alla], .inl (by simp [alln])⟩
  · have fits := fits_of_walkTo hwalk
    obtain ⟨k, hfull⟩ := resolve_of_walk_ok hwalk true true
    obtain ⟨kn, hnames⟩ := resolve_of_walk_ok (hn.trans hwalk) true false
    obtain ⟨ka, haddresses⟩ := resolve_of_walk_ok (ha.trans hwalk) false true
    rw [hfull, hnames, haddresses]
    refine ⟨fun fault h => (by cases h), fun p => ?_, ?_⟩
    · rw [collect_part fits steady (by simp [wantedTypes]) (by simp [wantedTypes])
        legible_addresses_iff IsUnion.onlyAddresses IsUnion.addressesAnswered_iff ka k]
      simp
    by_cases legible : w.Legible q cut (wantedTypes true true)
    · refine .inl fun p => ?_
      rw [collect_part fits steady (by simp [wantedTypes]) (by simp [wantedTypes])
        (iff_of_true (legible_nameservers w q cut) legible) IsUnion.onlyNameservers
        IsUnion.nameserversAnswered_iff kn k]
      simp
    · obtain ⟨-, -, refused⟩ := collect_outcome (q := q) fits steady cut (wantedTypes true true) k
      obtain ⟨-, -, refused'⟩ :=
        collect_outcome (q := q) fits steady cut (wantedTypes false true) ka
      obtain ⟨record, hrecord⟩ := refused legible
      obtain ⟨record', hrecord'⟩ := refused' (mt legible_addresses_iff.1 legible)
      exact .inr ⟨record, record', hrecord, hrecord'⟩

/-- A walker on a network where the root server publishes a nameserver and an IPv4 address of
`www.example.`, of `mail.example.` the nameserver alone, and of `chaos.example.` the nameserver and
an address of the class Chaos.
-/
def halfWalker : Walker :=
  let route (name type : String) (content : Content) : Route :=
    ⟨.udp, "192.0.2.1", name, type,
      [⟨.zero,
        .response
          { Response.blank with
            authoritative := true
            answer := [⟨.written name, content⟩] }⟩]⟩
  { directory := ⟨[⟨"a.root.", .ofList ["192.0.2.1"], .empty⟩], []⟩
    ledger := .empty
    network := Network.ofRoutes [
      route "www.example." "NS" (.nameservers [.written "ns.example."]),
      route "www.example." "A" (.ipv4 [⟨[192, 0, 2, 90], rfl⟩]),
      route "mail.example." "NS" (.nameservers [.written "ns.example."]),
      route "chaos.example." "NS" (.nameservers [.written "ns.example."]),
      route "chaos.example." "A" (.foreign .ipv4 [.number 1])]
    manner := .standard
    families := [.known .ipv4]
    useDelegations := true
    maxSteps := 3
    maxDepth := 2 }

/-- Witness: of the first domain each axis alone gives its part, and of the second one the
addresses alone give nothing.
-/
theorem halfWalker_one_axis
    : let names := TextSet.ofList ["ns.example."]
      let addresses := TextSet.ofList ["192.0.2.90"]
      (halfWalker.resolve true false "www.example" .start).1
          = .ok ⟨names, .empty, true, false, none⟩
      ∧ (halfWalker.resolve false true "www.example" .start).1
          = .ok ⟨.empty, addresses, false, true, none⟩
      ∧ ¬∃ p, (halfWalker.resolve false true "mail.example" .start).1 = .ok p := by
  have steady : halfWalker.network.Steady := Network.steady_ofRoutes (by simp)
  have landed : (halfWalker.walkTo "www.example" .start).1
      = .ok (⟨"www.example.", .written "www.example."⟩,
          ⟨.root, [⟨"a.root.", "192.0.2.1"⟩]⟩) := by
    decide +kernel
  have www : (halfWalker.resolve true true "www.example" .start).1
      = .ok ⟨.ofList ["ns.example."], .ofList ["192.0.2.90"], true, true, none⟩ := by
    decide +kernel
  have mail : (halfWalker.resolve true true "mail.example" .start).1
      = .ok ⟨.ofList ["ns.example."], .empty, true, false, none⟩ := by
    decide +kernel
  obtain ⟨-, addresses, names⟩ :=
    resolve_of_one_axis steady "www.example" .start .start .start
  have names := names.resolve_right (by
    rintro ⟨record, -, refused, -⟩
    cases www.symm.trans refused)
  refine ⟨(names _).2 ⟨⟨_, landed⟩, _, www, rfl, rfl⟩,
    (addresses _).2 ⟨⟨_, landed⟩, _, www, rfl, rfl⟩, ?_⟩
  rintro ⟨p, hp⟩
  obtain ⟨-, half, -⟩ := resolve_of_one_axis steady "mail.example" .start .start .start
  obtain ⟨-, full, hfull, answered, -⟩ := (half p).1 hp
  obtain rfl := Except.ok.inj (mail.symm.trans hfull)
  cases answered

/-- Counterexamples: the lookup of the nameservers alone gives them, and the full lookup is
refused; and the walk to a text with an empty label fails, and so does the lookup, but this is no
end without an answer.
-/
theorem halfWalker_refused
    : (halfWalker.resolve true false "chaos.example" .start).1
        = .ok ⟨.ofList ["ns.example."], .empty, true, false, none⟩
      ∧ (halfWalker.resolve true true "chaos.example" .start).1
        = .error (.refused (.foreign (.number 1)))
      ∧ (halfWalker.walkTo "a..b" .start).1 = .error (.refused (.badName .emptyLabel))
      ∧ ¬∃ u, (halfWalker.resolve true true "a..b" .start).1 = .error (.unresolved u) := by
  have failed : (halfWalker.walkTo "a..b" .start).1
      = .error (.refused (.badName .emptyLabel)) := by
    decide +kernel
  refine ⟨by decide +kernel, by decide +kernel, failed, ?_⟩
  rw [resolve_of_walk_error failed]
  simp

end Walker

end NameserverAudit
