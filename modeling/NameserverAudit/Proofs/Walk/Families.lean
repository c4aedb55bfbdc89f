import NameserverAudit.Exchange.Script
import NameserverAudit.Proofs.Walk.Origins

/-! The families of the servers that a lookup contacts. Roots, delegations and glue give only
addresses of wanted families. The answer to an address lookup is taken as it is, though, so a
server of another family is contacted just when such an answer named it in records of another
type than was asked for.
-/

namespace NameserverAudit

namespace Walker

/-- The text is an address of a wanted family. -/
def WantsAddress (w : Walker) (text : String) : Prop :=
  ∃ f, familyOf? text = some f ∧ w.wants f = true

/-- The address came in answer to a lookup of addresses, since an old history, but not in
records of the type that was asked for.
-/
def Astray (w : Walker) (old sends : List Sent) (address : String) : Prop :=
  ∃ m r,
    Heard w.network old sends m r
    ∧ m.type ∈ w.addressTypes
    ∧ address ∈ r.addresses
    ∧ address ∉ r.addressesOf m.type

variable {w : Walker} {old : List Sent}

theorem mem_addressTypes {type : RecordType}
    : type ∈ w.addressTypes
      ↔ type = .a ∧ w.wants .ipv4 = true ∨ type = .aaaa ∧ w.wants .ipv6 = true := by
  have hmem (b : Bool) (t : RecordType)
      : type ∈ (if b = true then [t] else []) ↔ type = t ∧ b = true := by
    cases b <;> simp
  rw [addressTypes, List.mem_append, hmem, hmem]

theorem wantsAddress_of_mem_addressesOf {r : Response} {type : RecordType} {a : String}
    (ht : type ∈ w.addressTypes) (ha : a ∈ r.addressesOf type)
    : w.WantsAddress a := by
  obtain ⟨s, -, htype, hmem⟩ := Response.mem_addressesOf.1 ha
  have hne : RecordType.a ≠ .aaaa := by decide
  rcases Content.family_of_mem_addresses hmem with ⟨hs, -, hread⟩ | ⟨hs, -, hread⟩
  · rcases mem_addressTypes.1 ht with ⟨-, hwants⟩ | ⟨haaaa, -⟩
    · exact ⟨.ipv4, hread, hwants⟩
    · exact absurd (hs.symm.trans (htype.trans haaaa)) hne
  · rcases mem_addressTypes.1 ht with ⟨ha, -⟩ | ⟨-, hwants⟩
    · exact absurd (hs.symm.trans (htype.trans ha)) hne.symm
    · exact ⟨.ipv6, hread, hwants⟩

/-- The servers that a walk starts at have addresses of wanted families. -/
theorem wantsAddress_of_startCut (listed : w.directory.Listed) {text : String} {cut : Cut}
    (h : w.startCut text = .ok cut)
    : ∀ s ∈ cut.servers, w.WantsAddress s.address := by
  intro s hs
  rcases mem_startCut h hs with ⟨r, hr, f, hf, ha⟩ | ⟨e, he, hglue, hfamily⟩
  · exact ⟨f, (listed.roots r hr f _ ha).familyOf?, by simpa [wants] using hf⟩
  · obtain ⟨f, hf⟩ := listed.glue e he s.name _ hglue
    rw [Zone.Delegation.familyOf_eq hf] at hfamily
    exact ⟨f, hf.familyOf?, by simpa [wants] using hfamily⟩

/-- Addresses are of a wanted family or came astray, wherever a walk takes them from. -/
theorem sources_wanted_or_astray (listed : w.directory.Listed) (old : List Sent)
    : w.Sources old (fun sends a => w.WantsAddress a ∨ w.Astray old sends a)
        (fun _ _ => True) where
  address_mono h hlater :=
    h.imp_right fun ⟨m, r, hr, hfound⟩ =>
      ⟨m, r, hr.mono (List.suffix_refl _) hlater, hfound⟩
  name_mono _ _ := trivial
  start hcut s hs := .inl (wantsAddress_of_startCut listed hcut s hs)
  glue _ _ ha := .inl (Response.familyOf?_of_mem_glueFor ha)
  answer := by
    intro sends m r hr htype a ha
    by_cases hasked : a ∈ r.addressesOf m.type
    · exact .inl (wantsAddress_of_mem_addressesOf htype hasked)
    · exact .inr ⟨m, r, hr, htype, ha, hasked⟩
  target _ _ _ _ := trivial

variable {reader : Zone.Reader} {source text : String} (nameservers addresses : Bool)
  (domain : String) (j : Journal)

/-- With a directory that was read from zone text, a lookup contacts only addresses that are of
a wanted family or came astray.
-/
theorem resolve_wanted_or_astray
    (read : (Zone.Directory.ofTextBy reader source text).directory = .ok w.directory)
    : SentSince
        (fun earlier m => w.WantsAddress m.server ∨ w.Astray j.sends earlier m.server)
        j.sends (w.resolve nameservers addresses domain j).2.sends :=
  ((sources_wanted_or_astray (Zone.Directory.read_listed read) j.sends).resolve
    fun _ _ => trivial).imp fun _ _ _ h => h.1

/-- A lookup contacts only servers of wanted families exactly if it contacts no address that
came astray and is of another family: every contacted address is wanted or came astray.
-/
theorem resolve_contacts_wanted_iff
    (read : (Zone.Directory.ofTextBy reader source text).directory = .ok w.directory)
    : SentSince (fun _ m => w.WantsAddress m.server) j.sends
        (w.resolve nameservers addresses domain j).2.sends
      ↔ SentSince
          (fun earlier m => w.Astray j.sends earlier m.server → w.WantsAddress m.server)
          j.sends (w.resolve nameservers addresses domain j).2.sends := by
  constructor
  · intro h
    exact h.imp fun _ _ _ hm _ => hm
  · intro h
    have hsources := resolve_wanted_or_astray nameservers addresses domain j read
    refine ⟨h.1, ?_⟩
    intro m earlier hold hm
    rcases hsources.2 m earlier hold hm with hwanted | hastray
    · exact hwanted
    · exact h.2 m earlier hold hm hastray

-----------------------------------------------------------------------------------------
-- A run astray
-----------------------------------------------------------------------------------------

/-- A network on which the root server, asked for the address of version 4 of a nameserver that
it refers to, answers with the address of version 6.
-/
def astrayNetwork : Network :=
  let zone := DomainName.written "example."
  let ns := DomainName.written "ns.other."
  let route (server name type : String) (r : Response) : Route :=
    ⟨.udp, server, name, type, [⟨.zero, .response r⟩]⟩
  let published : Response :=
    { Response.blank with authoritative := true, answer := [⟨zone, .nameservers [ns]⟩] }
  Network.ofRoutes [
    route "192.0.2.1" "example." "NS"
      { Response.blank with authority := [⟨zone, .nameservers [ns]⟩] },
    route "192.0.2.1" "ns.other." "A"
      { Response.blank with
        answer := [⟨ns, .ipv6 [⟨[0x2001, 0xdb8, 0, 0, 0, 0, 0, 1], rfl⟩]⟩] },
    route "2001:db8::1" "example." "NS" published,
    route "2001:db8::1" "example." "A"
      { published with answer := [⟨zone, .ipv4 [⟨[192, 0, 2, 80], rfl⟩]⟩] }]

/-- A walker on that network that wants addresses of version 4 alone. -/
def astrayWalker : Walker :=
  { directory := ⟨[⟨"a.root.", .ofList ["192.0.2.1"], .empty⟩], []⟩
    ledger := .empty
    network := astrayNetwork
    manner := .standard
    families := [.known .ipv4]
    useDelegations := true
    maxSteps := 16
    maxDepth := 0 }

theorem astrayWalker_read
    : (Zone.Directory.ofText "" ". NS a.root.\na.root. A 192.0.2.1\n").directory
      = .ok astrayWalker.directory :=
  rfl

/-- Witness: what the contacted servers depend on, in the run astray. -/
theorem astrayWalker_contacts_wanted_iff
    : SentSince (fun _ m => astrayWalker.WantsAddress m.server) Journal.start.sends
        (astrayWalker.resolve true true "example" .start).2.sends
      ↔ SentSince
          (fun earlier m =>
            astrayWalker.Astray Journal.start.sends earlier m.server
            → astrayWalker.WantsAddress m.server)
          Journal.start.sends (astrayWalker.resolve true true "example" .start).2.sends :=
  resolve_contacts_wanted_iff true true "example" .start astrayWalker_read

/-- In the run astray a server of an unwanted family is contacted, though the directory is read
from zone text and only addresses of version 4 are wanted.
-/
theorem astrayWalker_contacts_unwanted
    : (Zone.Directory.ofText "" ". NS a.root.\na.root. A 192.0.2.1\n").directory
          = .ok astrayWalker.directory
      ∧ astrayWalker.families = [.known .ipv4]
      ∧ ¬SentSince (fun _ m => astrayWalker.WantsAddress m.server) Journal.start.sends
          (astrayWalker.resolve true true "example" .start).2.sends := by
  refine ⟨astrayWalker_read, rfl, ?_⟩
  intro h
  have hcontacted : "2001:db8::1"
      ∈ (astrayWalker.resolve true true "example" .start).2.sends.map (·.server) := by
    decide +kernel
  obtain ⟨m, hm, hserver⟩ := List.mem_map.1 hcontacted
  obtain ⟨f, hf, hwants⟩ := sentSince_nil.1 h m hm
  rw [hserver] at hf
  have hfamily : familyOf? "2001:db8::1" = some .ipv6 := by decide +kernel
  rw [hfamily, Option.some.injEq] at hf
  subst hf
  exact absurd hwants (by decide)

end Walker

end NameserverAudit
