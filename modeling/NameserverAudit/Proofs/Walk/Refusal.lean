import NameserverAudit.Exchange.Script
import NameserverAudit.Proofs.Name.Host
import NameserverAudit.Proofs.Walk.Asking
import NameserverAudit.Proofs.Walk.Responses
import NameserverAudit.Proofs.Walk.Start
import NameserverAudit.Proofs.Walk.Step
import NameserverAudit.Walk.Collection

/-! What can refuse a walk. Every fault of a query is an end without an answer at most, and so is
a directory without servers. Main statement: a lookup is refused only for a domain that is no
name, for a family that does not exist, for a payload that no message can announce, or for an
address record of another class that a response brought in this lookup.
-/

namespace NameserverAudit

-----------------------------------------------------------------------------------------
-- The servers of the directory
-----------------------------------------------------------------------------------------

/-- All of these families exist. -/
def AreKnown (families : List FamilyName) : Prop :=
  ∀ f ∈ families, f = .known .ipv4 ∨ f = .known .ipv6

namespace Zone

/-- A root server has servers of all known families, by induction on the families. -/
theorem RootServer.servers_of_known (r : RootServer) {families : List FamilyName}
    (h : AreKnown families)
    : ∃ servers, r.servers families = .ok servers := by
  induction families with
  | nil => exact ⟨[], rfl⟩
  | cons f rest ih =>
      obtain ⟨more, hmore⟩ := ih fun g hg => h g (List.mem_cons_of_mem f hg)
      rcases h f (by simp) with rfl | rfl <;> simp [RootServer.servers, hmore]

/-- Root servers have servers of all known families, by induction on the root servers. -/
theorem Directory.serversOf_of_known (roots : List RootServer) {families : List FamilyName}
    (h : AreKnown families)
    : ∃ servers, Directory.serversOf families roots = .ok servers := by
  induction roots with
  | nil => exact ⟨[], rfl⟩
  | cons r rest ih =>
      obtain ⟨front, hfront⟩ := r.servers_of_known h
      obtain ⟨more, hmore⟩ := ih
      exact ⟨front ++ more, by simp [Directory.serversOf, hfront, hmore]⟩

end Zone

-----------------------------------------------------------------------------------------
-- Grounds
-----------------------------------------------------------------------------------------

/-- The first record without an address stands in one of the record sets. -/
theorem Response.exists_of_firstForeign {sets : List RecordSet} {record : ForeignAddress}
    (h : firstForeign sets = some record)
    : ∃ s ∈ sets, s.content.foreign? = some record :=
  List.exists_of_findSome?_eq_some h

/-- A record set with an address record of another class is of a type of addresses. -/
theorem Content.type_of_foreign? {c : Content} {record : ForeignAddress}
    (h : c.foreign? = some record)
    : c.type = .a ∨ c.type = .aaaa := by
  cases c with
  | foreign family records =>
      cases family with
      | ipv4 => exact .inl rfl
      | ipv6 => exact .inr rfl
  | nameservers _ | ipv4 _ | ipv6 _ | other _ => cases h

namespace Walker

/-- `Grounds w old new refusal`: the walker has grounds for the refusal, in what it was given or
in what came back between two histories.
-/
inductive Grounds (w : Walker) (old new : List Sent) : Refusal → Prop
  | family {family : UnknownFamily}
      (unknown : w.directory.servers w.families = .error family)
      : Grounds w old new (.unknownFamily family)
  | payload (misfit : ¬w.manner.Fits) : Grounds w old new (.payload ⟨w.manner.payload⟩)
  /-- The record stands in the answer to a question for addresses. -/
  | answered {m : Sent} {r : Response} {s : RecordSet} {record : ForeignAddress}
      (heard : Heard w.network old new m r) (asked : m.type = .a ∨ m.type = .aaaa)
      (stands : s ∈ r.answer) (foreign : s.content.foreign? = some record)
      : Grounds w old new (.foreign record)
  /-- The record came along with a referral. -/
  | referred {m : Sent} {r : Response} {zone name : DomainName} {referral : Referral}
      {s : RecordSet} {record : ForeignAddress}
      (heard : Heard w.network old new m r) (asked : m.type = .ns)
      (answersNot : r.authoritative = false) (refers : r.RefersDown zone name referral)
      (stands : s ∈ r.additional) (foreign : s.content.foreign? = some record)
      : Grounds w old new (.foreign record)

variable {w : Walker} {j k : Journal}

theorem Grounds.mono {older old new newer : List Sent} {refusal : Refusal}
    (h : w.Grounds old new refusal) (hold : older <:+ old) (hnew : new <:+ newer)
    : w.Grounds older newer refusal := by
  cases h with
  | family unknown => exact .family unknown
  | payload misfit => exact .payload misfit
  | answered heard asked stands foreign =>
      exact .answered (heard.mono hold hnew) asked stands foreign
  | referred heard asked answersNot refers stands foreign =>
      exact .referred (heard.mono hold hnew) asked answersNot refers stands foreign

/-- With known families and a payload that fits, only a record of another class is a reason. -/
theorem Grounds.exists_foreign {old new : List Sent} {refusal : Refusal}
    (h : w.Grounds old new refusal) (known : AreKnown w.families) (fits : w.manner.Fits)
    : ∃ record, refusal = .foreign record ∧ w.Grounds old new (.foreign record) := by
  obtain ⟨servers, hservers⟩ : ∃ servers, w.directory.servers w.families = .ok servers :=
    Zone.Directory.serversOf_of_known _ known
  cases h with
  | family unknown => cases unknown.symm.trans hservers
  | payload misfit => exact absurd fits misfit
  | answered heard asked stands foreign => exact ⟨_, rfl, .answered heard asked stands foreign⟩
  | referred heard asked answersNot refers stands foreign =>
      exact ⟨_, rfl, .referred heard asked answersNot refers stands foreign⟩

/-- The refusal that a result is, if it is one. -/
def refusal? {α : Type} : Except Refusal α → Option Refusal
  | .error refusal => some refusal
  | .ok _ => none

/-- The refusal that a walk ends with, if it does. -/
def walkRefusal? {α : Type} : Except WalkFault α → Option Refusal
  | .error (.refused refusal) => some refusal
  | _ => none

/-- From one journal to another nothing that was sent is forgotten, and if there was a refusal on
the way, there were grounds for it.
-/
structure Grounded (w : Walker) (j k : Journal) (refused : Option Refusal) : Prop where
  later : j.sends <:+ k.sends
  grounds : ∀ refusal, refused = some refusal → w.Grounds j.sends k.sends refusal

theorem Grounded.ended (later : j.sends <:+ k.sends) : w.Grounded j k none :=
  ⟨later, by simp⟩

theorem Grounded.done (w : Walker) (j : Journal) : w.Grounded j j none :=
  .ended (List.suffix_refl _)

theorem Grounded.refused {refusal : Refusal} (later : j.sends <:+ k.sends)
    (grounds : w.Grounds j.sends k.sends refusal)
    : w.Grounded j k (some refusal) :=
  ⟨later, fun _ same => Option.some.inj same ▸ grounds⟩

theorem Grounded.after {refused : Option Refusal} {l : Journal} (h : w.Grounded k l refused)
    (before : j.sends <:+ k.sends)
    : w.Grounded j l refused :=
  ⟨before.trans h.later,
    fun refusal hr => (h.grounds refusal hr).mono before (List.suffix_refl _)⟩

/-- A search that is refused has grounds. -/
def SearchGrounded (w : Walker) (search : Search) : Prop :=
  ∀ q j, w.Grounded j (search q j).2 (walkRefusal? (search q j).1)

theorem ask_grounded (server : Server) (q : Question) (type : RecordType) (j : Journal)
    : w.Grounded j (w.ask server q type j).2
        (refusal? (w.ask server q type j).1) := by
  have asking := (w.ask_asksFor server q type j).1.1
  by_cases fits : w.manner.Fits
  · rw [w.ask_of_fits server q type j fits] at asking ⊢
    exact .ended asking
  · rw [w.ask_of_not_fits server q type j fits]
    exact .refused (List.suffix_refl _) (.payload fits)

-----------------------------------------------------------------------------------------
-- Addresses of nameservers
-----------------------------------------------------------------------------------------

theorem mem_addressTypes_cases {type : RecordType} (h : type ∈ w.addressTypes)
    : type = .a ∨ type = .aaaa := by
  unfold addressTypes at h
  rcases List.mem_append.1 h with h | h
  all_goals
    split at h
    · simp_all
    · cases h

/-- Asking for types of addresses is refused for a reason, by induction on the types. -/
theorem askTypes_grounded (server : Server) (q : Question) (found : List String)
    {types : List RecordType} (addresses : ∀ t ∈ types, t = .a ∨ t = .aaaa) (j : Journal)
    : w.Grounded j (w.askTypes server q found types j).2
        (refusal? (w.askTypes server q found types j).1) := by
  induction types generalizing found j with
  | nil => exact .done w j
  | cons t rest ih =>
      have asking := ask_grounded (w := w) server q t j
      have heard := (w.ask_asksFor server q t j).2
      have more (found : List String) (k : Journal) :=
        ih found (fun t' ht' => addresses t' (List.mem_cons_of_mem t ht')) k
      rcases hask : w.ask server q t j with ⟨refusal | fault | r, k⟩
      all_goals
        rw [hask] at asking heard
        simp only [askTypes, hask]
      · exact asking
      · exact (more found k).after asking.later
      · split
        · next record hforeign =>
          obtain ⟨s, stands, foreign⟩ := Response.exists_of_firstForeign hforeign
          obtain ⟨m, ⟨-, -, htype⟩, hr⟩ := heard r rfl
          exact .refused asking.later
            (.answered hr (htype ▸ addresses t List.mem_cons_self) stands foreign)
        · exact (more _ k).after asking.later

theorem askAddresses_grounded (server : Server) (q : Question) (j : Journal)
    : w.Grounded j (w.askAddresses server q j).2
        (refusal? (w.askAddresses server q j).1) :=
  askTypes_grounded server q [] (fun _ => mem_addressTypes_cases) j

/-- Asking servers in turn is refused for a reason, by induction on the servers. -/
theorem askInTurn_grounded (q : Question) (servers : List Server) (j : Journal)
    : w.Grounded j (w.askInTurn q servers j).2
        (refusal? (w.askInTurn q servers j).1) := by
  induction servers generalizing j with
  | nil => exact .done w j
  | cons server rest ih =>
      have first := askAddresses_grounded (w := w) server q j
      rcases hask : w.askAddresses server q j with ⟨refusal | - | ⟨a, found⟩, k⟩
      all_goals
        rw [hask] at first
        simp only [askInTurn, hask]
      · exact first
      · exact (ih k).after first.later
      · exact first

variable {nested : Option Search}

/-- Looking up a nameserver is refused for a reason; a nested search that ends without an answer
is none.
-/
theorem glueless_grounded (h : ∀ search ∈ nested, w.SearchGrounded search)
    (contacted : Server) (q : Question) (j : Journal)
    : w.Grounded j (w.glueless nested contacted q j).2
        (refusal? (w.glueless nested contacted q j).1) := by
  have first := askAddresses_grounded (w := w) contacted q j
  rcases hask : w.askAddresses contacted q j with ⟨refusal | - | ⟨a, found⟩, k⟩
  all_goals
    rw [hask] at first
    simp only [glueless, hask]
  · exact first
  · cases nested with
    | none => exact .ended first.later
    | some search =>
        have second := (h search rfl q k).after first.later
        rcases hsearch : search q k with ⟨(u | refusal) | cut, l⟩
        all_goals
          rw [hsearch] at second
          simp only [hsearch]
        · exact .ended second.later
        · exact second
        · exact (askInTurn_grounded q cut.servers l).after second.later
  · exact first

/-- A nameserver has the addresses that came with it, or those that are looked up. -/
theorem addressesFor_grounded (h : ∀ search ∈ nested, w.SearchGrounded search)
    (contacted : Server) (r : Response) (q : Question) (j : Journal)
    : w.Grounded j (w.addressesFor nested contacted r q j).2
        (refusal? (w.addressesFor nested contacted r q j).1) := by
  unfold addressesFor
  split
  · exact glueless_grounded h contacted q j
  · exact .done w j

theorem referredServers_grounded (h : ∀ search ∈ nested, w.SearchGrounded search)
    (contacted : Server) (r : Response) (out : List Server) (targets : List DomainName)
    (j : Journal)
    : w.Grounded j (w.referredServers nested contacted r out targets j).2
        (refusal? (w.referredServers nested contacted r out targets j).1) := by
  induction targets generalizing out j with
  | nil => exact .done w j
  | cons target rest ih =>
      have first := addressesFor_grounded h contacted r (.ofName target) j
      rcases hfound : w.addressesFor nested contacted r (.ofName target) j
        with ⟨refusal | found, k⟩
      all_goals
        rw [hfound] at first
        simp only [referredServers, hfound]
      · exact first
      · exact (ih _ k).after first.later

-----------------------------------------------------------------------------------------
-- Steps and walks
-----------------------------------------------------------------------------------------

/-- Where a server is asked and refers down, the servers that it refers to are refused for a
reason.
-/
theorem serversOf_grounded (h : ∀ search ∈ nested, w.SearchGrounded search) {server : Server}
    {q : Question} {r : Response} {zone name : DomainName} {referral : Referral}
    (asked : w.ask server q .ns j = (.ok (.ok r), k)) (answersNot : r.authoritative = false)
    (refers : r.RefersDown zone name referral)
    : w.Grounded j (w.serversOf nested server r referral.targets k).2
        (refusal? (w.serversOf nested server r referral.targets k).1) := by
  obtain ⟨sent, heard⟩ := w.ask_asksFor server q .ns j
  rw [asked] at sent heard
  unfold serversOf
  split
  · next record hforeign =>
    obtain ⟨s, stands, foreign⟩ := Response.exists_of_firstForeign hforeign
    obtain ⟨m, ⟨-, -, htype⟩, hr⟩ := heard r rfl
    exact .refused sent.1 (.referred hr htype answersNot refers stands foreign)
  · exact (referredServers_grounded h server r [] referral.targets k).after sent.1

variable {q : Question} {cut : Cut} {server : Server}

theorem Unusable.grounded (h : ∀ search ∈ nested, w.SearchGrounded search) {cause : Cause}
    (unusable : w.Unusable nested q cut server j cause k)
    : w.Grounded j k none := by
  have asking := ask_grounded (w := w) server q .ns j
  cases unusable with
  | failed asked | lame asked _ _ =>
      rw [asked] at asking
      exact asking
  | addressless asked answersNot refers addressless =>
      have servers := serversOf_grounded h asked answersNot refers
      rw [addressless] at servers
      exact servers

theorem Usable.grounded (h : ∀ search ∈ nested, w.SearchGrounded search) {landing : Landing}
    (usable : w.Usable nested q cut server j landing k)
    : w.Grounded j k none := by
  have asking := ask_grounded (w := w) server q .ns j
  cases usable with
  | authoritative asked _ =>
      rw [asked] at asking
      exact asking
  | delegating asked answersNot refers addressed _ _
  | referring asked answersNot refers addressed _ _ =>
      have servers := serversOf_grounded h asked answersNot refers
      rw [addressed] at servers
      exact servers

theorem Refused.grounded (h : ∀ search ∈ nested, w.SearchGrounded search) {refusal : Refusal}
    (refused : w.Refused nested q cut server j refusal k)
    : w.Grounded j k (some refusal) := by
  have asking := ask_grounded (w := w) server q .ns j
  cases refused with
  | asking refused =>
      rw [refused] at asking
      exact asking
  | referring asked answersNot refers refused =>
      have servers := serversOf_grounded h asked answersNot refers
      rw [refused] at servers
      exact servers

/-- A step is refused for a reason, by induction on the servers that are asked. -/
theorem step_grounded (h : ∀ search ∈ nested, w.SearchGrounded search) (q : Question)
    (cut : Cut) (cause : Cause) (servers : List Server) (j : Journal)
    : w.Grounded j (w.step nested q cut cause servers j).2
        (walkRefusal? (w.step nested q cut cause servers j).1) := by
  induction servers generalizing cause j with
  | nil => exact .done w j
  | cons server rest ih =>
      rcases server_cases w nested q cut server j
        with ⟨cause', k, unusable⟩ | ⟨landing, k, usable⟩ | ⟨refusal, k, refused⟩
      · rw [unusable.step_eq]
        exact (ih cause' k).after (unusable.grounded h).later
      · rw [usable.step_eq]
        exact usable.grounded h
      · rw [refused.step_eq]
        exact refused.grounded h

/-- A descent is refused for a reason, by induction on the steps. -/
theorem descend_grounded (h : ∀ search ∈ nested, w.SearchGrounded search) (q : Question)
    (steps : Nat) (cut : Cut) (j : Journal)
    : w.Grounded j (w.descend nested q steps cut j).2
        (walkRefusal? (w.descend nested q steps cut j).1) := by
  induction steps generalizing cut j with
  | zero => exact .done w j
  | succ steps ih =>
      have first := step_grounded h q cut .nobody cut.servers j
      rcases hstep : w.step nested q cut .nobody cut.servers j
        with ⟨(u | refusal) | (next | next), k⟩
      all_goals
        rw [hstep] at first
        simp only [descend, hstep]
      · exact .ended first.later
      · exact first
      · exact .ended first.later
      · exact (ih next k).after first.later

/-- A walk starts, or ends at once; what is refused there is a family that does not exist. -/
theorem startCut_grounds {name : String} {refusal : Refusal} (sends : List Sent)
    (h : w.startCut name = .error (.refused refusal))
    : w.Grounds sends sends refusal := by
  rcases w.startCut_cases name with ⟨-, start⟩ | ⟨d, -, -, -, start⟩
  · rw [start] at h
    rcases rootCut_eq_error_iff.1 h with ⟨family, unknown, same⟩ | ⟨-, same⟩
    · cases same
      exact .family unknown
    · cases same
  · rw [start] at h
    cases h

theorem walkWith_grounded (h : ∀ search ∈ nested, w.SearchGrounded search)
    : w.SearchGrounded (w.walkWith nested) := by
  intro q j
  unfold walkWith
  split
  · next fault hstart =>
    cases fault with
    | unresolved u => exact .done w j
    | refused refusal => exact .refused (List.suffix_refl _) (startCut_grounds j.sends hstart)
  · exact descend_grounded h q w.maxSteps _ j

/-- A walk is refused for a reason at any depth of nesting, by induction on the depth. -/
theorem walk_grounded (w : Walker) (depth : Nat) : w.SearchGrounded (w.walk depth) := by
  induction depth with
  | zero => exact walkWith_grounded (by simp)
  | succ depth ih =>
      apply walkWith_grounded
      intro search hs
      rw [Option.mem_some] at hs
      exact hs ▸ ih

-----------------------------------------------------------------------------------------
-- Collecting, and whole lookups
-----------------------------------------------------------------------------------------

/-- Servers are asked for an authoritative answer, by induction on them. If one gives it, it came
to a message that asked for the type.
-/
theorem firstAuthoritative_grounded (q : Question) (type : RecordType) (cause : Cause)
    (servers : List Server) (j : Journal)
    : (w.Grounded j (w.firstAuthoritative q type cause servers j).2
        (refusal? (w.firstAuthoritative q type cause servers j).1))
      ∧ ∀ r, (w.firstAuthoritative q type cause servers j).1 = .ok (.ok r) →
          ∃ m,
            m.type = type
            ∧ Heard w.network j.sends (w.firstAuthoritative q type cause servers j).2.sends
                m r := by
  induction servers generalizing cause j with
  | nil => exact ⟨.done w j, by simp [firstAuthoritative]⟩
  | cons server rest ih =>
      have asking := ask_grounded (w := w) server q type j
      have heard := (w.ask_asksFor server q type j).2
      have onward (cause : Cause) {k : Journal} (later : j.sends <:+ k.sends) :
          w.Grounded j (w.firstAuthoritative q type cause rest k).2
              (refusal? (w.firstAuthoritative q type cause rest k).1)
            ∧ ∀ r, (w.firstAuthoritative q type cause rest k).1 = .ok (.ok r) →
                ∃ m,
                  m.type = type
                  ∧ Heard w.network j.sends (w.firstAuthoritative q type cause rest k).2.sends
                      m r := by
        obtain ⟨first, heard⟩ := ih cause k
        refine ⟨first.after later, fun r hr => ?_⟩
        obtain ⟨m, htype, hm⟩ := heard r hr
        exact ⟨m, htype, hm.mono later (List.suffix_refl _)⟩
      rcases hask : w.ask server q type j with ⟨refusal | fault | r, k⟩
      all_goals
        rw [hask] at asking heard
        simp only [firstAuthoritative, hask]
      · exact ⟨asking, by simp⟩
      · exact onward _ asking.later
      · split
        · refine ⟨.ended asking.later, ?_⟩
          rintro r' ⟨⟩
          obtain ⟨m, ⟨-, -, htype⟩, hm⟩ := heard r rfl
          exact ⟨m, htype, hm⟩
        · exact onward _ asking.later

/-- Collecting types is refused for a reason, by induction on the types. -/
theorem collectTypes_grounded (q : Question) (servers : List Server) (types : List RecordType)
    (c : Collected) (j : Journal)
    : w.Grounded j (w.collectTypes q servers types c j).2
        (refusal? (w.collectTypes q servers types c j).1) := by
  induction types generalizing c j with
  | nil => exact .done w j
  | cons type rest ih =>
      obtain ⟨first, heard⟩ := firstAuthoritative_grounded (w := w) q type c.cause servers j
      rcases hfirst : w.firstAuthoritative q type c.cause servers j
        with ⟨refusal | cause | r, k⟩
      all_goals
        rw [hfirst] at first heard
        simp only [collectTypes, hfirst]
      · exact first
      · exact (ih _ k).after first.later
      · split
        · next record hforeign =>
          obtain ⟨s, hs, foreign⟩ := Response.exists_of_firstForeign hforeign
          obtain ⟨stands, htype⟩ := List.mem_filter.1 hs
          obtain ⟨m, hm, hr⟩ := heard r rfl
          have addresses := Content.type_of_foreign? foreign
          rw [of_decide_eq_true htype, ← hm] at addresses
          exact .refused first.later (.answered hr addresses stands foreign)
        · exact (ih _ k).after first.later

theorem collectNames_grounded (q : Question) (cut : Cut) (wanted : List RecordType)
    (names : List String) (c : Collected) (j : Journal)
    : w.Grounded j (w.collectNames q cut wanted names c j).2
        (refusal? (w.collectNames q cut wanted names c j).1) := by
  induction names generalizing c j with
  | nil => exact .done w j
  | cons name rest ih =>
      have first := collectTypes_grounded (w := w) q
        (cut.servers.filter fun s => s.name = name) wanted c j
      rcases hfirst : w.collectTypes q (cut.servers.filter fun s => s.name = name) wanted c j
        with ⟨refusal | c', k⟩
      all_goals
        rw [hfirst] at first
        simp only [collectNames, hfirst]
      · exact first
      · exact (ih c' k).after first.later

theorem collect_grounded (q : Question) (cut : Cut) (wanted : List RecordType) (j : Journal)
    : w.Grounded j (w.collect q cut wanted j).2
        (walkRefusal? (w.collect q cut wanted j).1) := by
  have names := collectNames_grounded (w := w) q cut wanted.eraseDups
    (cut.servers.map (·.name)).eraseDups ⟨.empty, .empty, [], .noAuthority⟩ j
  unfold collect
  dsimp only
  split
  · next refusal k hnames =>
    rw [hnames] at names
    exact names
  · next c k hnames =>
    rw [hnames] at names
    split
    · exact .ended names.later
    · exact .ended names.later

/-- A lookup that is refused has grounds in what the walker was given or in what came back in the
lookup, or its domain is no name.
-/
theorem resolve_grounds {nameservers addresses : Bool} {domain : String} {j : Journal}
    {refusal : Refusal}
    (h : (w.resolve nameservers addresses domain j).1 = .error (.refused refusal))
    : w.Grounds j.sends (w.resolve nameservers addresses domain j).2.sends refusal
      ∨ ∃ fault, Question.ofText (canonicalName domain) = .error fault
          ∧ refusal = .badName fault := by
  rcases hq : Question.ofText (canonicalName domain) with fault | q
  · simp only [resolve, hq] at h ⊢
    split at h
    · next f hstart =>
      refine .inl ?_
      cases h
      exact startCut_grounds j.sends hstart
    · split at h
      · cases h
      · cases h
        exact .inr ⟨fault, rfl, rfl⟩
  · refine .inl ?_
    have walked := w.walk_grounded w.maxDepth q j
    simp only [resolve, hq] at h ⊢
    rcases hwalk : w.walk w.maxDepth q j with ⟨fault | cut, k⟩
    all_goals
      rw [hwalk] at walked
      simp only [hwalk] at h ⊢
    · cases h
      exact walked.grounds refusal rfl
    · exact ((collect_grounded q cut _ k).after walked.later).grounds refusal
        (congrArg walkRefusal? h)

/-- With known families, the lookup of a host-style domain is refused only for a payload that no
message can announce, or for an address record of another class that a response brought.
-/
theorem resolve_refused {nameservers addresses : Bool} {domain : String} {j : Journal}
    {refusal : Refusal} (known : AreKnown w.families) (hostStyle : Host.isDomain domain = true)
    (h : (w.resolve nameservers addresses domain j).1 = .error (.refused refusal))
    : w.Grounds j.sends (w.resolve nameservers addresses domain j).2.sends refusal
      ∧ (¬w.manner.Fits ∧ refusal = .payload ⟨w.manner.payload⟩
        ∨ ∃ record, refusal = .foreign record) := by
  obtain ⟨q, hq⟩ := Host.exists_question hostStyle
  obtain ⟨servers, hservers⟩ : ∃ servers, w.directory.servers w.families = .ok servers :=
    Zone.Directory.serversOf_of_known _ known
  rcases resolve_grounds h with grounds | ⟨fault, bad, -⟩
  · refine ⟨grounds, ?_⟩
    cases grounds with
    | family unknown => cases unknown.symm.trans hservers
    | payload misfit => exact .inl ⟨misfit, rfl⟩
    | answered => exact .inr ⟨_, rfl⟩
    | referred => exact .inr ⟨_, rfl⟩
  · cases bad.symm.trans hq

/-- A walker on a network where the root server refers `www.example.` to a nameserver and brings
an address of the class Chaos for it. No other question is answered.
-/
def chaosWalker : Walker :=
  let ns := DomainName.written "ns.example."
  let referral : Response :=
    { Response.blank with
      authority := [⟨.written "example.", .nameservers [ns]⟩]
      additional := [⟨ns, .foreign .ipv4 [.number 1]⟩] }
  { directory := ⟨[⟨"a.root.", .ofList ["192.0.2.1"], .empty⟩], []⟩
    ledger := .empty
    network := Network.ofRoutes
      [⟨.udp, "192.0.2.1", "www.example.", "NS", [⟨.zero, .response referral⟩]⟩]
    manner := .standard
    families := [.known .ipv4]
    useDelegations := true
    maxSteps := 3
    maxDepth := 2 }

example
    : (chaosWalker.resolve true true "www.example" .start).1
      = .error (.refused (.foreign (.number 1))) := by
  decide +kernel

end Walker

end NameserverAudit
