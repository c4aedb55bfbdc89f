import NameserverAudit.Proofs.Walk.Asking
import NameserverAudit.Proofs.Walk.Responses
import NameserverAudit.Proofs.Walk.Step
import NameserverAudit.Walk.Collection

/-! Where a walk takes the addresses it contacts and the names it asks about. A predicate on
addresses and one on names that hold of all that a walk starts with and of all that responses
bring hold of every message that it sends. This is proved once for all such predicates,
function by function, along the nesting of searches.
-/

namespace NameserverAudit

namespace Walker

/-- What may be known, of addresses and of names, in a history since an old one: it stays
known, it covers the servers where walks start, and it covers what responses bring. Addresses
come along with referrals or in answers to address queries; names are the targets of referrals.
-/
structure Sources (w : Walker) (old : List Sent) (address : List Sent → String → Prop)
    (name : List Sent → DomainName → Prop)
    : Prop where
  address_mono
    : ∀ {sends later a}, address sends a → sends <:+ later → address later a
  name_mono
    : ∀ {sends later n}, name sends n → sends <:+ later → name later n
  start
    : ∀ {text cut sends},
        w.startCut text = .ok cut → ∀ s ∈ cut.servers, address sends s.address
  glue
    : ∀ {sends m r ns},
        Heard w.network old sends m r → ∀ a ∈ r.glueFor w.wants ns, address sends a
  answer
    : ∀ {sends m r},
        Heard w.network old sends m r
        → m.type ∈ w.addressTypes
        → ∀ a ∈ r.addresses, address sends a
  target
    : ∀ {sends m r zone asked referral},
        Heard w.network old sends m r
        → r.referral? zone asked = some referral
        → ∀ t ∈ referral.targets, name sends t.lowered

/-- A message goes to a known address and asks about a known name. -/
def Sourced (address : List Sent → String → Prop) (name : List Sent → DomainName → Prop)
    (earlier : List Sent) (m : Sent)
    : Prop :=
  address earlier m.server ∧ name earlier m.name

variable {w : Walker} {old : List Sent} {address : List Sent → String → Prop}
  {name : List Sent → DomainName → Prop} {j : Journal} {q : Question}

/-- Asking a known address about a known name sends only such messages. -/
theorem Sources.ask (sources : w.Sources old address name) {server : Server}
    (type : RecordType) (ha : address j.sends server.address) (hn : name j.sends q.name)
    : SentSince (Sourced address name) j.sends (w.ask server q type j).2.sends := by
  refine (w.ask_asksFor server q type j).1.imp ?_
  rintro m earlier hold ⟨hserver, hname, -⟩
  exact ⟨hserver ▸ sources.address_mono ha hold, hname ▸ sources.name_mono hn hold⟩

-----------------------------------------------------------------------------------------
-- Addresses of nameservers
-----------------------------------------------------------------------------------------

/-- Only known addresses are asked about known names, and the addresses that come out, if any
do, are known at the end.
-/
def Finds (address : List Sent → String → Prop) (name : List Sent → DomainName → Prop)
    (j : Journal) (run : Except Refusal (List String) × Journal)
    : Prop :=
  SentSince (Sourced address name) j.sends run.2.sends
  ∧ ∀ found, run.1 = .ok found → ∀ a ∈ found, address run.2.sends a

/-- What was found is known. -/
theorem Finds.done {found : List String} (h : ∀ a ∈ found, address j.sends a)
    : Finds address name j (.ok found, j) :=
  ⟨.refl _ _, fun _ same => Except.ok.inj same ▸ h⟩

/-- A refusal finds nothing. -/
theorem Finds.refused {refusal : Refusal} {k : Journal}
    (h : SentSince (Sourced address name) j.sends k.sends)
    : Finds address name j (.error refusal, k) :=
  ⟨h, by simp⟩

/-- What is found later is found. -/
theorem Finds.after {k : Journal} {run : Except Refusal (List String) × Journal}
    (h : Finds address name k run) (before : SentSince (Sourced address name) j.sends k.sends)
    : Finds address name j run :=
  ⟨before.trans h.1, h.2⟩

/-- Asking for types of addresses finds known addresses, by induction on the types. -/
theorem Sources.askTypes (sources : w.Sources old address name) {server : Server}
    {found : List String} {types : List RecordType} (hold : old <:+ j.sends)
    (ha : address j.sends server.address) (hn : name j.sends q.name)
    (hfound : ∀ a ∈ found, address j.sends a) (htypes : ∀ t ∈ types, t ∈ w.addressTypes)
    : Finds address name j (w.askTypes server q found types j) := by
  induction types generalizing found j with
  | nil => exact .done hfound
  | cons t rest ih =>
      have hsent := sources.ask t ha hn
      have hheard := (w.ask_asksFor server q t j).2
      rcases hask : w.ask server q t j with ⟨refusal | fault | r, j'⟩
      all_goals
        rw [hask] at hsent
        simp only [Walker.askTypes, hask]
        have later {a : String} (h : address j.sends a) : address j'.sends a :=
          sources.address_mono h hsent.1
        have hrest := fun t' ht' => htypes t' (List.mem_cons_of_mem t ht')
      · exact .refused hsent
      · exact (ih (hold.trans hsent.1) (later ha) (sources.name_mono hn hsent.1)
          (fun a h => later (hfound a h)) hrest).after hsent
      · rw [hask] at hheard
        obtain ⟨m, hm, hr⟩ := hheard r rfl
        have hnew (a : String) (h : a ∈ Response.addNew found r.addresses)
            : address j'.sends a := by
          rcases Response.mem_addNew.1 h with h | h
          · exact later (hfound a h)
          · exact sources.answer (hr.mono hold (List.suffix_refl _))
              (hm.2.2 ▸ htypes t (by simp)) a h
        split
        · exact .refused hsent
        · exact (ih (hold.trans hsent.1) (later ha) (sources.name_mono hn hsent.1) hnew
            hrest).after hsent

theorem Sources.askAddresses (sources : w.Sources old address name) {server : Server}
    (hold : old <:+ j.sends) (ha : address j.sends server.address) (hn : name j.sends q.name)
    : Finds address name j (w.askAddresses server q j) :=
  sources.askTypes hold ha hn (by simp) fun _ ht => ht

/-- Asking known servers in turn finds known addresses, by induction on the servers. -/
theorem Sources.askInTurn (sources : w.Sources old address name) {servers : List Server}
    (hold : old <:+ j.sends) (hs : ∀ s ∈ servers, address j.sends s.address)
    (hn : name j.sends q.name)
    : Finds address name j (w.askInTurn q servers j) := by
  induction servers generalizing j with
  | nil => exact .done (by simp)
  | cons server rest ih =>
      have hfirst := sources.askAddresses hold (hs server (by simp)) hn
      rcases hask : w.askAddresses server q j with ⟨refusal | - | ⟨a, found⟩, j'⟩
      all_goals
        rw [hask] at hfirst
        simp only [Walker.askInTurn, hask]
      · exact hfirst
      · exact (ih (hold.trans hfirst.1.1)
          (fun s h => sources.address_mono (hs s (List.mem_cons_of_mem server h)) hfirst.1.1)
          (sources.name_mono hn hfirst.1.1)).after hfirst.1
      · exact hfirst

-----------------------------------------------------------------------------------------
-- Referred servers, steps and whole walks
-----------------------------------------------------------------------------------------

/-- A search to a known name sends only messages to known addresses about known names, and
the servers that it finds have known addresses.
-/
def Reaches (old : List Sent) (address : List Sent → String → Prop)
    (name : List Sent → DomainName → Prop) (search : Search)
    : Prop :=
  ∀ q j,
    old <:+ j.sends
    → name j.sends q.name
    → SentSince (Sourced address name) j.sends (search q j).2.sends
      ∧ ∀ cut, (search q j).1 = .ok cut →
          ∀ s ∈ cut.servers, address (search q j).2.sends s.address

variable {nested : Option Search}

/-- Looking up a nameserver finds known addresses if the nested search reaches known servers. -/
theorem Sources.glueless (sources : w.Sources old address name)
    (hnested : ∀ search ∈ nested, Reaches old address name search) {contacted : Server}
    (hold : old <:+ j.sends) (ha : address j.sends contacted.address)
    (hn : name j.sends q.name)
    : Finds address name j (w.glueless nested contacted q j) := by
  have hfirst := sources.askAddresses hold ha hn
  rcases hask : w.askAddresses contacted q j with ⟨refusal | - | ⟨a, found⟩, j₁⟩
  all_goals
    rw [hask] at hfirst
    simp only [Walker.glueless, hask]
  · exact hfirst
  · cases nested with
    | none => exact ⟨hfirst.1, by simp⟩
    | some search =>
        have hsearch := hnested search rfl q j₁ (hold.trans hfirst.1.1)
          (sources.name_mono hn hfirst.1.1)
        rcases hres : search q j₁ with ⟨(u | r) | cut, j₂⟩
        all_goals
          rw [hres] at hsearch
          simp only [hres]
          have hsent := hfirst.1.trans hsearch.1
        · exact ⟨hsent, by simp⟩
        · exact .refused hsent
        · exact (sources.askInTurn (hold.trans hsent.1) (hsearch.2 cut rfl)
            (sources.name_mono hn hsent.1)).after hsent
  · exact hfirst

/-- The addresses of a nameserver are known, whether they came with the referral or are looked
up.
-/
theorem Sources.addressesFor (sources : w.Sources old address name)
    (hnested : ∀ search ∈ nested, Reaches old address name search) {contacted : Server}
    {r : Response} {m : Sent} (hheard : Heard w.network old j.sends m r)
    (hold : old <:+ j.sends) (ha : address j.sends contacted.address)
    (hn : name j.sends q.name)
    : Finds address name j (w.addressesFor nested contacted r q j) := by
  unfold Walker.addressesFor
  split
  · exact sources.glueless hnested hold ha hn
  · exact .done (sources.glue hheard)

/-- A server that is added to a list was in the list or is one of the new ones, by induction
on the new ones.
-/
theorem mem_of_mem_addServers {out new : List Server} {s : Server}
    (h : s ∈ addServers out new)
    : s ∈ out ∨ s ∈ new := by
  induction new generalizing out with
  | nil => exact .inl h
  | cons x rest ih =>
      simp only [addServers] at h
      split at h
      · exact (ih h).imp_right (List.mem_cons_of_mem x)
      · rcases ih h with hout | hrest
        · rcases List.mem_append.1 hout with hout | hx
          · exact .inl hout
          · exact .inr (by simp_all)
        · exact .inr (List.mem_cons_of_mem x hrest)

/-- The servers of a referral have known addresses, by induction on the nameservers. -/
theorem Sources.referredServers (sources : w.Sources old address name)
    (hnested : ∀ search ∈ nested, Reaches old address name search) {contacted : Server}
    {r : Response} {m : Sent} {out : List Server} {targets : List DomainName}
    (hheard : Heard w.network old j.sends m r) (hold : old <:+ j.sends)
    (ha : address j.sends contacted.address)
    (htargets : ∀ t ∈ targets, name j.sends t.lowered)
    (hout : ∀ s ∈ out, address j.sends s.address)
    : SentSince (Sourced address name) j.sends
        (w.referredServers nested contacted r out targets j).2.sends
      ∧ ∀ servers, (w.referredServers nested contacted r out targets j).1 = .ok servers →
          ∀ s ∈ servers,
            address (w.referredServers nested contacted r out targets j).2.sends s.address := by
  induction targets generalizing out j with
  | nil =>
      refine ⟨.refl _ _, ?_⟩
      intro servers hs
      rw [← Except.ok.inj hs]
      exact hout
  | cons target rest ih =>
      have hfirst := sources.addressesFor (q := Question.ofName target) hnested hheard hold ha
        (htargets target (by simp))
      rcases hres : w.addressesFor nested contacted r (Question.ofName target) j with
        ⟨refusal | found, j'⟩
      all_goals
        rw [hres] at hfirst
        simp only [Walker.referredServers, hres]
      · exact ⟨hfirst.1, by simp⟩
      · have hservers (s : Server)
            (hs : s ∈ addServers out (found.map (Server.mk (Question.ofName target).text)))
            : address j'.sends s.address := by
          rcases mem_of_mem_addServers hs with hs | hs
          · exact sources.address_mono (hout s hs) hfirst.1.1
          · obtain ⟨a, hfound, rfl⟩ := List.mem_map.1 hs
            exact hfirst.2 found rfl a hfound
        have hmore := ih (hheard.mono (List.suffix_refl _) hfirst.1.1) (hold.trans hfirst.1.1)
          (sources.address_mono ha hfirst.1.1)
          (fun t ht => sources.name_mono (htargets t (List.mem_cons_of_mem target ht))
            hfirst.1.1)
          hservers
        exact ⟨hfirst.1.trans hmore.1, hmore.2⟩

/-- The servers that a known server refers to, when it is asked about a known name, have known
addresses.
-/
theorem Sources.referral (sources : w.Sources old address name)
    (hnested : ∀ search ∈ nested, Reaches old address name search) {server : Server}
    {zone : DomainName} {r : Response} {k : Journal} {referral : Referral}
    (hold : old <:+ j.sends) (hs : address j.sends server.address) (hn : name j.sends q.name)
    (asked : w.ask server q .ns j = (.ok (.ok r), k))
    (refers : r.RefersDown zone q.name referral)
    : SentSince (Sourced address name) j.sends
        (w.serversOf nested server r referral.targets k).2.sends
      ∧ ∀ servers, (w.serversOf nested server r referral.targets k).1 = .ok servers →
          ∀ s ∈ servers,
            address (w.serversOf nested server r referral.targets k).2.sends s.address := by
  have hsent := sources.ask .ns hs hn
  have hheard := (w.ask_asksFor server q .ns j).2
  rw [asked] at hsent hheard
  obtain ⟨m, -, hr⟩ := hheard r rfl
  have hr := hr.mono hold (List.suffix_refl _)
  unfold Walker.serversOf
  split
  · exact ⟨hsent, by simp⟩
  · have hservers := sources.referredServers hnested hr (hold.trans hsent.1)
      (sources.address_mono hs hsent.1)
      (sources.target hr (Response.referral?_eq_some_iff.2 refers)) (List.forall_mem_nil _)
    exact ⟨hsent.trans hservers.1, hservers.2⟩

/-- Asking a known server that is of no use sends only messages to known addresses. -/
theorem Sources.unusable (sources : w.Sources old address name)
    (hnested : ∀ search ∈ nested, Reaches old address name search) {cut : Cut}
    {server : Server} {cause : Cause} {k : Journal} (hold : old <:+ j.sends)
    (hs : address j.sends server.address) (hn : name j.sends q.name)
    (h : w.Unusable nested q cut server j cause k)
    : SentSince (Sourced address name) j.sends k.sends := by
  have hsent := sources.ask .ns hs hn
  cases h with
  | failed asked | lame asked _ _ =>
      rw [asked] at hsent
      exact hsent
  | addressless asked _ refers found =>
      have hreferral := sources.referral hnested hold hs hn asked refers
      rw [found] at hreferral
      exact hreferral.1

/-- A usable server of a known cut leads to known servers. -/
theorem Sources.usable (sources : w.Sources old address name)
    (hnested : ∀ search ∈ nested, Reaches old address name search) {cut : Cut}
    {server : Server} {landing : Landing} {k : Journal} (hold : old <:+ j.sends)
    (hcut : ∀ s ∈ cut.servers, address j.sends s.address)
    (hs : address j.sends server.address) (hn : name j.sends q.name)
    (h : w.Usable nested q cut server j landing k)
    : SentSince (Sourced address name) j.sends k.sends
      ∧ ∀ s ∈ landing.cut.servers, address k.sends s.address := by
  cases h with
  | authoritative asked _ =>
      have hsent := sources.ask .ns hs hn
      rw [asked] at hsent
      exact ⟨hsent, fun s h => sources.address_mono (hcut s h) hsent.1⟩
  | delegating asked _ refers found _ _ | referring asked _ refers found _ _ =>
      have hreferral := sources.referral hnested hold hs hn asked refers
      rw [found] at hreferral
      exact ⟨hreferral.1, fun s h => hreferral.2 _ rfl s (Ledger.mem_ranked.1 h)⟩

/-- A step from known servers lands at known servers, by induction on the servers. -/
theorem Sources.step (sources : w.Sources old address name) (cause : Cause)
    (hnested : ∀ search ∈ nested, Reaches old address name search) {cut : Cut}
    {servers : List Server} (hold : old <:+ j.sends)
    (hcut : ∀ s ∈ cut.servers, address j.sends s.address)
    (hs : ∀ s ∈ servers, address j.sends s.address) (hn : name j.sends q.name)
    : SentSince (Sourced address name) j.sends
        (w.step nested q cut cause servers j).2.sends
      ∧ ∀ landing, (w.step nested q cut cause servers j).1 = .ok landing →
          ∀ s ∈ landing.cut.servers,
            address (w.step nested q cut cause servers j).2.sends s.address := by
  induction servers generalizing cause j with
  | nil => exact ⟨.refl _ _, by simp [Walker.step]⟩
  | cons server rest ih =>
      have hserver := hs server (by simp)
      rcases server_cases w nested q cut server j
        with ⟨cause', k, unusable⟩ | ⟨landing, k, usable⟩ | ⟨refusal, k, refused⟩
      · have hsent := sources.unusable hnested hold hserver hn unusable
        have hmore := ih cause' (hold.trans hsent.1)
          (fun s h => sources.address_mono (hcut s h) hsent.1)
          (fun s h => sources.address_mono (hs s (List.mem_cons_of_mem server h)) hsent.1)
          (sources.name_mono hn hsent.1)
        rw [unusable.step_eq]
        exact ⟨hsent.trans hmore.1, hmore.2⟩
      · have hlands := sources.usable hnested hold hcut hserver hn usable
        rw [usable.step_eq]
        exact ⟨hlands.1, fun l hl => Except.ok.inj hl ▸ hlands.2⟩
      · rw [refused.step_eq]
        cases refused with
        | asking refused =>
            have hsent := sources.ask .ns hserver hn
            rw [refused] at hsent
            exact ⟨hsent, by simp⟩
        | referring asked _ refers found =>
            have hreferral := sources.referral hnested hold hserver hn asked refers
            rw [found] at hreferral
            exact ⟨hreferral.1, by simp⟩

/-- A descent from known servers ends at known servers, by induction on the steps. -/
theorem Sources.descend (sources : w.Sources old address name)
    (hnested : ∀ search ∈ nested, Reaches old address name search) {steps : Nat} {cut : Cut}
    (hold : old <:+ j.sends) (hcut : ∀ s ∈ cut.servers, address j.sends s.address)
    (hn : name j.sends q.name)
    : SentSince (Sourced address name) j.sends (w.descend nested q steps cut j).2.sends
      ∧ ∀ last, (w.descend nested q steps cut j).1 = .ok last →
          ∀ s ∈ last.servers, address (w.descend nested q steps cut j).2.sends s.address := by
  induction steps generalizing cut j with
  | zero => exact ⟨.refl _ _, by simp [Walker.descend]⟩
  | succ steps ih =>
      have hstep := sources.step .nobody hnested hold hcut hcut hn
      rcases hres : w.step nested q cut .nobody cut.servers j with
        ⟨fault | (next | next), j'⟩
      all_goals
        rw [hres] at hstep
        simp only [Walker.descend, hres]
      · exact ⟨hstep.1, by simp⟩
      · refine ⟨hstep.1, ?_⟩
        intro last hl
        rw [← Except.ok.inj hl]
        exact hstep.2 _ rfl
      · have hmore := ih (hold.trans hstep.1.1) (hstep.2 _ rfl)
          (sources.name_mono hn hstep.1.1)
        exact ⟨hstep.1.trans hmore.1, hmore.2⟩

theorem Sources.walkWith (sources : w.Sources old address name)
    (hnested : ∀ search ∈ nested, Reaches old address name search)
    : Reaches old address name (w.walkWith nested) := by
  intro q j hold hn
  unfold Walker.walkWith
  split
  · exact ⟨.refl _ _, by simp⟩
  · next cut hcut => exact sources.descend hnested hold (sources.start hcut) hn

/-- A walk reaches known servers at any depth of nesting, by induction on the depth. -/
theorem Sources.walk (sources : w.Sources old address name) (depth : Nat)
    : Reaches old address name (w.walk depth) := by
  induction depth with
  | zero => exact sources.walkWith (by simp)
  | succ depth ih =>
      apply sources.walkWith
      intro search hs
      rw [Option.mem_some] at hs
      exact hs ▸ ih

-----------------------------------------------------------------------------------------
-- Collecting, and whole runs
-----------------------------------------------------------------------------------------

/-- Asking known servers for an authoritative answer sends only messages to them, by induction
on the servers.
-/
theorem Sources.firstAuthoritative (sources : w.Sources old address name) (type : RecordType)
    (cause : Cause) {servers : List Server} (hs : ∀ s ∈ servers, address j.sends s.address)
    (hn : name j.sends q.name)
    : SentSince (Sourced address name) j.sends
        (w.firstAuthoritative q type cause servers j).2.sends := by
  induction servers generalizing cause j with
  | nil => exact .refl _ _
  | cons server rest ih =>
      have hsent := sources.ask type (hs server (by simp)) hn
      have later (cause' : Cause) {j' : Journal}
          (h : SentSince (Sourced address name) j.sends j'.sends)
          : SentSince (Sourced address name) j.sends
              (w.firstAuthoritative q type cause' rest j').2.sends :=
        h.trans <| ih cause'
          (fun s h' => sources.address_mono (hs s (List.mem_cons_of_mem server h')) h.1)
          (sources.name_mono hn h.1)
      rcases hask : w.ask server q type j with ⟨refusal | fault | r, j'⟩
      all_goals
        rw [hask] at hsent
        simp only [Walker.firstAuthoritative, hask]
      · exact hsent
      · exact later _ hsent
      · split
        · exact hsent
        · exact later _ hsent

/-- Asking one nameserver for several types sends only messages to its addresses, by induction
on the types.
-/
theorem Sources.collectTypes (sources : w.Sources old address name) {servers : List Server}
    (types : List RecordType) (c : Collected)
    (hs : ∀ s ∈ servers, address j.sends s.address) (hn : name j.sends q.name)
    : SentSince (Sourced address name) j.sends
        (w.collectTypes q servers types c j).2.sends := by
  induction types generalizing c j with
  | nil => exact .refl _ _
  | cons type rest ih =>
      have hsent := sources.firstAuthoritative type c.cause hs hn
      have later (c' : Collected) {j' : Journal}
          (h : SentSince (Sourced address name) j.sends j'.sends)
          : SentSince (Sourced address name) j.sends
              (w.collectTypes q servers rest c' j').2.sends :=
        h.trans <| ih c' (fun s hs' => sources.address_mono (hs s hs') h.1)
          (sources.name_mono hn h.1)
      rcases hfirst : w.firstAuthoritative q type c.cause servers j
        with ⟨refusal | cause | r, j'⟩
      all_goals
        rw [hfirst] at hsent
        simp only [Walker.collectTypes, hfirst]
      · exact hsent
      · exact later _ hsent
      · split
        · exact hsent
        · exact later _ hsent

/-- Asking the nameservers of a cut sends only messages to the addresses of the cut, by
induction on the nameservers.
-/
theorem Sources.collectNames (sources : w.Sources old address name) {cut : Cut}
    (wanted : List RecordType) (names : List String) (c : Collected)
    (hcut : ∀ s ∈ cut.servers, address j.sends s.address) (hn : name j.sends q.name)
    : SentSince (Sourced address name) j.sends
        (w.collectNames q cut wanted names c j).2.sends := by
  induction names generalizing c j with
  | nil => exact .refl _ _
  | cons ns rest ih =>
      have hpart : ∀ s ∈ cut.servers.filter fun s => s.name = ns, address j.sends s.address :=
        fun s h => hcut s (List.mem_filter.1 h).1
      have hsent := sources.collectTypes wanted c hpart hn
      rcases htypes : w.collectTypes q (cut.servers.filter fun s => s.name = ns) wanted c j
        with ⟨refusal | c', j'⟩
      all_goals
        rw [htypes] at hsent
        simp only [Walker.collectNames, htypes]
      · exact hsent
      · exact hsent.trans <| ih _ (fun s h => sources.address_mono (hcut s h) hsent.1)
          (sources.name_mono hn hsent.1)

/-- What a lookup sends goes to known addresses and asks about known names, when the name of
the domain is known.
-/
theorem Sources.resolve {nameservers addresses : Bool} {domain : String}
    (sources : w.Sources j.sends address name)
    (hdomain : ∀ q, Question.ofText (canonicalName domain) = .ok q → name j.sends q.name)
    : SentSince (Sourced address name) j.sends
        (w.resolve nameservers addresses domain j).2.sends := by
  unfold Walker.resolve
  dsimp only
  split
  · next q hq =>
    have hwalk := sources.walk w.maxDepth q j (List.suffix_refl _) (hdomain q hq)
    rcases hres : w.walk w.maxDepth q j with ⟨fault | cut, j'⟩
    all_goals rw [hres] at hwalk
    · exact hwalk.1
    · have hcollect : (w.collect q cut (wantedTypes nameservers addresses) j').2
          = (w.collectNames q cut (wantedTypes nameservers addresses).eraseDups
              (cut.servers.map (·.name)).eraseDups ⟨.empty, .empty, [], .noAuthority⟩ j').2 := by
        unfold Walker.collect
        dsimp only
        split
        · next h => rw [h]
        · next h =>
          rw [h]
          split <;> rfl
      have hnames := sources.collectNames (wantedTypes nameservers addresses).eraseDups
        (cut.servers.map (·.name)).eraseDups ⟨.empty, .empty, [], .noAuthority⟩
        (hwalk.2 cut rfl) (sources.name_mono (hdomain q hq) hwalk.1.1)
      simp only [hcollect]
      exact hwalk.1.trans hnames
  · split
    · exact .refl _ _
    · split <;> exact .refl _ _

end Walker

end NameserverAudit
