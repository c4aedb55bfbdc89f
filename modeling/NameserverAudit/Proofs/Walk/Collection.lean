import Mathlib.Order.Basic
import NameserverAudit.Proofs.Exchange.Steady
import NameserverAudit.Proofs.Name.Reading
import NameserverAudit.Proofs.Walk.Asking
import NameserverAudit.Proofs.Walk.Responses
import NameserverAudit.Walk.Collection

/-! What is collected on a steady network. Every nameserver of a cut is asked for every wanted
type at one address after the other up to the first authoritative answer, and what is
published is the union of these answers, so it does not depend on the order of the nameservers.
If one of these answers has an address record of another class, nothing is published.
-/

namespace NameserverAudit

/-- The addresses of a nameserver in a cut, in their order there. -/
def Cut.named (cut : Cut) (ns : String) : List Server :=
  cut.servers.filter fun s => s.name = ns

namespace Walker

variable (w : Walker) (q : Question)

-----------------------------------------------------------------------------------------
-- Authoritative answers
-----------------------------------------------------------------------------------------

/-- The authoritative answer of a server on a steady network, if it gives one. -/
def authoritative? (type : RecordType) (server : Server) : Option Response :=
  match (w.manner.query w.network server.address q type .start).1 with
  | .ok r => if r.authoritative then some r else none
  | .error _ => none

/-- The first authoritative answer of several servers. -/
def firstAnswer? (type : RecordType) (servers : List Server) : Option Response :=
  servers.findSome? (w.authoritative? q type)

/-- The servers up to and including the first one with an authoritative answer. -/
def upToAnswer (type : RecordType) : List Server → List Server
  | [] => []
  | server :: rest =>
      if (w.authoritative? q type server).isSome then [server]
      else server :: upToAnswer type rest

/-- The queries to the addresses of one nameserver, type after type. -/
def queriesTo (servers : List Server) (types : List RecordType) : List (Server × RecordType) :=
  types.flatMap fun type => (w.upToAnswer q type servers).map fun s => (s, type)

/-- The queries at a cut: each nameserver is asked for each type that is wanted, nameservers
and types in the order in which they first come.
-/
def queriesAt (cut : Cut) (wanted : List RecordType) : List (Server × RecordType) :=
  (cut.servers.map (·.name)).eraseDups.flatMap fun ns =>
    w.queriesTo q (cut.named ns) wanted.eraseDups

/-- The answer is the first authoritative one of a nameserver of the cut. -/
def Answers (cut : Cut) (type : RecordType) (r : Response) : Prop :=
  ∃ ns ∈ cut.servers.map (·.name), w.firstAnswer? q type (cut.named ns) = some r

/-- Addresses can be read off all answers at a cut to the wanted types. -/
def Legible (cut : Cut) (wanted : List RecordType) : Prop :=
  ∀ type ∈ wanted, ∀ r, w.Answers q cut type r → r.foreignOf type = none

/-- What is gathered at a cut before anything is published. -/
def gathered (cut : Cut) (wanted : List RecordType) (j : Journal)
    : Except Refusal Collected × Journal :=
  w.collectNames q cut wanted.eraseDups (cut.servers.map (·.name)).eraseDups
    ⟨.empty, .empty, [], .noAuthority⟩ j

/-- The nameservers that an answer tells for a name. -/
def targetsOf (r : Response) : List String :=
  ((Response.nameserversOf? q.name r.answer).getD []).map DomainName.canonicalText

/-- The messages, last first, of queries to servers for types, in order. -/
def told (asked : List (Server × RecordType)) : List Sent :=
  asked.reverse.flatMap fun ask =>
    (w.manner.query w.network ask.1.address q ask.2 .start).2.sends

theorem told_append (asked more : List (Server × RecordType))
    : w.told q (asked ++ more) = w.told q more ++ w.told q asked := by
  simp [told]

/-- What an authoritative answer tells is gathered: the collection grows by the answers to
types, and by nothing else.
-/
structure Gathers (q : Question) (answers : RecordType → Response → Prop) (c c' : Collected)
    : Prop where
  nameservers
    : ∀ x,
        x ∈ c'.nameservers
        ↔ x ∈ c.nameservers ∨ ∃ r, answers .ns r ∧ x ∈ targetsOf q r
  addresses
    : ∀ x,
        x ∈ c'.addresses
        ↔ x ∈ c.addresses
          ∨ ∃ type r, type ≠ .ns ∧ answers type r ∧ x ∈ r.addressesOf type
  answered : ∀ type, type ∈ c'.answered ↔ type ∈ c.answered ∨ ∃ r, answers type r

variable {w q}

theorem Gathers.nothing {answers : RecordType → Response → Prop} {c : Collected} (cause : Cause)
    (h : ∀ type r, ¬answers type r)
    : Gathers q answers c { c with cause } := by
  constructor <;> simp [h]

theorem Gathers.trans {answers more : RecordType → Response → Prop} {c c' c'' : Collected}
    (h : Gathers q answers c c') (h' : Gathers q more c' c'')
    : Gathers q (fun type r => answers type r ∨ more type r) c c'' := by
  constructor
  · intro x
    rw [h'.nameservers, h.nameservers]
    simp only [or_and_right, exists_or, or_assoc]
  · intro x
    rw [h'.addresses, h.addresses]
    simp only [or_and_right, and_or_left, exists_or, or_assoc]
  · intro type
    rw [h'.answered, h.answered]
    simp only [exists_or, or_assoc]

theorem gathers_merge (type : RecordType) (c : Collected) (r : Response)
    : Gathers q (fun t s => t = type ∧ s = r) c (merge q type c r) := by
  have hanswered (t : RecordType)
      : t ∈ (if c.answered.contains type then c.answered else c.answered ++ [type])
        ↔ t ∈ c.answered ∨ ∃ s, t = type ∧ s = r := by
    split
    · next h =>
      have : type ∈ c.answered := by simpa using h
      simp only [exists_and_left, exists_eq, and_true]
      exact ⟨.inl, fun ht => ht.elim id fun ht => ht ▸ this⟩
    · simp
  by_cases htype : type = .ns
  · subst htype
    refine ⟨by simp [merge, targetsOf], fun x => ?_, hanswered⟩
    simp only [merge, if_true]
    refine ⟨.inl, fun h => h.elim id ?_⟩
    rintro ⟨t, s, hne, ⟨rfl, -⟩, -⟩
    exact absurd rfl hne
  · simp only [merge, htype, if_false]
    refine ⟨by simp [Ne.symm htype], fun x => ?_, hanswered⟩
    rw [TextSet.mem_union, TextSet.mem_ofList]
    refine or_congr_right ⟨fun hx => ⟨type, r, htype, ⟨rfl, rfl⟩, hx⟩, ?_⟩
    rintro ⟨t, s, -, ⟨rfl, rfl⟩, hx⟩
    exact hx

/-- `Gathering answers asked c j run`: of a run that comes to these answers by these queries, all
are gathered if addresses can be read off them, and otherwise the run is refused.
-/
inductive Gathering (w : Walker) (q : Question) (answers : RecordType → Response → Prop)
    (asked : List (Server × RecordType)) (c : Collected) (j : Journal)
    : Except Refusal Collected × Journal → Prop
  | gathered {c' : Collected} {k : Journal}
      (legible : ∀ type r, answers type r → r.foreignOf type = none)
      (gathers : Gathers q answers c c') (sent : k.sends = w.told q asked ++ j.sends)
      : Gathering w q answers asked c j (.ok c', k)
  | refused {type : RecordType} {r : Response} {record : ForeignAddress} {k : Journal}
      (answer : answers type r) (foreign : r.foreignOf type ≠ none)
      : Gathering w q answers asked c j (.error (.foreign record), k)

variable {answers more : RecordType → Response → Prop} {asked later : List (Server × RecordType)}
  {c c' : Collected} {j k : Journal} {run : Except Refusal Collected × Journal}

theorem Gathering.done (h : ∀ type r, ¬answers type r) : w.Gathering q answers [] c j (.ok c, j) :=
  .gathered (fun type r hr => absurd hr (h type r)) (.nothing c.cause h) rfl

theorem Gathering.congr (h : w.Gathering q answers asked c j run)
    (same : ∀ type r, answers type r ↔ more type r)
    : w.Gathering q more asked c j run := by
  have : answers = more := by
    funext type r
    exact propext (same type r)
  exact this ▸ h

/-- What is gathered first is gathered along with what comes later. -/
theorem Gathering.after (h : w.Gathering q more later c' k run) (gathers : Gathers q answers c c')
    (legible : ∀ type r, answers type r → r.foreignOf type = none)
    (sent : k.sends = w.told q asked ++ j.sends)
    : w.Gathering q (fun type r => answers type r ∨ more type r) (asked ++ later) c j run := by
  cases h with
  | gathered legible' gathers' sent' =>
      refine .gathered (fun type r hr => hr.elim (legible type r) (legible' type r))
        (gathers.trans gathers') ?_
      rw [sent', sent, told_append, List.append_assoc]
  | refused answer foreign => exact .refused (.inr answer) foreign

-----------------------------------------------------------------------------------------
-- Steady networks
-----------------------------------------------------------------------------------------

section Steady

variable (fits : w.manner.Fits) (steady : w.network.Steady)

include fits steady

/-- Servers are asked in turn up to the first authoritative answer, by induction on them. -/
theorem firstAuthoritative_steady (type : RecordType) (cause : Cause) (servers : List Server)
    (j : Journal)
    : (∃ cause', (w.firstAuthoritative q type cause servers j).1
            = match w.firstAnswer? q type servers with
              | none => .ok (.error cause')
              | some r => .ok (.ok r))
      ∧ (w.firstAuthoritative q type cause servers j).2.sends
        = w.told q ((w.upToAnswer q type servers).map fun s => (s, type)) ++ j.sends := by
  induction servers generalizing cause j with
  | nil => exact ⟨⟨cause, rfl⟩, rfl⟩
  | cons server rest ih =>
      obtain ⟨hanswer, hsends⟩ := w.manner.query_steady steady server.address j q type
      have hask := w.ask_of_fits server q type j fits
      rcases hquery : w.manner.query w.network server.address q type j with ⟨fault | r, j'⟩
      all_goals
        rw [hquery] at hanswer hsends hask
        simp only [firstAuthoritative, hask]
      · have hnone : w.authoritative? q type server = none := by
          simp [authoritative?, ← hanswer]
        obtain ⟨hfirst, hrest⟩ := ih (.query fault) j'
        rw [hrest, hsends]
        exact ⟨by simpa [firstAnswer?, hnone] using hfirst, by simp [upToAnswer, hnone, told]⟩
      · by_cases haa : r.authoritative = true
        · have hsome : w.authoritative? q type server = some r := by
            simp [authoritative?, ← hanswer, haa]
          rw [if_pos haa, hsends]
          exact ⟨⟨cause, by simp [firstAnswer?, hsome]⟩, by simp [upToAnswer, hsome, told]⟩
        · have hnone : w.authoritative? q type server = none := by
            simp [authoritative?, ← hanswer, haa]
          obtain ⟨hfirst, hrest⟩ := ih (.notAuthoritative server q.text) j'
          rw [if_neg haa, hrest, hsends]
          exact ⟨by simpa [firstAnswer?, hnone] using hfirst, by simp [upToAnswer, hnone, told]⟩

/-- One nameserver is asked for one type after the other, and its answers are gathered, by
induction on the types.
-/
theorem collectTypes_steady (servers : List Server) (types : List RecordType) (c : Collected)
    (j : Journal)
    : w.Gathering q (fun type r => type ∈ types ∧ w.firstAnswer? q type servers = some r)
        (w.queriesTo q servers types) c j (w.collectTypes q servers types c j) := by
  induction types generalizing c j with
  | nil => exact .done fun type r h => List.not_mem_nil h.1
  | cons type rest ih =>
      obtain ⟨⟨cause, hanswer⟩, hsends⟩ :=
        firstAuthoritative_steady fits steady type c.cause servers j
      rcases hfirst : w.firstAuthoritative q type c.cause servers j with ⟨outcome, k⟩
      rw [hfirst] at hanswer hsends
      rw [queriesTo, List.flatMap_cons]
      cases hr : w.firstAnswer? q type servers with
      | none =>
          rw [hr] at hanswer
          obtain rfl : outcome = .ok (.error cause) := hanswer
          simp only [collectTypes, hfirst]
          apply ((ih { c with cause } k).after (.nothing cause fun _ _ => id)
            (fun _ _ => False.elim) hsends).congr
          intro t r
          rw [false_or, List.mem_cons]
          refine ⟨fun h => ⟨.inr h.1, h.2⟩, ?_⟩
          rintro ⟨rfl | ht, hr'⟩
          · cases hr.symm.trans hr'
          · exact ⟨ht, hr'⟩
      | some r =>
          rw [hr] at hanswer
          obtain rfl : outcome = .ok (.ok r) := hanswer
          cases hforeign : r.foreignOf type with
          | some record =>
              simp only [collectTypes, hfirst, hforeign]
              exact .refused ⟨List.mem_cons_self, hr⟩ (by simp [hforeign])
          | none =>
              simp only [collectTypes, hfirst, hforeign]
              apply ((ih (merge q type c r) k).after (gathers_merge type c r)
                (by rintro _ _ ⟨rfl, rfl⟩; exact hforeign) hsends).congr
              intro t s
              rw [List.mem_cons]
              constructor
              · rintro (⟨rfl, rfl⟩ | ⟨ht, hs⟩)
                · exact ⟨.inl rfl, hr⟩
                · exact ⟨.inr ht, hs⟩
              · rintro ⟨rfl | ht, hs⟩
                · exact .inl ⟨rfl, Option.some.inj (hs.symm.trans hr)⟩
                · exact .inr ⟨ht, hs⟩

/-- The nameservers are asked one after the other, and their answers are gathered, by induction
on the nameservers.
-/
theorem collectNames_steady (cut : Cut) (types : List RecordType) (names : List String)
    (c : Collected) (j : Journal)
    : w.Gathering q
        (fun type r =>
          type ∈ types ∧ ∃ ns ∈ names, w.firstAnswer? q type (cut.named ns) = some r)
        (names.flatMap fun ns => w.queriesTo q (cut.named ns) types) c j
        (w.collectNames q cut types names c j) := by
  induction names generalizing c j with
  | nil => exact .done (by simp)
  | cons ns rest ih =>
      have first := collectTypes_steady (q := q) fits steady (cut.named ns) types c j
      rcases htypes : w.collectTypes q (cut.named ns) types c j with ⟨outcome, k⟩
      rw [htypes] at first
      unfold Cut.named at htypes
      rw [List.flatMap_cons]
      cases first with
      | gathered legible gathers asked =>
          simp only [collectNames, htypes]
          apply ((ih _ k).after gathers legible asked).congr
          intro t r
          rw [← and_or_left]
          simp only [List.mem_cons, exists_eq_or_imp]
      | refused answer foreign =>
          simp only [collectNames, htypes]
          exact .refused ⟨answer.1, ns, List.mem_cons_self, answer.2⟩ foreign

/-- Whatever types are wanted, the first authoritative answers to them are gathered from the
nameservers of the cut, and no other queries are made.
-/
theorem gathered_steady (cut : Cut) (wanted : List RecordType) (j : Journal)
    : w.Gathering q (fun type r => type ∈ wanted ∧ w.Answers q cut type r)
        (w.queriesAt q cut wanted) ⟨.empty, .empty, [], .noAuthority⟩ j
        (w.gathered q cut wanted j) := by
  refine (collectNames_steady fits steady cut wanted.eraseDups
    (cut.servers.map (·.name)).eraseDups ⟨.empty, .empty, [], .noAuthority⟩ j).congr ?_
  intro type r
  simp only [List.mem_eraseDups, Answers]

end Steady

-----------------------------------------------------------------------------------------
-- What is published
-----------------------------------------------------------------------------------------

/-- What is published is the union of the first authoritative answers of the nameservers of a
cut to the wanted types.
-/
structure IsUnion (w : Walker) (q : Question) (cut : Cut) (wanted : List RecordType)
    (p : Published)
    : Prop where
  nameservers
    : ∀ x,
        x ∈ p.nameservers
        ↔ .ns ∈ wanted ∧ ∃ r, w.Answers q cut .ns r ∧ x ∈ targetsOf q r
  addresses
    : ∀ x,
        x ∈ p.addresses
        ↔ ∃ type ∈ wanted,
            (type = .a ∨ type = .aaaa)
            ∧ ∃ r, w.Answers q cut type r ∧ x ∈ r.addressesOf type
  nameserversAnswered
    : p.nameserversAnswered = true ↔ .ns ∈ wanted ∧ ∃ r, w.Answers q cut .ns r
  addressesAnswered
    : p.addressesAnswered = true
      ↔ ∃ type ∈ wanted, (type = .a ∨ type = .aaaa) ∧ ∃ r, w.Answers q cut type r
  error : p.error = none

/-- Some nameserver of the cut has an authoritative answer to one of the types, if any is
wanted.
-/
def SomeAnswer (w : Walker) (q : Question) (cut : Cut) (wanted : List RecordType) : Prop :=
  wanted = [] ∨ ∃ type ∈ wanted, ∃ r, w.Answers q cut type r

/-- The answers at a cut depend on the addresses of each nameserver alone, in their order: where
there is an answer there is a nameserver.
-/
theorem answers_iff {cut : Cut} {type : RecordType} {r : Response}
    : w.Answers q cut type r ↔ ∃ ns, w.firstAnswer? q type (cut.named ns) = some r := by
  refine ⟨fun ⟨ns, _, hr⟩ => ⟨ns, hr⟩, fun ⟨ns, hr⟩ => ⟨ns, ?_, hr⟩⟩
  obtain ⟨server, hserver, -⟩ := List.exists_of_findSome?_eq_some hr
  obtain ⟨hmem, hname⟩ := List.mem_filter.1 hserver
  exact List.mem_map.2 ⟨server, hmem, by simpa using hname⟩

/-- The union of the answers is the same at cuts with the same addresses of each nameserver. -/
theorem IsUnion.iff_of_named {cut cut' : Cut} {wanted : List RecordType} {p : Published}
    (hcut : ∀ ns, cut'.named ns = cut.named ns)
    : w.IsUnion q cut' wanted p ↔ w.IsUnion q cut wanted p := by
  have hanswers (type : RecordType) (r : Response)
      : w.Answers q cut' type r ↔ w.Answers q cut type r := by
    simp only [answers_iff, hcut]
  constructor
  all_goals
    intro h
    constructor
    · simpa only [hanswers] using h.nameservers
    · simpa only [hanswers] using h.addresses
    · simpa only [hanswers] using h.nameserversAnswered
    · simpa only [hanswers] using h.addressesAnswered
    · exact h.error

theorem IsUnion.unique {cut : Cut} {wanted : List RecordType} {p p' : Published}
    (h : w.IsUnion q cut wanted p) (h' : w.IsUnion q cut wanted p')
    : p' = p := by
  have hnameservers : p'.nameservers = p.nameservers :=
    TextSet.ext fun x => by simp only [h.nameservers, h'.nameservers]
  have haddresses : p'.addresses = p.addresses :=
    TextSet.ext fun x => by simp only [h.addresses, h'.addresses]
  have hns : p'.nameserversAnswered = p.nameserversAnswered :=
    Bool.eq_iff_iff.2 (by simp only [h.nameserversAnswered, h'.nameserversAnswered])
  have ha : p'.addressesAnswered = p.addressesAnswered :=
    Bool.eq_iff_iff.2 (by simp only [h.addressesAnswered, h'.addressesAnswered])
  have herror : p'.error = p.error := h'.error.trans h.error.symm
  cases p
  cases p'
  simp_all

/-- What is published of a collection. -/
def publish (c : Collected) : Published :=
  { nameservers := c.nameservers
    addresses := c.addresses
    nameserversAnswered := c.answered.contains .ns
    addressesAnswered := c.answered.contains .a || c.answered.contains .aaaa
    error := none }

/-- What is gathered at a cut is published as the union of the answers there. -/
theorem Gathers.isUnion {cut : Cut} {wanted : List RecordType} {c : Collected}
    (h : Gathers q (fun type r => type ∈ wanted ∧ w.Answers q cut type r)
      ⟨.empty, .empty, [], .noAuthority⟩ c)
    : w.IsUnion q cut wanted (publish c) := by
  have hanswered (type : RecordType)
      : c.answered.contains type = true ↔ type ∈ wanted ∧ ∃ r, w.Answers q cut type r := by
    rw [List.contains_iff_mem, h.answered]
    simp
  unfold publish
  constructor
  · intro x
    simp [h.nameservers, and_assoc]
  · intro x
    rw [h.addresses]
    simp only [TextSet.not_mem_empty, false_or]
    constructor
    · rintro ⟨type, r, -, ⟨hwanted, hr⟩, hx⟩
      refine ⟨type, hwanted, ?_, r, hr, hx⟩
      obtain ⟨s, -, rfl, hs⟩ := Response.mem_addressesOf.1 hx
      exact (Content.family_of_mem_addresses hs).imp And.left And.left
    · rintro ⟨type, hwanted, htype, r, hr, hx⟩
      refine ⟨type, r, ?_, ⟨hwanted, hr⟩, hx⟩
      rcases htype with rfl | rfl <;> decide
  · exact hanswered .ns
  · rw [Bool.or_eq_true, hanswered, hanswered]
    constructor
    · rintro (⟨hwanted, hr⟩ | ⟨hwanted, hr⟩)
      · exact ⟨.a, hwanted, .inl rfl, hr⟩
      · exact ⟨.aaaa, hwanted, .inr rfl, hr⟩
    · rintro ⟨type, hwanted, rfl | rfl, hr⟩
      · exact .inl ⟨hwanted, hr⟩
      · exact .inr ⟨hwanted, hr⟩
  · rfl

/-- What is gathered is published, unless some type is wanted and none was answered. -/
theorem collect_eq (cut : Cut) (wanted : List RecordType) (j : Journal)
    : w.collect q cut wanted j
      = match w.gathered q cut wanted j with
        | (.error refusal, k) => (.error (.refused refusal), k)
        | (.ok c, k) =>
            if !wanted.isEmpty && c.answered.isEmpty then
              (.error (.unresolved ⟨.collection, c.cause⟩), k)
            else (.ok (publish c), k) :=
  rfl

theorem collect_snd_sends (cut : Cut) (wanted : List RecordType) (j : Journal)
    : (w.collect q cut wanted j).2.sends = (w.gathered q cut wanted j).2.sends := by
  rw [collect_eq]
  rcases w.gathered q cut wanted j with ⟨refusal | c, k⟩
  · rfl
  · dsimp only
    split <;> rfl

section Outcome

variable (fits : w.manner.Fits) (steady : w.network.Steady) (cut : Cut)
  (wanted : List RecordType) (j : Journal)

include fits steady

/-- On a steady network a collection ends with the union of the answers, or without an answer if
there are none; but it is refused if some address cannot be read off them.
-/
theorem collect_outcome
    : (w.Legible q cut wanted → w.SomeAnswer q cut wanted
          → ∃ p, (w.collect q cut wanted j).1 = .ok p ∧ w.IsUnion q cut wanted p)
      ∧ (w.Legible q cut wanted → ¬w.SomeAnswer q cut wanted
          → ∃ cause, (w.collect q cut wanted j).1 = .error (.unresolved ⟨.collection, cause⟩))
      ∧ (¬w.Legible q cut wanted
          → ∃ record, (w.collect q cut wanted j).1 = .error (.refused (.foreign record))) := by
  rw [collect_eq]
  have gathering := gathered_steady (q := q) fits steady cut wanted j
  generalize w.gathered q cut wanted j = run at gathering ⊢
  cases gathering with
  | @gathered c _ legible gathers _ =>
      have hempty
          : (!wanted.isEmpty && c.answered.isEmpty) = true ↔ ¬w.SomeAnswer q cut wanted := by
        rw [Bool.and_eq_true, Bool.not_eq_true', List.isEmpty_eq_false_iff, List.isEmpty_iff,
          List.eq_nil_iff_forall_not_mem, SomeAnswer, not_or]
        simp only [gathers.answered, List.not_mem_nil, false_or, not_exists, not_and]
        exact and_congr_right fun _ => ⟨fun h t ht r => h t r ht, fun h t r ht => h t ht r⟩
      refine ⟨fun _ some => ?_, fun _ none => ?_, fun illegible => ?_⟩
      · dsimp only
        rw [if_neg fun h => hempty.1 h some]
        exact ⟨_, rfl, gathers.isUnion⟩
      · dsimp only
        rw [if_pos (hempty.2 none)]
        exact ⟨_, rfl⟩
      · exact absurd (fun type htype r hr => legible type r ⟨htype, hr⟩) illegible
  | refused answer foreign =>
      have illegible (legible : w.Legible q cut wanted) : False :=
        foreign (legible _ answer.1 _ answer.2)
      exact ⟨fun legible => (illegible legible).elim, fun legible => (illegible legible).elim,
        fun _ => ⟨_, rfl⟩⟩

/-- A collection has a result just if there is an answer and addresses can be read off all
answers, and then it is their union.
-/
theorem collect_eq_ok_iff (p : Published)
    : (w.collect q cut wanted j).1 = .ok p
      ↔ w.Legible q cut wanted ∧ w.SomeAnswer q cut wanted ∧ w.IsUnion q cut wanted p := by
  obtain ⟨found, nothing, refused⟩ := collect_outcome (q := q) fits steady cut wanted j
  constructor
  · intro h
    by_cases legible : w.Legible q cut wanted
    · by_cases some : w.SomeAnswer q cut wanted
      · obtain ⟨p', hp', union⟩ := found legible some
        rw [h, Except.ok.injEq] at hp'
        exact ⟨legible, some, hp' ▸ union⟩
      · obtain ⟨cause, hcause⟩ := nothing legible some
        cases h.symm.trans hcause
    · obtain ⟨record, hrecord⟩ := refused legible
      cases h.symm.trans hrecord
  · rintro ⟨legible, some, union⟩
    obtain ⟨p', hp', union'⟩ := found legible some
    rw [hp', union.unique union']

end Outcome

/-- On a steady network, with a payload that fits, each nameserver of a cut is asked for each
wanted type at one address after the other up to its first authoritative answer. If addresses
can be read off these answers, what is published is their union, and without any there is no
answer at all; if not, the collection is refused for a record of another class. The order of the
nameservers does not matter, only that of the addresses of each.
-/
theorem collect_is_union_of_first_answers (fits : w.manner.Fits) (steady : w.network.Steady)
    (q : Question) (cut : Cut) (wanted : List RecordType) (j : Journal)
    : (w.Legible q cut wanted →
          (w.collect q cut wanted j).2.sends = w.told q (w.queriesAt q cut wanted) ++ j.sends
          ∧ (w.SomeAnswer q cut wanted
              → ∃ p, (w.collect q cut wanted j).1 = .ok p ∧ w.IsUnion q cut wanted p)
          ∧ (¬w.SomeAnswer q cut wanted
              → ∃ cause,
                  (w.collect q cut wanted j).1 = .error (.unresolved ⟨.collection, cause⟩)))
      ∧ (¬w.Legible q cut wanted
          → ∃ record, (w.collect q cut wanted j).1 = .error (.refused (.foreign record)))
      ∧ ∀ cut' j', (∀ ns, cut'.named ns = cut.named ns) →
          (w.collect q cut' wanted j').1.toOption = (w.collect q cut wanted j).1.toOption := by
  obtain ⟨found, nothing, refused⟩ := collect_outcome (q := q) fits steady cut wanted j
  refine ⟨fun legible => ⟨?_, found legible, nothing legible⟩, refused, ?_⟩
  · rw [collect_snd_sends]
    have gathering := gathered_steady (q := q) fits steady cut wanted j
    generalize w.gathered q cut wanted j = run at gathering ⊢
    cases gathering with
    | gathered _ _ sent => exact sent
    | refused answer foreign => exact absurd (legible _ answer.1 _ answer.2) foreign
  · intro cut' j' hcut
    have same : ∀ p, (w.collect q cut' wanted j').1 = .ok p
        ↔ (w.collect q cut wanted j).1 = .ok p := by
      intro p
      have union : w.IsUnion q cut' wanted p ↔ w.IsUnion q cut wanted p :=
        IsUnion.iff_of_named hcut
      simp only [collect_eq_ok_iff fits steady, Legible, SomeAnswer, answers_iff, hcut, union]
    have toOption (r : Except WalkFault Published) (p : Published)
        : r.toOption = some p ↔ r = .ok p := by
      cases r <;> simp [Except.toOption]
    exact Option.ext fun p => by rw [toOption, toOption, same]

/-- A walker on a network where the first address of a nameserver is silent, the second one does
not answer for the name, and the third one disagrees with another nameserver.
-/
def disagreeingWalker : Walker :=
  let route (server : String) (r : Response) : Route :=
    ⟨.udp, server, "example.", "NS", [⟨.zero, .response r⟩]⟩
  let published (ns : String) : Response :=
    { Response.blank with
      authoritative := true
      answer := [⟨.written "example.", .nameservers [.written ns]⟩] }
  { directory := default
    ledger := .empty
    network := Network.ofRoutes [
      route "192.0.2.2" Response.blank,
      route "192.0.2.3" (published "ns.example."),
      route "192.0.2.4" (published "ns.other.")]
    manner := .standard
    families := [.known .ipv4]
    useDelegations := true
    maxSteps := 16
    maxDepth := 3 }

/-- A cut with the addresses of two nameservers. -/
def disagreeingCut : Cut :=
  ⟨.root, [
    ⟨"a.", "192.0.2.1"⟩, ⟨"b.", "192.0.2.4"⟩,
    ⟨"a.", "192.0.2.2"⟩, ⟨"a.", "192.0.2.3"⟩]⟩

theorem disagreeingWalker_collect
    : let w := disagreeingWalker
      let q : Question := ⟨"example.", .written "example."⟩
      let cut := disagreeingCut
      let wanted : List RecordType := [.ns, .a]
      (w.Legible q cut wanted →
          (w.collect q cut wanted .start).2.sends
            = w.told q (w.queriesAt q cut wanted) ++ Journal.start.sends
          ∧ (w.SomeAnswer q cut wanted
              → ∃ p, (w.collect q cut wanted .start).1 = .ok p ∧ w.IsUnion q cut wanted p)
          ∧ (¬w.SomeAnswer q cut wanted
              → ∃ cause,
                  (w.collect q cut wanted .start).1
                    = .error (.unresolved ⟨.collection, cause⟩)))
      ∧ (¬w.Legible q cut wanted
          → ∃ record,
              (w.collect q cut wanted .start).1 = .error (.refused (.foreign record)))
      ∧ ∀ cut' j', (∀ ns, cut'.named ns = cut.named ns) →
          (w.collect q cut' wanted j').1.toOption
            = (w.collect q cut wanted .start).1.toOption := by
  have fits : disagreeingWalker.manner.Fits := by
    unfold Manner.Fits
    decide
  have steady : disagreeingWalker.network.Steady :=
    Network.steady_ofRoutes (by simp)
  exact collect_is_union_of_first_answers fits steady ⟨"example.", .written "example."⟩
    disagreeingCut [.ns, .a] .start

/-- A walker on a network where the root server answers every question and publishes nothing. -/
def candidWalker : Walker :=
  { disagreeingWalker with
    directory := ⟨[⟨"a.root.", .ofList ["192.0.2.1"], .empty⟩], []⟩
    network := fun _ _ => ⟨.zero, .response { Response.blank with authoritative := true }⟩ }

/-- Counterexamples: with a payload of 70000 the servers of the cut are not asked, and the
collection has neither a result nor an end without an answer; and nor has it if they answer with an
address of the class Chaos, nor has the lookup of a text with an empty label, on a network where
every question is answered.
-/
theorem widePayload_not_collected
    : let w : Walker :=
        { disagreeingWalker with manner := { Manner.standard with payload := 70000 } }
      let q : Question := ⟨"example.", .written "example."⟩
      let chaos : Response :=
        { Response.blank with
          authoritative := true
          answer := [⟨q.name, .foreign .ipv4 [.number 1]⟩] }
      let chaotic : Walker :=
        { disagreeingWalker with network := fun _ _ => ⟨.zero, .response chaos⟩ }
      let collected := w.collect q disagreeingCut [.ns, .a] .start
      let looked := candidWalker.resolve true true "a..b" .start
      ((¬∃ p, collected.1 = .ok p)
        ∧ (¬∃ u, collected.1 = .error (.unresolved u))
        ∧ collected.2.sends = [])
      ∧ (chaotic.collect q disagreeingCut [.ns, .a] .start).1
        = .error (.refused (.foreign (.number 1)))
      ∧ (¬∃ p, looked.1 = .ok p)
      ∧ (¬∃ u, looked.1 = .error (.unresolved u))
      ∧ looked.2.sends = [] := by
  intro w q chaos chaotic collected looked
  have hcollected : collected = (.error (.refused (.payload ⟨70000⟩)), .start) := rfl
  have unnamed : Question.ofText (canonicalName "a..b") = .error .emptyLabel := by decide +kernel
  have begun : candidWalker.startCut (canonicalName "a..b")
      = .ok ⟨.root, [⟨"a.root.", "192.0.2.1"⟩]⟩ := by
    decide +kernel
  have hlooked : looked = (.error (.refused (.badName .emptyLabel)), .start) := by
    simp only [looked, resolve, unnamed, begun]
    rfl
  have hchaotic : (chaotic.collect q disagreeingCut [.ns, .a] .start).1
      = .error (.refused (.foreign (.number 1))) := by
    decide +kernel
  rw [hcollected, hlooked]
  exact ⟨⟨by simp, by simp, rfl⟩, hchaotic, by simp, by simp, rfl⟩

example
    : (disagreeingWalker.collect ⟨"example.", .written "example."⟩ disagreeingCut [.ns, .a]
          .start).1.toOption
      = some ⟨.ofList ["ns.example.", "ns.other."], .empty, true, false, none⟩ := by
  decide +kernel

end Walker

end NameserverAudit
