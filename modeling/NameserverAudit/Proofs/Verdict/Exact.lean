import NameserverAudit.Proofs.Address.Spelling
import NameserverAudit.Verdict.Basic

/-! What a verdict says. Names count by their canonical texts and literals by their addresses, so
no spelling matters. Main statement: a verdict reports exactly the anomalies of its axes, in order
and once each, and stays the same however names and addresses are spelled.
-/

namespace NameserverAudit

open Text

-----------------------------------------------------------------------------------------
-- Literals
-----------------------------------------------------------------------------------------

/-- The text is a literal of the address, blanks around it aside. -/
def IsLiteralOf (raw : String) (a : Address) : Prop :=
  Address.ofText? (strip raw) = some a

instance (raw : String) (a : Address) : Decidable (IsLiteralOf raw a) :=
  inferInstanceAs (Decidable (_ = _))

namespace IsLiteralOf

variable {raw raw' : String} {a b : Address}

theorem wellScoped (h : IsLiteralOf raw a) : a.WellScoped :=
  Address.wellScoped_of_read h

theorem unique (h : IsLiteralOf raw a) (h' : IsLiteralOf raw b) : a = b :=
  Option.some.inj (h.symm.trans h')

theorem publishedAddress_eq (h : IsLiteralOf raw a) : Verdict.publishedAddress raw = a.text := by
  unfold IsLiteralOf at h
  rw [Verdict.publishedAddress, canonicalAddress?, h]
  rfl

end IsLiteralOf

theorem canonicalAddress_eq_ok_iff_exists {raw s : String}
    : canonicalAddress raw = .ok s ↔ ∃ a, IsLiteralOf raw a ∧ a.text = s := by
  unfold canonicalAddress canonicalAddress? IsLiteralOf
  cases Address.ofText? (strip raw) <;> simp

theorem Verdict.publishedAddress_of_no_literal {raw : String} (h : ∀ a, ¬IsLiteralOf raw a)
    : publishedAddress raw = String.ofList (lower (trim raw.toList)) := by
  have none : Address.ofText? (strip raw) = none := Option.eq_none_iff_forall_ne_some.2 h
  rw [publishedAddress, canonicalAddress?, none]
  rfl

/-- A published address has the canonical text of an address just if it is a literal of it: the
text that stands for one that is no literal is not the canonical text of any.
-/
theorem Verdict.publishedAddress_eq_text_iff {raw : String} {a : Address} (ha : a.WellScoped)
    : publishedAddress raw = a.text ↔ IsLiteralOf raw a := by
  constructor
  · intro h
    by_cases literal : ∃ b, IsLiteralOf raw b
    · obtain ⟨b, hb⟩ := literal
      rw [hb.publishedAddress_eq] at h
      exact Address.eq_of_text_eq hb.wellScoped ha h ▸ hb
    · rw [publishedAddress_of_no_literal (not_exists.1 literal)] at h
      have lowered : lower (trim raw.toList) = a.text.toList := by
        rw [← h, String.toList_ofList]
      obtain ⟨b, hb⟩ := Address.read_of_lower ha lowered
      refine absurd ⟨b, ?_⟩ literal
      rwa [IsLiteralOf, strip, Address.ofText?, String.toList_ofList]
  · exact IsLiteralOf.publishedAddress_eq

/-- Two texts are the same, or literals of one address. -/
def SameAddress (a b : String) : Prop :=
  a = b ∨ ∃ address, IsLiteralOf a address ∧ IsLiteralOf b address

theorem SameAddress.publishedAddress_eq {a b : String} (h : SameAddress a b)
    : Verdict.publishedAddress a = Verdict.publishedAddress b := by
  rcases h with rfl | ⟨address, ha, hb⟩
  · rfl
  · rw [ha.publishedAddress_eq, hb.publishedAddress_eq]

-----------------------------------------------------------------------------------------
-- Sets of texts in other spellings
-----------------------------------------------------------------------------------------

/-- Each text of one list is the same as some text of the other one. -/
structure Respelling (same : String → String → Prop) (xs ys : List String) : Prop where
  left : ∀ x ∈ xs, ∃ y ∈ ys, same x y
  right : ∀ y ∈ ys, ∃ x ∈ xs, same x y

theorem Respelling.refl {same : String → String → Prop} (h : ∀ x, same x x) (xs : List String)
    : Respelling same xs xs :=
  ⟨fun x hx => ⟨x, hx, h x⟩, fun x hx => ⟨x, hx, h x⟩⟩

theorem TextSet.mem_ofList_map {xs : List String} {f : String → String} {s : String}
    : s ∈ ofList (xs.map f) ↔ ∃ x ∈ xs, f x = s := by
  rw [mem_ofList, List.mem_map]

theorem TextSet.ofList_map_eq_iff {xs ys : List String} {f : String → String}
    : ofList (xs.map f) = ofList (ys.map f)
      ↔ ∀ s, (∃ x ∈ xs, f x = s) ↔ ∃ y ∈ ys, f y = s := by
  constructor
  · intro h s
    rw [← mem_ofList_map, h, mem_ofList_map]
  · intro h
    apply ext
    intro s
    rw [mem_ofList_map, mem_ofList_map]
    exact h s

/-- Respelled texts make one set if the form that is taken of them does not depend on the
spelling.
-/
theorem Respelling.ofList_map_eq {same : String → String → Prop} {xs ys : List String}
    (h : Respelling same xs ys) {f : String → String} (form : ∀ x y, same x y → f x = f y)
    : TextSet.ofList (xs.map f) = TextSet.ofList (ys.map f) := by
  rw [TextSet.ofList_map_eq_iff]
  intro s
  constructor
  · rintro ⟨x, hx, rfl⟩
    obtain ⟨y, hy, hxy⟩ := h.left x hx
    exact ⟨y, hy, (form x y hxy).symm⟩
  · rintro ⟨y, hy, rfl⟩
    obtain ⟨x, hx, hxy⟩ := h.right y hy
    exact ⟨x, hx, form x y hxy⟩

-----------------------------------------------------------------------------------------
-- Expectations
-----------------------------------------------------------------------------------------

namespace Expected

/-- Literals have canonical texts, those of their addresses, by induction on them. -/
theorem canonicalAddresses_of_literals {xs : List String}
    (literals : ∀ raw ∈ xs, ∃ a, IsLiteralOf raw a)
    : canonicalAddresses xs = .ok (xs.map Verdict.publishedAddress) := by
  induction xs with
  | nil => rfl
  | cons raw rest ih =>
      obtain ⟨a, ha⟩ := literals raw (by simp)
      have here := canonicalAddress_eq_ok_iff_exists.2 ⟨a, ha, rfl⟩
      have later := ih fun raw hraw => literals raw (List.mem_cons_of_mem _ hraw)
      simp only [canonicalAddresses, here, later, List.map_cons, ha.publishedAddress_eq]

/-- Only literals have canonical texts, by induction on the texts. -/
theorem literal_of_canonicalAddresses {xs ys : List String}
    (h : canonicalAddresses xs = .ok ys)
    : ∀ raw ∈ xs, ∃ a, IsLiteralOf raw a := by
  induction xs generalizing ys with
  | nil => simp
  | cons first rest ih =>
      simp only [canonicalAddresses] at h
      split at h
      · cases h
      · next s hs =>
        split at h
        · cases h
        · next more hmore =>
          intro raw hraw
          rcases List.mem_cons.1 hraw with rfl | hraw
          · obtain ⟨a, ha, -⟩ := canonicalAddress_eq_ok_iff_exists.1 hs
            exact ⟨a, ha⟩
          · exact ih hmore raw hraw

variable {domain : String} {names addresses : Option (List String)} {e : Expected}

/-- What is expected of a domain exactly if all given addresses are literals: the names and the
addresses in canonical form.
-/
theorem create_eq_ok_iff
    : create domain names addresses = .ok e
      ↔ (∀ xs, addresses = some xs → ∀ raw ∈ xs, ∃ a, IsLiteralOf raw a)
        ∧ e = ⟨domain, names.map fun xs => .ofList (xs.map canonicalName),
            addresses.map fun xs => .ofList (xs.map Verdict.publishedAddress)⟩ := by
  cases addresses with
  | none => simp [create, eq_comm]
  | some xs =>
      by_cases literals : ∀ raw ∈ xs, ∃ a, IsLiteralOf raw a
      · simp only [create, canonicalAddresses_of_literals literals, Except.ok.injEq,
          Option.some.injEq, Option.map_some, forall_eq']
        exact ⟨fun h => ⟨literals, h.symm⟩, fun h => h.2.symm⟩
      · cases hread : canonicalAddresses xs with
        | ok ys => exact absurd (literal_of_canonicalAddresses hread) literals
        | error refusal => simp [create, hread, literals]

end Expected

-----------------------------------------------------------------------------------------
-- Axes
-----------------------------------------------------------------------------------------

/-- What an axis contributes to a verdict, depending on if it is checked, if it was answered and
if what was found agrees with what is expected.
-/
inductive AxisAnomaly (checked answered agrees : Prop) (mismatch : Anomaly)
    : Option Anomaly → Prop
  | unchecked (h : ¬checked) : AxisAnomaly checked answered agrees mismatch none
  | unanswered (h : checked) (silent : ¬answered)
      : AxisAnomaly checked answered agrees mismatch (some .unresolved)
  | differs (h : checked) (told : answered) (other : ¬agrees)
      : AxisAnomaly checked answered agrees mismatch (some mismatch)
  | asExpected (h : checked) (told : answered) (same : agrees)
      : AxisAnomaly checked answered agrees mismatch none

/-- Judging an axis finds its anomaly. -/
theorem Verdict.judge_axisAnomaly {expected : Option (List String)} {set : List String → TextSet}
    {answered : Bool} {found : TextSet} {mismatch : Anomaly} {agrees : Prop}
    (exact : ∀ xs, expected = some xs → (found = set xs ↔ agrees))
    : AxisAnomaly (expected.isSome = true) (answered = true) agrees mismatch
        (judge (expected.map set) answered found mismatch) := by
  cases expected with
  | none => exact .unchecked (by simp)
  | some xs =>
      have agree := exact xs rfl
      cases answered with
      | false => exact .unanswered rfl Bool.false_ne_true
      | true =>
          by_cases same : found = set xs
          · have none : judge (some (set xs)) true found mismatch = none := by
              simp [judge, same]
            rw [Option.map_some, none]
            exact .asExpected rfl rfl (agree.1 same)
          · have some_mismatch : judge (some (set xs)) true found mismatch = some mismatch := by
              simp [judge, same]
            rw [Option.map_some, some_mismatch]
            exact .differs rfl rfl (mt agree.2 same)

/-- The anomalies of two axes: that of the first, then that of the second if it is another. -/
theorem Verdict.anomalies_eq (names addresses : Option Anomaly)
    : anomalies names addresses
      = names.toList ++ (addresses.filter fun a => some a ≠ names).toList := by
  cases names with
  | none => cases addresses <;> rfl
  | some a =>
      cases addresses with
      | none => rfl
      | some b =>
          by_cases same : a = b
          · simp [anomalies, same]
          · simp [anomalies, same, Option.filter_some, Ne.symm same]

theorem Verdict.anomalies_nodup (names addresses : Option Anomaly)
    : (anomalies names addresses).Nodup := by
  cases names with
  | none => cases addresses <;> simp [anomalies]
  | some a =>
      cases addresses with
      | none => simp [anomalies]
      | some b => by_cases same : a = b <;> simp [anomalies, same]

theorem Verdict.mem_anomalies {names addresses : Option Anomaly} {a : Anomaly}
    : a ∈ anomalies names addresses ↔ names = some a ∨ addresses = some a := by
  cases names with
  | none => cases addresses <;> simp [anomalies, eq_comm]
  | some b =>
      cases addresses with
      | none => simp [anomalies, eq_comm]
      | some c => by_cases same : b = c <;> simp [anomalies, same, eq_comm]

-----------------------------------------------------------------------------------------
-- Verdicts
-----------------------------------------------------------------------------------------

/-- The names are the same, by their canonical texts. -/
def NamesAgree (names : List String) (p : Published) : Prop :=
  ∀ s, (∃ n ∈ p.nameservers, canonicalName n = s) ↔ ∃ n ∈ names, canonicalName n = s

/-- All published texts are literals, and they are literals of the same addresses. -/
def AddressesAgree (addresses : List String) (p : Published) : Prop :=
  (∀ raw ∈ p.addresses, ∃ a, IsLiteralOf raw a)
  ∧ ∀ a, (∃ raw ∈ p.addresses, IsLiteralOf raw a) ↔ ∃ raw ∈ addresses, IsLiteralOf raw a

/-- What a verdict says about published data, if names and literals are expected or not. -/
structure Verdict.Exact (domain : String) (names addresses : Option (List String))
    (p : Published) (v : Verdict)
    : Prop where
  domain_eq : v.domain = domain
  /-- The anomaly of the nameservers comes first, then that of the addresses if it is another. -/
  flags : ∃ ns ip : Option Anomaly,
    AxisAnomaly (names.isSome = true) (p.nameserversAnswered = true)
      (NamesAgree (names.getD []) p) .nameserversDiffer ns
    ∧ AxisAnomaly (addresses.isSome = true) (p.addressesAnswered = true)
      (AddressesAgree (addresses.getD []) p) .addressesDiffer ip
    ∧ v.flags = ns.toList ++ (ip.filter fun a => some a ≠ ns).toList
  once : v.flags.Nodup
  reasons : v.reasons = v.flags.map Anomaly.reason
  success : v.success = true ↔ v.flags = []
  names_listed : v.nameservers.Pairwise (· < ·)
    ∧ ∀ s, s ∈ v.nameservers ↔ ∃ n ∈ p.nameservers, canonicalName n = s
  /-- A literal is listed by its address, and any other text as it is, but in lower case. -/
  addresses_listed : v.addresses.Pairwise (· < ·)
    ∧ ∀ s, s ∈ v.addresses ↔
        ∃ raw ∈ p.addresses,
          (∃ a, IsLiteralOf raw a ∧ a.text = s)
          ∨ (∀ a, ¬IsLiteralOf raw a) ∧ String.ofList (lower (trim raw.toList)) = s
  no_literal : addresses.isSome = true → p.addressesAnswered = true →
    ∀ raw ∈ p.addresses, (∀ a, ¬IsLiteralOf raw a) → .addressesDiffer ∈ v.flags

/-- Published data that are the same but for the spelling of names and addresses. -/
structure Published.Respelled (p q : Published) : Prop where
  nameservers : Respelling SameName p.nameservers.toList q.nameservers.toList
  addresses : Respelling SameAddress p.addresses.toList q.addresses.toList
  nameserversAnswered : p.nameserversAnswered = q.nameserversAnswered
  addressesAnswered : p.addressesAnswered = q.addressesAnswered

/-- The forms of published texts that a verdict lists. -/
theorem Verdict.publishedAddress_eq_iff {raw s : String}
    : publishedAddress raw = s
      ↔ (∃ a, IsLiteralOf raw a ∧ a.text = s)
        ∨ (∀ a, ¬IsLiteralOf raw a) ∧ String.ofList (lower (trim raw.toList)) = s := by
  by_cases literal : ∃ a, IsLiteralOf raw a
  · obtain ⟨a, ha⟩ := literal
    rw [ha.publishedAddress_eq]
    constructor
    · rintro rfl
      exact .inl ⟨a, ha, rfl⟩
    · rintro (⟨b, hb, rfl⟩ | ⟨none, -⟩)
      · rw [ha.unique hb]
      · exact absurd ha (none a)
  · have none := not_exists.1 literal
    rw [publishedAddress_of_no_literal none]
    constructor
    · exact fun h => .inr ⟨none, h⟩
    · rintro (⟨a, ha, -⟩ | ⟨-, h⟩)
      · exact absurd ha (none a)
      · exact h

/-- Published addresses agree with expected literals just if the sets of their forms are equal:
no other text has the form of a literal, and literals of one form are of one address.
-/
theorem addressesAgree_iff {xs : List String} {p : Published}
    (literals : ∀ raw ∈ xs, ∃ a, IsLiteralOf raw a)
    : TextSet.ofList (p.addresses.toList.map Verdict.publishedAddress)
        = TextSet.ofList (xs.map Verdict.publishedAddress)
      ↔ AddressesAgree xs p := by
  have forms {ys : List String} {a : Address} (scope : a.WellScoped)
      : (∃ raw ∈ ys, Verdict.publishedAddress raw = a.text)
        ↔ ∃ raw ∈ ys, IsLiteralOf raw a :=
    exists_congr fun raw => and_congr_right fun _ =>
      Verdict.publishedAddress_eq_text_iff scope
  rw [TextSet.ofList_map_eq_iff]
  constructor
  · intro same
    refine ⟨fun raw hraw => ?_, fun a => ⟨?_, ?_⟩⟩
    · obtain ⟨x, hx, heq⟩ := (same _).1 ⟨raw, hraw, rfl⟩
      obtain ⟨a, ha⟩ := literals x hx
      rw [ha.publishedAddress_eq] at heq
      exact ⟨a, (Verdict.publishedAddress_eq_text_iff ha.wellScoped).1 heq.symm⟩
    · rintro ⟨raw, hraw, ha⟩
      exact (forms ha.wellScoped).1 ((same _).1 ((forms ha.wellScoped).2 ⟨raw, hraw, ha⟩))
    · rintro ⟨x, hx, ha⟩
      exact (forms ha.wellScoped).1 ((same _).2 ((forms ha.wellScoped).2 ⟨x, hx, ha⟩))
  · rintro ⟨all, same⟩ s
    constructor
    · rintro ⟨raw, hraw, rfl⟩
      obtain ⟨a, ha⟩ := all raw hraw
      rw [ha.publishedAddress_eq, forms ha.wellScoped]
      exact (same a).1 ⟨raw, hraw, ha⟩
    · rintro ⟨x, hx, rfl⟩
      obtain ⟨a, ha⟩ := literals x hx
      rw [ha.publishedAddress_eq]
      exact (forms ha.wellScoped).2 ((same a).2 ⟨x, hx, ha⟩)

/-- A verdict against an expectation that was made of names and literals is exact. -/
theorem Verdict.of_exact {domain : String} {names addresses : Option (List String)} {e : Expected}
    (h : Expected.create domain names addresses = .ok e) (p : Published)
    : Exact domain names addresses p (.of e p) := by
  obtain ⟨literals, rfl⟩ := Expected.create_eq_ok_iff.1 h
  let found := TextSet.ofList (p.nameservers.toList.map canonicalName)
  let listed := TextSet.ofList (p.addresses.toList.map publishedAddress)
  have ns : AxisAnomaly (names.isSome = true) (p.nameserversAnswered = true)
      (NamesAgree (names.getD []) p) .nameserversDiffer
      (judge (names.map fun xs => .ofList (xs.map canonicalName)) p.nameserversAnswered found
        .nameserversDiffer) := by
    apply judge_axisAnomaly
    rintro xs rfl
    exact TextSet.ofList_map_eq_iff
  have ip : AxisAnomaly (addresses.isSome = true) (p.addressesAnswered = true)
      (AddressesAgree (addresses.getD []) p) .addressesDiffer
      (judge (addresses.map fun xs => .ofList (xs.map publishedAddress)) p.addressesAnswered
        listed .addressesDiffer) := by
    apply judge_axisAnomaly
    rintro xs rfl
    exact addressesAgree_iff (literals xs rfl)
  constructor
  case domain_eq => rfl
  case flags => exact ⟨_, _, ns, ip, anomalies_eq _ _⟩
  case once => exact anomalies_nodup _ _
  case reasons => rfl
  case success => exact List.isEmpty_iff
  case names_listed => exact ⟨found.increasing, fun s => TextSet.mem_ofList_map⟩
  case addresses_listed =>
    refine ⟨listed.increasing, fun s => TextSet.mem_ofList_map.trans ?_⟩
    exact exists_congr fun raw => and_congr_right fun _ => publishedAddress_eq_iff
  case no_literal =>
    intro checked answered raw hraw none
    apply mem_anomalies.2
    right
    generalize judge (addresses.map fun xs => .ofList (xs.map publishedAddress))
      p.addressesAnswered listed .addressesDiffer = anomaly at ip ⊢
    cases ip with
    | unchecked unchecked => exact absurd checked unchecked
    | unanswered _ silent => exact absurd answered silent
    | differs => rfl
    | asExpected _ _ agrees =>
        obtain ⟨a, ha⟩ := agrees.1 raw hraw
        exact absurd ha (none a)

/-- Respelled names and literals make the same expectation. -/
theorem Expected.create_respelled {domain : String}
    {names addresses names' addresses' : Option (List String)} {e : Expected}
    (h : create domain names addresses = .ok e)
    (hnames : Option.Rel (Respelling SameName) names names')
    (haddresses : Option.Rel (Respelling SameAddress) addresses addresses')
    : create domain names' addresses' = .ok e := by
  obtain ⟨literals, rfl⟩ := create_eq_ok_iff.1 h
  apply create_eq_ok_iff.2
  constructor
  · rintro ys rfl
    cases haddresses with
    | @some xs _ respelled =>
        intro y hy
        obtain ⟨x, hx, rfl | ⟨a, -, ha⟩⟩ := respelled.right y hy
        · exact literals xs rfl x hx
        · exact ⟨a, ha⟩
  · have sameNames : (names.map fun xs => TextSet.ofList (xs.map canonicalName))
        = names'.map fun xs => TextSet.ofList (xs.map canonicalName) := by
      cases hnames with
      | none => rfl
      | some respelled =>
          exact congrArg some (respelled.ofList_map_eq fun _ _ h => h.canonicalName_eq)
    have sameAddresses : (addresses.map fun xs => TextSet.ofList (xs.map Verdict.publishedAddress))
        = addresses'.map fun xs => TextSet.ofList (xs.map Verdict.publishedAddress) := by
      cases haddresses with
      | none => rfl
      | some respelled =>
          exact congrArg some (respelled.ofList_map_eq fun _ _ h => h.publishedAddress_eq)
    rw [sameNames, sameAddresses]

/-- Respelled published data get the same verdict. -/
theorem Verdict.of_respelled {p q : Published} (h : p.Respelled q) (e : Expected)
    : Verdict.of e q = .of e p := by
  have names := h.nameservers.ofList_map_eq fun _ _ same => same.canonicalName_eq
  have addresses := h.addresses.ofList_map_eq fun _ _ same => same.publishedAddress_eq
  simp only [of, names, addresses, h.nameserversAnswered, h.addressesAnswered]

/-- A verdict against an expectation that was made of names and literals is exact, and it is the
same if any of the names that are expected or published, and any of the addresses, is written in
another way.
-/
theorem Verdict.exact_in_every_spelling {domain : String} {names addresses : Option (List String)}
    {e : Expected} (h : Expected.create domain names addresses = .ok e) (p : Published)
    : Exact domain names addresses p (.of e p)
      ∧ ∀ names' addresses' q,
          Option.Rel (Respelling SameName) names names' →
          Option.Rel (Respelling SameAddress) addresses addresses' →
          p.Respelled q →
            Expected.create domain names' addresses' = .ok e ∧ Verdict.of e q = .of e p := by
  refine ⟨of_exact h p, fun names' addresses' q hnames haddresses respelled => ?_⟩
  exact ⟨Expected.create_respelled h hnames haddresses, of_respelled respelled e⟩

/-- An expectation of one nameserver and one address. -/
def pairExpected : Expected :=
  ⟨"example.com", some (.ofList ["ns1.example.com."]), some (.ofList ["2001:db8::1"])⟩

/-- The nameserver as it is expected, and the address beside a text that is no literal. -/
def pairPublished (nameserver address : String) : Published :=
  ⟨.ofList [nameserver], .ofList [address, "not-an-address"], true, true, none⟩

/-- Witness: the text that is no literal makes the addresses differ, in every spelling of the
others.
-/
theorem pairExpected_exact
    : Expected.create "example.com" (some ["NS1.Example.com"]) (some ["2001:DB8:0:0::1"])
        = .ok pairExpected
      ∧ Verdict.Exact "example.com" (some ["NS1.Example.com"]) (some ["2001:DB8:0:0::1"])
          (pairPublished "ns1.example.com." "2001:db8::1")
          (.of pairExpected (pairPublished "ns1.example.com." "2001:db8::1"))
      ∧ Verdict.of pairExpected (pairPublished " NS1.example.com.. " "2001:db8::0:1")
        = .of pairExpected (pairPublished "ns1.example.com." "2001:db8::1") := by
  have created : Expected.create "example.com" (some ["NS1.Example.com"])
      (some ["2001:DB8:0:0::1"])
      = .ok pairExpected := by
    decide +kernel
  have plain : Spelling "ns1.example.com".toList
      ([] ++ ("ns1.example.com".toList ++ ['.']) ++ []) := by
    refine .intro (.letters rfl) (by simp) ?_ ?_ (by simp) (by simp)
    all_goals
      rintro c ⟨⟩
      decide
  have dressed : Spelling "ns1.example.com".toList
      ([' '] ++ ("NS1.example.com".toList ++ ['.', '.']) ++ [' ']) := by
    have blank : ∀ c ∈ [' '], isBlank c = true := by
      intro c hc
      rw [List.mem_singleton.1 hc]
      decide
    refine .intro (.ascii (by decide)) (by simp) ?_ ?_ blank blank
    all_goals
      rintro c ⟨⟩
      decide
  have names : SameName "ns1.example.com." " NS1.example.com.. " := ⟨_, plain, dressed⟩
  have addresses : SameAddress "2001:db8::1" "2001:db8::0:1" :=
    .inr ⟨.v6 ⟨[0x2001, 0xdb8, 0, 0, 0, 0, 0, 1], rfl⟩ none, by decide +kernel,
      by decide +kernel⟩
  have members {a b : String}
      : a ∈ (TextSet.ofList [b, "not-an-address"]).toList ↔ a = b ∨ a = "not-an-address" := by
    rw [← TextSet.mem_def, TextSet.mem_ofList]
    simp
  have respelled : (pairPublished "ns1.example.com." "2001:db8::1").Respelled
      (pairPublished " NS1.example.com.. " "2001:db8::0:1") := by
    constructor
    case nameservers => constructor <;> simpa [pairPublished, ← TextSet.mem_def] using names
    case addresses =>
      constructor
      · intro x hx
        rcases members.1 hx with rfl | rfl
        · exact ⟨_, members.2 (.inl rfl), addresses⟩
        · exact ⟨_, members.2 (.inr rfl), .inl rfl⟩
      · intro y hy
        rcases members.1 hy with rfl | rfl
        · exact ⟨_, members.2 (.inl rfl), addresses⟩
        · exact ⟨_, members.2 (.inr rfl), .inl rfl⟩
    case nameserversAnswered => rfl
    case addressesAnswered => rfl
  obtain ⟨exact, spelled⟩ := Verdict.exact_in_every_spelling created
    (pairPublished "ns1.example.com." "2001:db8::1")
  obtain ⟨-, verdict⟩ := spelled _ _ _ (.some (.refl SameName.refl _))
    (.some (.refl (fun _ => .inl rfl) _)) respelled
  exact ⟨created, exact, verdict⟩

end NameserverAudit
