import Mathlib.Data.List.Induction
import NameserverAudit.Proofs.Lists
import NameserverAudit.Proofs.Zone.Covering
import NameserverAudit.Proofs.Zone.Delegations

/-! What the records of a zone say of nameservers and addresses. The nameservers and the
addresses that are gathered from records, sorted by owner or not, are exactly those that the
records say: the nameservers of an owner in the order of their records, and the addresses of an
owner as a set for each family.
-/

namespace NameserverAudit.Zone

-----------------------------------------------------------------------------------------
-- Facts
-----------------------------------------------------------------------------------------

/-- What a record says of nameservers and addresses; names are in canonical form. -/
inductive Fact where
  | nameserver (owner target : String)
  | address (owner : String) (family : Family) (text : String)
deriving DecidableEq, Repr

/-- A record of any other type says nothing. -/
def Record.fact? (r : Record) : Option Fact :=
  match r.data with
  | .nameserver target => some (.nameserver r.owner.canonicalText target.canonicalText)
  | .address a => some (.address r.owner.canonicalText a.family a.presentation)
  | .signature _ | .other => none

def facts (rs : List Record) : List Fact :=
  rs.filterMap Record.fact?

/-- The nameserver of an owner that a fact tells. -/
def Fact.target? (owner : String) : Fact → Option String
  | .nameserver o target => if o = owner then some target else none
  | .address _ _ _ => none

/-- The address of an owner in a family that a fact tells. -/
def Fact.text? (owner : String) (family : Family) : Fact → Option String
  | .nameserver _ _ => none
  | .address o f text => if o = owner ∧ f = family then some text else none

/-- The nameservers of an owner, as often as records say so and in their order. -/
def targetsOf (rs : List Record) (owner : String) : List String :=
  (facts rs).filterMap (Fact.target? owner)

/-- The addresses of an owner in a family. -/
def addressSet (rs : List Record) (owner : String) (family : Family) : TextSet :=
  .ofList ((facts rs).filterMap (Fact.text? owner family))

/-- The addresses of an owner in order, those of version 4 first. -/
def addressList (rs : List Record) (owner : String) : List String :=
  (addressSet rs owner .ipv4).toList ++ (addressSet rs owner .ipv6).toList

variable {rs rs' : List Record} {owner : String}

@[simp] theorem mem_targetsOf {target : String}
    : target ∈ targetsOf rs owner ↔ .nameserver owner target ∈ facts rs := by
  rw [targetsOf, List.mem_filterMap]
  constructor
  · rintro ⟨fact, hfact, htarget⟩
    cases fact with
    | address o f text => cases htarget
    | nameserver o t =>
        simp only [Fact.target?] at htarget
        split at htarget
        · next ho => exact Option.some.inj htarget ▸ ho ▸ hfact
        · cases htarget
  · exact fun h => ⟨_, h, by simp [Fact.target?]⟩

@[simp] theorem mem_addressSet {family : Family} {text : String}
    : text ∈ addressSet rs owner family ↔ .address owner family text ∈ facts rs := by
  rw [addressSet, TextSet.mem_ofList, List.mem_filterMap]
  constructor
  · rintro ⟨fact, hfact, htext⟩
    cases fact with
    | nameserver o t => cases htext
    | address o f t =>
        simp only [Fact.text?] at htext
        split at htext
        · next h =>
          obtain ⟨rfl, rfl⟩ := h
          exact Option.some.inj htext ▸ hfact
        · cases htext
  · exact fun h => ⟨_, h, by simp [Fact.text?]⟩

theorem addressSet_congr (h : ∀ fact, fact ∈ facts rs' ↔ fact ∈ facts rs) (owner : String)
    (family : Family)
    : addressSet rs' owner family = addressSet rs owner family :=
  TextSet.ext fun text => by rw [mem_addressSet, mem_addressSet, h]

theorem addressList_congr (h : ∀ fact, fact ∈ facts rs' ↔ fact ∈ facts rs) (owner : String)
    : addressList rs' owner = addressList rs owner := by
  simp only [addressList, addressSet_congr h]

/-- Some record says that the owner has an address. -/
def OwnsAddress (rs : List Record) (owner : String) : Prop :=
  ∃ family text, .address owner family text ∈ facts rs

theorem addressList_ne_nil_iff : addressList rs owner ≠ [] ↔ OwnsAddress rs owner := by
  have mem (text : String)
      : text ∈ addressList rs owner ↔ ∃ family, .address owner family text ∈ facts rs := by
    rw [addressList, List.mem_append, ← TextSet.mem_def, ← TextSet.mem_def, mem_addressSet,
      mem_addressSet]
    constructor
    · rintro (h | h) <;> exact ⟨_, h⟩
    · rintro ⟨- | -, h⟩
      · exact .inl h
      · exact .inr h
  constructor
  · intro h
    obtain ⟨text, htext⟩ := List.exists_mem_of_ne_nil _ h
    obtain ⟨family, hfact⟩ := (mem text).1 htext
    exact ⟨family, text, hfact⟩
  · rintro ⟨family, text, hfact⟩
    exact List.ne_nil_of_mem ((mem text).2 ⟨family, hfact⟩)

-----------------------------------------------------------------------------------------
-- Records sorted by owner
-----------------------------------------------------------------------------------------

/-- Sorting by owner leaves the records of one owner as they stand, by induction on the bound.
Others are only moved past them.
-/
theorem filter_byOwner {p : Record → Bool}
    (one : ∀ r, p r = true → ∀ s, p s = s.owner.same r.owner) {bound : Nat}
    (enough : rs.length ≤ bound)
    : (byOwner bound rs).filter p = rs.filter p := by
  induction bound generalizing rs with
  | zero => rfl
  | succ bound ih =>
      cases rs with
      | nil => rfl
      | cons r rest =>
          have hlength : (rest.filter fun s => !s.owner.same r.owner).length ≤ bound := by
            have := List.length_filter_le (fun s : Record => !s.owner.same r.owner) rest
            rw [List.length_cons] at enough
            omega
          rw [byOwner, List.cons_append, List.filter_cons, List.filter_cons,
            List.filter_append, ih hlength, List.filter_filter, List.filter_filter]
          cases hr : p r with
          | true =>
              obtain rfl : p = fun s => s.owner.same r.owner := funext (one r hr)
              simp
          | false =>
              have apart (s : Record) : p s = true → s.owner.same r.owner = false := by
                intro hs
                rw [one s hs r] at hr
                rwa [DomainName.same_comm]
              have early : rest.filter (fun s => p s && s.owner.same r.owner) = [] := by
                rw [List.filter_eq_nil_iff]
                intro s _ h
                rw [Bool.and_eq_true] at h
                rw [apart s h.1] at h
                exact Bool.false_ne_true h.2
              have late : rest.filter (fun s => p s && !s.owner.same r.owner)
                  = rest.filter p := by
                refine List.filter_congr fun s _ => ?_
                cases hs : p s with
                | true => simp [apart s hs]
                | false => rfl
              simp [early, late]

/-- The test for an owner. -/
theorem one_owner (owner : String) (r : Record)
    (h : (decide (r.owner.canonicalText = owner)) = true) (s : Record)
    : decide (s.owner.canonicalText = owner) = s.owner.same r.owner := by
  rw [decide_eq_true_eq] at h
  rw [← h, Bool.eq_iff_iff, decide_eq_true_eq, DomainName.canonicalText_eq_iff]

/-- Records sorted by owner. -/
def sorted (rs : List Record) : List Record :=
  byOwner rs.length rs

theorem filter_sorted (rs : List Record) (owner : String)
    : (sorted rs).filter (fun r => r.owner.canonicalText = owner)
      = rs.filter fun r => r.owner.canonicalText = owner :=
  filter_byOwner (one_owner owner) (Nat.le_refl _)

theorem mem_sorted {r : Record} : r ∈ sorted rs ↔ r ∈ rs := by
  have h := congrArg (r ∈ ·) (filter_sorted rs r.owner.canonicalText)
  simpa using h

theorem mem_facts_sorted {fact : Fact} : fact ∈ facts (sorted rs) ↔ fact ∈ facts rs := by
  simp only [facts, List.mem_filterMap, mem_sorted]

/-- The nameservers of an owner come from its own records. -/
theorem targetsOf_eq (rs : List Record) (owner : String)
    : targetsOf rs owner = targetsOf (rs.filter fun r => r.owner.canonicalText = owner) owner := by
  rw [targetsOf, targetsOf, facts, facts, List.filterMap_filterMap, List.filterMap_filterMap,
    List.filterMap_filter]
  refine List.filterMap_congr fun r _ => ?_
  split
  · rfl
  · next hother =>
    rw [decide_eq_true_eq] at hother
    unfold Record.fact?
    cases r.data <;> simp [Fact.target?, hother]

theorem targetsOf_sorted (owner : String)
    : targetsOf (sorted rs) owner = targetsOf rs owner := by
  rw [targetsOf_eq, filter_sorted, ← targetsOf_eq]

-----------------------------------------------------------------------------------------
-- Nameservers
-----------------------------------------------------------------------------------------

/-- The nameservers that were gathered for an owner. -/
def targetsAt (all : List Nameservers) (owner : String) : List String :=
  ((all.find? fun n => n.owner.canonicalText = owner).map (·.targets)).getD []

theorem targetsAt_cons (n : Nameservers) (rest : List Nameservers) (owner : String)
    : targetsAt (n :: rest) owner
      = if n.owner.canonicalText = owner then n.targets else targetsAt rest owner := by
  unfold targetsAt
  rw [List.find?_cons]
  by_cases h : n.owner.canonicalText = owner <;> simp [h]

/-- One more nameserver comes to its owner, unless it is there already. By induction on the
owners.
-/
theorem targetsAt_addNameserver (name : DomainName) (target : String) (all : List Nameservers)
    (owner : String)
    : targetsAt (addNameserver name target all) owner
      = if name.canonicalText = owner ∧ target ∉ targetsAt all owner then
          targetsAt all owner ++ [target]
        else targetsAt all owner := by
  induction all with
  | nil =>
      rw [addNameserver, targetsAt_cons]
      by_cases h : name.canonicalText = owner <;> simp [targetsAt, h]
  | cons first rest ih =>
      rw [addNameserver, targetsAt_cons]
      by_cases hname : first.owner.canonicalText = name.canonicalText
      · rw [if_pos hname, ← hname]
        by_cases hmem : target ∈ first.targets
        · rw [if_pos (List.contains_iff_mem.2 hmem), targetsAt_cons]
          split
          · rw [if_neg fun h => h.2 hmem]
          · next hfirst => rw [if_neg fun h => hfirst h.1]
        · rw [if_neg fun h => hmem (List.contains_iff_mem.1 h), targetsAt_cons]
          split
          · next hfirst => rw [if_pos ⟨hfirst, hmem⟩]
          · next hfirst => rw [if_neg fun h => hfirst h.1]
      · rw [if_neg hname, targetsAt_cons, ih]
        by_cases hfirst : first.owner.canonicalText = owner
        · have hother : name.canonicalText ≠ owner := fun h => hname (hfirst.trans h.symm)
          simp only [hfirst, hother, if_true, false_and, if_false]
        · simp only [hfirst, if_false]

theorem facts_concat (rs : List Record) (r : Record)
    : facts (rs ++ [r]) = facts rs ++ r.fact?.toList := by
  cases h : r.fact? <;> simp [facts, h]

/-- The nameservers gathered for an owner are those that records say, each where it first comes.
By induction on the records from their end.
-/
theorem targetsAt_nameserversOf (rs : List Record) (owner : String)
    : targetsAt (nameserversOf rs) owner = (targetsOf rs owner).eraseDups := by
  induction rs using List.reverseRecOn with
  | nil => rfl
  | append_singleton rs r ih =>
      rw [nameserversOf, List.foldl_concat, ← nameserversOf, targetsOf, facts_concat,
        List.filterMap_append, ← targetsOf]
      unfold Record.fact?
      cases hdata : r.data with
      | nameserver target =>
          rw [targetsAt_addNameserver, ih]
          by_cases howner : r.owner.canonicalText = owner
          · simp only [howner, Fact.target?, Option.toList_some, List.filterMap_cons, if_true,
              List.filterMap_nil, eraseDups_concat, List.mem_eraseDups, true_and]
            split <;> simp_all
          · simp [howner, Fact.target?]
      | address a =>
          simp only [Option.toList_some, List.filterMap_cons, List.filterMap_nil, Fact.target?,
            List.append_nil]
          exact ih
      | signature | other =>
          simp only [Option.toList_none, List.filterMap_nil, List.append_nil]
          exact ih

/-- One more nameserver adds its owner at the end, unless the owner is there already. By
induction on the owners.
-/
theorem owners_addNameserver (name : DomainName) (target : String) (all : List Nameservers)
    : (addNameserver name target all).map (·.owner.canonicalText)
      = if name.canonicalText ∈ all.map (·.owner.canonicalText) then
          all.map (·.owner.canonicalText)
        else all.map (·.owner.canonicalText) ++ [name.canonicalText] := by
  induction all with
  | nil => rfl
  | cons first rest ih =>
      rw [addNameserver]
      by_cases hname : first.owner.canonicalText = name.canonicalText
      · rw [if_pos hname, List.map_cons, List.map_cons, ← hname, if_pos List.mem_cons_self]
        split <;> rfl
      · rw [if_neg hname, List.map_cons, List.map_cons, ih]
        simp only [List.mem_cons, Ne.symm hname, false_or]
        split <;> rfl

/-- Every owner is there once, by induction on the records. -/
theorem nodup_owners (rs : List Record)
    : ((nameserversOf rs).map (·.owner.canonicalText)).Nodup := by
  have nothing : (([] : List Nameservers).map (·.owner.canonicalText)).Nodup := List.nodup_nil
  refine List.foldlRecOn
    (motive := fun out : List Nameservers => (out.map (·.owner.canonicalText)).Nodup)
    rs _ nothing fun out h r _ => ?_
  split
  · rw [owners_addNameserver]
    split
    · exact h
    · next hnew =>
      rw [List.nodup_append]
      refine ⟨h, by simp, ?_⟩
      rintro name hname _ hmem rfl
      exact hnew (List.mem_singleton.1 hmem ▸ hname)
  · exact h

theorem targetsAt_of_mem {n : Nameservers} (hn : n ∈ nameserversOf rs)
    : n.targets = (targetsOf rs n.owner.canonicalText).eraseDups := by
  rw [← targetsAt_nameserversOf, targetsAt, find?_of_nodup (nodup_owners rs) hn]
  rfl

/-- The owners of nameservers are those that records name. -/
theorem exists_mem_nameserversOf_iff (rs : List Record) (owner : String)
    : (∃ n ∈ nameserversOf rs, n.owner.canonicalText = owner) ↔ targetsOf rs owner ≠ [] := by
  have hdups : targetsOf rs owner ≠ [] ↔ targetsAt (nameserversOf rs) owner ≠ [] := by
    rw [targetsAt_nameserversOf]
    cases targetsOf rs owner <;> simp [List.eraseDups_cons]
  rw [hdups]
  constructor
  · rintro ⟨n, hn, rfl⟩
    rw [targetsAt, find?_of_nodup (nodup_owners rs) hn]
    exact (nameserversOf_proper rs n hn).some
  · intro h
    unfold targetsAt at h
    cases hfound : (nameserversOf rs).find? fun n => n.owner.canonicalText = owner with
    | none => simp [hfound] at h
    | some n =>
        exact ⟨n, List.mem_of_find?_eq_some hfound,
          by simpa using List.find?_some hfound⟩

-----------------------------------------------------------------------------------------
-- Addresses
-----------------------------------------------------------------------------------------

@[simp] theorem owner_into (a : Addresses) (address : Address)
    : (addAddress.into a address).owner = a.owner := by
  unfold addAddress.into
  split <;> rfl

theorem addressesAt_cons (a : Addresses) (rest : List Addresses) (owner : String)
    : addressesAt (a :: rest) owner = if a.owner = owner then some a else addressesAt rest owner
    := by
  unfold addressesAt
  rw [List.find?_cons]
  by_cases h : a.owner = owner <;> simp [h]

/-- One more address comes to its owner, which has none at first. By induction on the owners. -/
theorem addressesAt_addAddress (name : String) (address : Address) (all : List Addresses)
    (owner : String)
    : addressesAt (addAddress name address all) owner
      = if name = owner then
          some (addAddress.into ((addressesAt all owner).getD ⟨owner, .empty, .empty⟩) address)
        else addressesAt all owner := by
  induction all with
  | nil =>
      rw [addAddress, addressesAt_cons, owner_into]
      split
      · next h =>
        obtain rfl : name = owner := h
        rfl
      · rfl
  | cons first rest ih =>
      rw [addAddress]
      by_cases hname : first.owner = name
      · rw [if_pos hname, addressesAt_cons, addressesAt_cons, owner_into, ← hname]
        split <;> rfl
      · rw [if_neg hname, addressesAt_cons, addressesAt_cons, ih]
        by_cases hfirst : first.owner = owner
        · have hother : name ≠ owner := fun h => hname (hfirst.trans h.symm)
          simp only [hfirst, hother, if_true, if_false]
        · simp only [hfirst, if_false]

/-- What is kept of the addresses of an owner is what the records say, and it is kept just if
they say anything.
-/
inductive Kept (rs : List Record) (owner : String) : Option Addresses → Prop
  | nothing (lacks : ¬OwnsAddress rs owner) : Kept rs owner none
  | addresses (owns : OwnsAddress rs owner)
      : Kept rs owner (some ⟨owner, addressSet rs owner .ipv4, addressSet rs owner .ipv6⟩)

theorem Kept.congr {found : Option Addresses} (h : Kept rs owner found)
    (same : ∀ family text,
      .address owner family text ∈ facts rs' ↔ .address owner family text ∈ facts rs)
    : Kept rs' owner found := by
  have owns_iff : OwnsAddress rs' owner ↔ OwnsAddress rs owner := by
    simp only [OwnsAddress, same]
  have sets (family : Family) : addressSet rs owner family = addressSet rs' owner family :=
    TextSet.ext fun text => by rw [mem_addressSet, mem_addressSet, same]
  cases h with
  | nothing lacks => exact .nothing fun h => lacks (owns_iff.1 h)
  | addresses owns =>
      rw [sets, sets]
      exact .addresses (owns_iff.2 owns)

/-- Without addresses their sets are empty. -/
theorem Kept.getD {found : Option Addresses} (h : Kept rs owner found)
    : found.getD ⟨owner, .empty, .empty⟩
      = ⟨owner, addressSet rs owner .ipv4, addressSet rs owner .ipv6⟩ := by
  cases h with
  | addresses owns => rfl
  | nothing lacks =>
      have empty (family : Family) : .empty = addressSet rs owner family :=
        TextSet.ext fun text => by
          rw [mem_addressSet]
          exact ⟨fun h => absurd h (TextSet.not_mem_empty text),
            fun h => absurd ⟨family, text, h⟩ lacks⟩
      rw [← empty, ← empty]
      rfl

/-- What is kept of addresses is what records say, by induction on the records from their end. -/
theorem kept_addressesOf (rs : List Record) (owner : String)
    : Kept rs owner (addressesAt (addressesOf rs) owner) := by
  induction rs using List.reverseRecOn with
  | nil => exact .nothing (by simp [OwnsAddress, facts])
  | append_singleton rs r ih =>
      have facts_eq := facts_concat rs r
      unfold Record.fact? at facts_eq
      rw [addressesOf, List.foldl_concat, ← addressesOf]
      cases hdata : r.data with
      | nameserver target =>
          rw [hdata] at facts_eq
          exact ih.congr fun family text => by simp [facts_eq]
      | signature | other =>
          rw [hdata] at facts_eq
          exact ih.congr fun family text => by simp [facts_eq]
      | address a =>
          rw [hdata] at facts_eq
          dsimp only
          rw [addressesAt_addAddress]
          split
          · next howner =>
            have owns : OwnsAddress (rs ++ [r]) owner :=
              ⟨a.family, a.presentation, by simp [facts_eq, howner]⟩
            have hinto : addAddress.into
                  ⟨owner, addressSet rs owner .ipv4, addressSet rs owner .ipv6⟩ a
                = ⟨owner, addressSet (rs ++ [r]) owner .ipv4,
                    addressSet (rs ++ [r]) owner .ipv6⟩ := by
              unfold addAddress.into
              cases hfamily : a.family <;>
                simp only [Addresses.mk.injEq, true_and] <;>
                constructor <;>
                refine TextSet.ext fun text => ?_ <;>
                simp [facts_eq, howner, hfamily, or_comm]
            rw [ih.getD, hinto]
            exact .addresses owns
          · next howner =>
            exact ih.congr fun family text => by simp [facts_eq, Ne.symm howner]

end NameserverAudit.Zone
