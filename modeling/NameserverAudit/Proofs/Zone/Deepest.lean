import NameserverAudit.Proofs.Zone.Covering
import NameserverAudit.Proofs.Zone.Records

/-! The deepest delegation that covers a domain. Main statement: the delegation that is found has
the longest zone that ends the domain's canonical text on a boundary of labels. For plain text
these are the zones that contain the domain's name, except those whose text has an escaped
character: names are compared as text, and no escape is ever undone.
-/

namespace NameserverAudit.Zone

open Text DomainName

namespace Directory

section

variable {d : Directory} (distinct : (d.delegations.map (·.zone)).Nodup)

include distinct

theorem delegation?_eq_some_iff {zone : String} {e : Delegation}
    : d.delegation? zone = some e ↔ e ∈ d.delegations ∧ e.zone = zone := by
  constructor
  · intro h
    exact ⟨List.mem_of_find?_eq_some h, by simpa using List.find?_some h⟩
  · rintro ⟨he, rfl⟩
    exact find?_of_nodup distinct he

/-- The delegation that is found is that of the longest end of the labels that is a zone. By
induction on the labels.
-/
theorem covering_eq_some_iff {labels : List (List Char)} {e : Delegation}
    : d.covering labels = some e
      ↔ e ∈ d.delegations
        ∧ ∃ back, back ≠ [] ∧ back <:+ labels ∧ e.zone = dotted back
          ∧ ∀ e' ∈ d.delegations, ∀ back', back' ≠ [] → back' <:+ labels →
              e'.zone = dotted back' → back'.length ≤ back.length := by
  induction labels with
  | nil =>
      constructor
      · nofun
      · rintro ⟨-, back, hne, hsuffix, -⟩
        exact absurd (List.suffix_nil.1 hsuffix) hne
  | cons first rest ih =>
      rw [covering_cons]
      cases h : d.delegation? (dotted (first :: rest)) with
      | some found =>
          obtain ⟨hmem, hzone⟩ := (delegation?_eq_some_iff distinct).1 h
          have whole := List.cons_ne_nil first rest
          rw [Option.some_or, Option.some.injEq]
          constructor
          · rintro rfl
            exact ⟨hmem, first :: rest, whole, List.suffix_refl _, hzone,
              fun _ _ _ _ hsuffix _ => hsuffix.length_le⟩
          · rintro ⟨he, back, -, hsuffix, hback, longest⟩
            have hle := longest found hmem _ whole (List.suffix_refl _) hzone
            rw [hsuffix.eq_of_length_le hle] at hback
            have again := (delegation?_eq_some_iff distinct).2 ⟨he, hback⟩
            exact Option.some.inj (h.symm.trans again)
      | none =>
          -- An end that is a zone leaves the first label out.
          have ends {e' : Delegation} (he' : e' ∈ d.delegations) {back' : List (List Char)}
              (hzone : e'.zone = dotted back')
              : back' <:+ first :: rest ↔ back' <:+ rest := by
            rw [List.suffix_cons_iff]
            refine or_iff_right fun hback => ?_
            have found := (delegation?_eq_some_iff distinct).2 ⟨he', hback ▸ hzone⟩
            rw [h] at found
            cases found
          rw [Option.none_or, ih]
          constructor
          · rintro ⟨he, back, hne, hsuffix, hzone, longest⟩
            exact ⟨he, back, hne, (ends he hzone).2 hsuffix, hzone,
              fun e' he' back' hne' hsuffix' hzone' =>
                longest e' he' back' hne' ((ends he' hzone').1 hsuffix') hzone'⟩
          · rintro ⟨he, back, hne, hsuffix, hzone, longest⟩
            exact ⟨he, back, hne, (ends he hzone).1 hsuffix, hzone,
              fun e' he' back' hne' hsuffix' hzone' =>
                longest e' he' back' hne' ((ends he' hzone').2 hsuffix') hzone'⟩

/-- Some delegation is found if an end of the labels is a zone, by induction on the labels. -/
theorem covering_ne_none {labels back : List (List Char)} {e : Delegation}
    (he : e ∈ d.delegations) (hne : back ≠ []) (hsuffix : back <:+ labels)
    (hzone : e.zone = dotted back)
    : d.covering labels ≠ none := by
  induction labels with
  | nil => exact absurd (List.suffix_nil.1 hsuffix) hne
  | cons first rest ih =>
      rw [covering_cons]
      rcases List.suffix_cons_iff.1 hsuffix with rfl | hsuffix
      · rw [(delegation?_eq_some_iff distinct).2 ⟨he, hzone⟩]
        simp
      · simp [ih hsuffix]

omit distinct in
theorem endsOn_zone_iff {domain : String} {e : Delegation}
    : EndsOn (canonicalName domain) e.zone
      ↔ ∃ back, back ≠ [] ∧ back <:+ piecesOf domain ∧ e.zone = dotted back := by
  rw [← dotted_piecesOf]
  exact endsOn_dotted_iff dot_not_mem_piecesOf (canonicalText_ne_empty e.name)

/-- The delegation that is found is that of the longest zone that ends the canonical text. -/
theorem delegationFor_eq_some_iff {domain : String} {e : Delegation}
    : d.delegationFor domain = some e
      ↔ e ∈ d.delegations
        ∧ EndsOn (canonicalName domain) e.zone
        ∧ ∀ e' ∈ d.delegations, EndsOn (canonicalName domain) e'.zone →
            e'.zone.length ≤ e.zone.length := by
  have covers : d.delegationFor domain = some e ↔ d.covering (piecesOf domain) = some e := .rfl
  rw [covers, covering_eq_some_iff distinct]
  constructor
  · rintro ⟨he, back, hne, hsuffix, hzone, longest⟩
    refine ⟨he, endsOn_zone_iff.2 ⟨back, hne, hsuffix, hzone⟩, fun e' he' ends => ?_⟩
    obtain ⟨back', hne', hsuffix', hzone'⟩ := endsOn_zone_iff.1 ends
    rw [hzone, hzone', length_dotted_le_iff hsuffix' hsuffix]
    exact longest e' he' back' hne' hsuffix' hzone'
  · rintro ⟨he, ends, longest⟩
    obtain ⟨back, hne, hsuffix, hzone⟩ := endsOn_zone_iff.1 ends
    refine ⟨he, back, hne, hsuffix, hzone, fun e' he' back' hne' hsuffix' hzone' => ?_⟩
    have hle := longest e' he' (endsOn_zone_iff.2 ⟨back', hne', hsuffix', hzone'⟩)
    rwa [hzone, hzone', length_dotted_le_iff hsuffix' hsuffix] at hle

theorem exists_delegationFor_iff {domain : String}
    : (∃ e, d.delegationFor domain = some e)
      ↔ ∃ e ∈ d.delegations, EndsOn (canonicalName domain) e.zone := by
  constructor
  · rintro ⟨e, h⟩
    obtain ⟨he, ends, -⟩ := (delegationFor_eq_some_iff distinct).1 h
    exact ⟨e, he, ends⟩
  · rintro ⟨e, he, ends⟩
    obtain ⟨back, hne, hsuffix, hzone⟩ := endsOn_zone_iff.1 ends
    exact Option.ne_none_iff_exists'.1 (covering_ne_none distinct he hne hsuffix hzone)

end

end Directory

/-- The text of the zone has no escaped character. -/
def Delegation.Unescaped (e : Delegation) : Prop := '\\' ∉ e.zone.toList

instance (e : Delegation) : Decidable e.Unescaped :=
  inferInstanceAs (Decidable (_ ∉ _))

namespace Directory

/-- The delegation of a directory of zone text that is found for a domain is that of the longest
zone that ends the domain's canonical text on a boundary of labels. If the domain is plain text
that writes a name, blanks around it aside, the zones that count are those that contain the name
and have no escaped character in their text: there is a delegation just if there is such a zone,
and then it is that of the zone with the most labels. There is none for the root.
-/
theorem delegationFor_is_deepest {reader : Reader} {source text : String} {d : Directory}
    (read : (ofTextBy reader source text).directory = .ok d)
    : (∀ domain e,
        d.delegationFor domain = some e
        ↔ e ∈ d.delegations
          ∧ EndsOn (canonicalName domain) e.zone
          ∧ ∀ e' ∈ d.delegations, EndsOn (canonicalName domain) e'.zone →
              e'.zone.length ≤ e.zone.length)
      ∧ ∀ domain n, IsPlain domain.toList → DomainName.ofText (strip domain) = .ok n →
          ((∃ e, d.delegationFor domain = some e)
            ↔ ∃ e ∈ d.delegations, e.Unescaped ∧ n.isWithin e.name = true)
          ∧ (∀ e,
              d.delegationFor domain = some e
              ↔ e ∈ d.delegations
                ∧ e.Unescaped
                ∧ n.isWithin e.name = true
                ∧ ∀ e' ∈ d.delegations, e'.Unescaped → n.isWithin e'.name = true →
                    e'.name.labels.length ≤ e.name.labels.length)
          ∧ (n.labels = [] → d.delegationFor domain = none) := by
  have distinct : (d.delegations.map (·.zone)).Nodup :=
    (exists_tells read).elim fun _ h => h.2.distinct
  have notRoot {e : Delegation} (he : e ∈ d.delegations) : e.zone ≠ "." :=
    (read_proper read e he).notRoot
  refine ⟨fun domain e => delegationFor_eq_some_iff distinct, fun domain n plain hn => ?_⟩
  have within {e : Delegation} (he : e ∈ d.delegations)
      : EndsOn (canonicalName domain) e.zone ↔ e.Unescaped ∧ n.isWithin e.name = true :=
    endsOn_iff_isWithin plain hn (notRoot he)
  have found : (∃ e, d.delegationFor domain = some e)
      ↔ ∃ e ∈ d.delegations, e.Unescaped ∧ n.isWithin e.name = true :=
    (exists_delegationFor_iff distinct).trans
      (exists_congr fun e => and_congr_right fun he => within he)
  refine ⟨found, fun e => ?_, fun hroot => ?_⟩
  · rw [delegationFor_eq_some_iff distinct]
    constructor
    · rintro ⟨he, ends, longest⟩
      obtain ⟨unescaped, hwithin⟩ := (within he).1 ends
      refine ⟨he, unescaped, hwithin, fun e' he' unescaped' hwithin' => ?_⟩
      have ends' := (within he').2 ⟨unescaped', hwithin'⟩
      exact (length_le_iff_of_endsOn plain (notRoot he') (notRoot he) ends' ends).1
        (longest e' he' ends')
    · rintro ⟨he, unescaped, hwithin, deepest⟩
      have ends := (within he).2 ⟨unescaped, hwithin⟩
      refine ⟨he, ends, fun e' he' ends' => ?_⟩
      obtain ⟨unescaped', hwithin'⟩ := (within he').1 ends'
      exact (length_le_iff_of_endsOn plain (notRoot he') (notRoot he) ends' ends).2
        (deepest e' he' unescaped' hwithin')
  · refine Option.eq_none_iff_forall_ne_some.2 fun e h => ?_
    obtain ⟨e, he, -, hwithin⟩ := found.1 ⟨e, h⟩
    rw [isWithin_iff, folded, folded, hroot, List.map_nil, List.suffix_nil] at hwithin
    exact notRoot he (canonicalText_of_folded_nil hwithin)

/-- A directory with the given delegations, each to one nameserver. -/
def delegating (zones : List String) : Directory :=
  ⟨[⟨"a.root.", TextSet.empty.insert "192.0.2.1", .empty⟩],
    zones.map fun zone => ⟨written zone, ["ns."], []⟩⟩

/-- Zone text with a delegation below another one. -/
def nestedZone : String :=
  ". NS a.root.\na.root. A 192.0.2.1\ncom. NS ns.\nexample.com. NS ns.\n"

/-- Witness: a name below both zones has the deeper one, in any case; a name that ends with the
same letters but another label has the other one.
-/
theorem nestedZone_deepest
    : ∃ d,
        (ofText "hints" nestedZone).directory = .ok d
        ∧ (d.delegationFor "www.Example.COM").map (·.zone) = some "example.com."
        ∧ (d.delegationFor "notexample.com.").map (·.zone) = some "com."
        ∧ d.delegationFor "." = none := by
  have read : (ofText "hints" nestedZone).directory
      = .ok (delegating ["com.", "example.com."]) := by
    decide +kernel
  obtain ⟨-, deepest⟩ := delegationFor_is_deepest read
  refine ⟨_, read, ?_, ?_, ?_⟩
  · obtain ⟨-, found, -⟩ := deepest "www.Example.COM" (written "www.Example.COM")
      (by decide +kernel) (by decide +kernel)
    rw [(found ⟨written "example.com.", ["ns."], []⟩).2 (by decide +kernel)]
    decide +kernel
  · obtain ⟨-, found, -⟩ := deepest "notexample.com." (written "notexample.com.")
      (by decide +kernel) (by decide +kernel)
    rw [(found ⟨written "com.", ["ns."], []⟩).2 (by decide +kernel)]
    decide +kernel
  · obtain ⟨-, -, nothing⟩ := deepest "." .root (by decide +kernel) (by decide +kernel)
    exact nothing rfl

/-- Zone text with a delegation whose text has an escaped character. -/
def dollarZone : String :=
  ". NS a.root.\na.root. A 192.0.2.1\na$b. NS ns.\n"

/-- Counterexample: a domain without a backslash lies within the zone of a delegation, but no
delegation is found for it.
-/
theorem dollarZone_not_found
    : '\\' ∉ "www.a$b".toList
      ∧ ∃ d n e,
          (ofText "hints" dollarZone).directory = .ok d
          ∧ DomainName.ofText "www.a$b" = .ok n
          ∧ e ∈ d.delegations
          ∧ n.isWithin e.name = true
          ∧ e.zone = "a\\$b."
          ∧ d.delegationFor "www.a$b" = none := by
  refine ⟨by decide, delegating ["a$b."], written "www.a$b", ⟨written "a$b.", ["ns."], []⟩,
    ?_, ?_, ?_, ?_, ?_, ?_⟩
  all_goals decide +kernel

end Directory

end NameserverAudit.Zone
