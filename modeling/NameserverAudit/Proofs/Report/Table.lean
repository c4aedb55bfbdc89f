import Mathlib.Algebra.BigOperators.Group.List.Lemmas
import Mathlib.Algebra.Ring.Nat
import Mathlib.Data.Prod.Lex
import Mathlib.Data.String.Basic
import NameserverAudit.Proofs.Lists
import NameserverAudit.Report.Table

/-! The tables of a pass beside its summary. A summary counts anomalies one by one; the tables are
made of findings, which are grouped by anomaly and by domain. Main statement: on verdicts both
count the same, and the tables tell the counts in order.
-/

namespace NameserverAudit

-----------------------------------------------------------------------------------------
-- Verdicts and their findings
-----------------------------------------------------------------------------------------

/-- The verdict is one on something that is published, given something that is expected. -/
def Verdict.IsJudged (v : Verdict) : Prop :=
  ∃ e p, v = .of e p

theorem Verdict.IsJudged.success_eq {v : Verdict} (h : v.IsJudged)
    : v.success = v.flags.isEmpty := by
  obtain ⟨e, p, rfl⟩ := h
  rfl

theorem Verdict.IsJudged.reasons_eq {v : Verdict} (h : v.IsJudged)
    : v.reasons = v.flags.map Anomaly.reason := by
  obtain ⟨e, p, rfl⟩ := h
  rfl

theorem Anomaly.name_ne_passed (a : Anomaly) : a.name ≠ Advice.passed := by
  cases a <;> decide

namespace Table

/-- The finding of an anomaly in a verdict. -/
def findingOf (v : Verdict) (a : Anomaly) : Finding :=
  ⟨v.domain, a.name, a.reason, Advice.forName a.name⟩

theorem broken_findingsOf {v : Verdict} (judged : v.IsJudged)
    : broken (findingsOf v) = v.flags.map (findingOf v) := by
  have pairs : v.flags.zip v.reasons = v.flags.map fun a => (a, a.reason) := by
    have zipped : (v.flags.map id).zip (v.flags.map Anomaly.reason)
        = v.flags.map fun a => (a, a.reason) :=
      List.zip_map'
    rwa [List.map_id, ← judged.reasons_eq] at zipped
  unfold findingsOf
  split
  · next success =>
    rw [judged.success_eq, List.isEmpty_iff] at success
    simp [broken, success]
  · rw [pairs, List.map_map, broken, List.filter_eq_self.2]
    · rfl
    · intro r hr
      obtain ⟨a, -, rfl⟩ := List.mem_map.1 hr
      exact decide_eq_true a.name_ne_passed

section
variable {verdicts : List Verdict} (judged : ∀ v ∈ verdicts, v.IsJudged)
include judged

/-- The findings that are no successes are those of all anomalies, in the order of the verdicts. -/
theorem broken_findings
    : broken (findings verdicts) = verdicts.flatMap fun v => v.flags.map (findingOf v) := by
  rw [broken, findings, List.filter_flatMap]
  exact List.flatMap_congr fun v hv => broken_findingsOf (judged v hv)

/-- The names of all findings are those of the anomalies that a summary counts. -/
theorem flag_broken_findings
    : (broken (findings verdicts)).map (·.flag)
      = verdicts.flatMap fun v => v.flags.map Anomaly.name := by
  rw [broken_findings judged, List.map_flatMap]
  simp only [List.map_map]
  rfl

end

/-- The failures with a domain, in the order of the verdicts. -/
def failuresOf (domain : String) (verdicts : List Verdict) : List Verdict :=
  verdicts.filter fun v => !v.success && v.domain = domain

/-- All findings of a verdict are about its domain, and a success has none. -/
theorem flag_findings_of_verdict {v : Verdict} (judged : v.IsJudged) (domain : String)
    : ((v.flags.map (findingOf v)).filter fun r => r.domain = domain).map (·.flag)
      = (failuresOf domain [v]).flatMap fun v => v.flags.map Anomaly.name := by
  have about : (fun r : Finding => decide (r.domain = domain)) ∘ findingOf v
      = fun _ => decide (v.domain = domain) :=
    rfl
  rw [List.filter_map, List.map_map, about]
  by_cases same : v.domain = domain
  · cases success : v.success with
    | true =>
        have none := judged.success_eq.symm.trans success
        rw [List.isEmpty_iff] at none
        simp [failuresOf, none, success]
    | false => simp [failuresOf, success, same, findingOf, Function.comp_def]
  · simp [failuresOf, same]

/-- The names of the findings about a domain are those of the anomalies of its failures, by
induction on the verdicts.
-/
theorem flag_findings_of_domain {verdicts : List Verdict}
    (judged : ∀ v ∈ verdicts, v.IsJudged) (domain : String)
    : ((broken (findings verdicts)).filter fun r => r.domain = domain).map (·.flag)
      = (failuresOf domain verdicts).flatMap fun v => v.flags.map Anomaly.name := by
  rw [broken_findings judged]
  induction verdicts with
  | nil => rfl
  | cons v rest ih =>
      have more := ih fun u hu => judged u (List.mem_cons_of_mem v hu)
      rw [List.flatMap_cons, List.filter_append, List.map_append, more,
        flag_findings_of_verdict (judged v (by simp)), ← List.flatMap_append, failuresOf,
        failuresOf, failuresOf, ← List.filter_append]
      rfl

end Table

-----------------------------------------------------------------------------------------
-- Counting one by one
-----------------------------------------------------------------------------------------

namespace Results

/-- The names of a list with the number of times that they occur, in the order in which they first
come.
-/
def counted (names : List String) : List (String × Nat) :=
  names.eraseDups.map fun name => (name, names.count name)

/-- Adding one to the count of a name that has one, by induction on the names. -/
theorem tally_of_mem {name : String} {names : List String} {f g : String → Nat}
    (distinct : names.Nodup) (hname : name ∈ names) (more : g name = f name + 1)
    (same : ∀ other ∈ names, other ≠ name → g other = f other)
    : tally name (names.map fun key => (key, f key)) = names.map fun key => (key, g key) := by
  induction names with
  | nil => cases hname
  | cons first rest ih =>
      obtain ⟨new, distinct⟩ := List.nodup_cons.1 distinct
      have others (key : String) (hkey : key ∈ rest) (ne : key ≠ name) : g key = f key :=
        same key (List.mem_cons_of_mem first hkey) ne
      rw [List.map_cons, List.map_cons, tally]
      split
      · next found =>
        subst found
        rw [more]
        refine congrArg _ (List.map_congr_left fun key hkey => ?_)
        rw [others key hkey fun h => new (h ▸ hkey)]
      · next ne =>
        rw [same first (by simp) ne]
        rcases List.mem_cons.1 hname with rfl | hname
        · exact absurd rfl ne
        · rw [ih distinct hname others]

/-- A name that has no count yet comes last, by induction on the counts. -/
theorem tally_of_not_mem {name : String} {counts : List (String × Nat)}
    (new : name ∉ counts.map Prod.fst)
    : tally name counts = counts ++ [(name, 1)] := by
  induction counts with
  | nil => rfl
  | cons first rest ih =>
      simp only [List.map_cons, List.mem_cons, not_or] at new
      simp [tally, Ne.symm new.1, ih new.2]

theorem tally_counted (names : List String) (name : String)
    : tally name (counted names) = counted (names ++ [name]) := by
  have other {key : String} (ne : key ≠ name)
      : (names ++ [name]).count key = names.count key := by
    simp [List.count_append, Ne.symm ne]
  rw [counted, counted, eraseDups_concat]
  split
  · next known =>
    refine tally_of_mem (nodup_eraseDups names) (List.mem_eraseDups.2 known) ?_ fun key _ ne => ?_
    · simp [List.count_append]
    · exact other ne
  · next new =>
    rw [tally_of_not_mem (by simpa [Function.comp_def] using new), List.map_append]
    refine congrArg₂ _ (List.map_congr_left fun key hkey => ?_) ?_
    · have ne : key ≠ name := fun h => new (h ▸ List.mem_eraseDups.1 hkey)
      rw [other ne]
    · simp [List.count_append, List.count_eq_zero_of_not_mem new]

/-- Counting the names of a list one by one counts each of them, by induction on the list from its
end.
-/
theorem foldl_tally (names : List String)
    : names.foldl (fun out name => tally name out) [] = counted names := by
  induction names using List.reverseRecOn with
  | nil => rfl
  | append_singleton names name ih =>
      rw [List.foldl_append, ih]
      exact tally_counted names name

theorem counted_fst (names : List String) : (counted names).map Prod.fst = names.eraseDups := by
  rw [counted, List.map_map]
  exact List.map_id _

/-- The counts of all names add up to the length of the list. -/
theorem sum_counted (names : List String)
    : ((counted names).map Prod.snd).sum = names.length := by
  have perm : names.eraseDups.Perm names.dedup :=
    (List.perm_ext_iff_of_nodup (nodup_eraseDups names) names.nodup_dedup).2 (by simp)
  rw [counted, List.map_map, ← List.sum_map_count_dedup_eq_length]
  exact (perm.map names.count).sum_eq

end Results

-----------------------------------------------------------------------------------------
-- Tables in order
-----------------------------------------------------------------------------------------

namespace Table

/-- The place of a row in a table: by falling count, and then by name. -/
def place (count : Nat) (name : String) : ℕᵒᵈ ×ₗ String :=
  toLex (OrderDual.toDual count, name)

theorem before_eq (count count' : Nat) (name name' : String)
    : before count name count' name' = decide (place count name ≤ place count' name') := by
  rw [Bool.eq_iff_iff, decide_eq_true_eq, place, place, Prod.Lex.toLex_le_toLex]
  simp [before]

/-- Sorted rows with different names are strictly in order. -/
theorem pairwise_sorted {α : Type} {count : α → Nat} {name : α → String} {rows : List α}
    (distinct : (rows.map name).Nodup)
    : (rows.mergeSort fun a b => before (count a) (name a) (count b) (name b)).Pairwise
        fun a b => count b < count a ∨ count a = count b ∧ name a < name b := by
  have sorted : (rows.mergeSort fun a b => before (count a) (name a) (count b) (name b)).Pairwise
      fun a b => place (count a) (name a) ≤ place (count b) (name b) :=
    pairwise_mergeSort_key fun a _ b _ => before_eq (count a) (count b) (name a) (name b)
  have different : (rows.mergeSort
      fun a b => before (count a) (name a) (count b) (name b)).Pairwise
        fun a b => name a ≠ name b :=
    List.pairwise_map.1 (((List.mergeSort_perm rows _).map name).nodup_iff.2 distinct)
  refine (sorted.and different).imp fun {a b} ⟨le, ne⟩ => ?_
  rcases Prod.Lex.toLex_le_toLex.1 le with more | ⟨same, le⟩
  · exact .inl more
  · exact .inr ⟨same, lt_of_le_of_ne le ne⟩

/-- The anomalies by frequency, with their counts, are those that the findings name. -/
theorem flagCounts_perm (rows : List Finding)
    : ((flagCounts rows).map fun c => (c.flag, c.count)).Perm
        (Results.counted ((broken rows).map (·.flag))) := by
  have perm := (List.mergeSort_perm
    (((broken rows).map (·.flag)).eraseDups.map fun flag =>
      (⟨flag, ((broken rows).map (·.flag)).count flag⟩ : FlagCount))
    fun a b => before a.count a.flag b.count b.flag).map fun c => (c.flag, c.count)
  rwa [List.map_map] at perm

/-- The row that a table has for a domain. -/
def failingRow (rows : List Finding) (domain : String) : FailingDomain :=
  let flags := ((broken rows).filter fun r => r.domain = domain).map (·.flag)
  ⟨domain, flags.length, "; ".intercalate flags⟩

/-- The rows of all domains that the findings name, not yet in order. -/
def failingRows (rows : List Finding) : List FailingDomain :=
  ((broken rows).map (·.domain)).eraseDups.map (failingRow rows)

theorem failingDomains_perm (rows : List Finding)
    : (failingDomains rows).Perm (failingRows rows) :=
  List.mergeSort_perm _ _

theorem failingRows_domain (rows : List Finding)
    : (failingRows rows).map (·.domain) = ((broken rows).map (·.domain)).eraseDups := by
  rw [failingRows, List.map_map]
  exact List.map_id _

theorem eq_failingRow_of_mem {rows : List Finding} {row : FailingDomain}
    (h : row ∈ failingDomains rows)
    : row = failingRow rows row.domain := by
  obtain ⟨domain, -, rfl⟩ := List.mem_map.1 ((failingDomains_perm rows).mem_iff.1 h)
  rfl

/-- The rows of all domains count every finding once. -/
theorem sum_failingDomains (rows : List Finding)
    : ((failingDomains rows).map (·.count)).sum = (broken rows).length := by
  have count (domain : String)
      : (failingRow rows domain).count = ((broken rows).map (·.domain)).count domain := by
    rw [failingRow, List.length_map, ← List.countP_eq_length_filter, List.count,
      List.countP_map]
    rfl
  have counts : (failingRows rows).map (·.count)
      = (Results.counted ((broken rows).map (·.domain))).map Prod.snd := by
    rw [failingRows, Results.counted, List.map_map, List.map_map]
    exact List.map_congr_left fun domain _ => count domain
  rw [((failingDomains_perm rows).map _).sum_eq, counts, Results.sum_counted, List.length_map]

/-- The domains that findings name are those of failures. -/
theorem mem_domain_broken_iff {verdicts : List Verdict} (judged : ∀ v ∈ verdicts, v.IsJudged)
    (domain : String)
    : domain ∈ (broken (findings verdicts)).map (·.domain)
      ↔ ∃ v ∈ verdicts, v.success = false ∧ v.domain = domain := by
  rw [broken_findings judged]
  constructor
  · intro h
    obtain ⟨r, hr, rfl⟩ := List.mem_map.1 h
    obtain ⟨v, hv, hr⟩ := List.mem_flatMap.1 hr
    obtain ⟨a, ha, rfl⟩ := List.mem_map.1 hr
    refine ⟨v, hv, ?_, rfl⟩
    rw [(judged v hv).success_eq, List.isEmpty_eq_false_iff_exists_mem]
    exact ⟨a, ha⟩
  · rintro ⟨v, hv, failure, rfl⟩
    rw [(judged v hv).success_eq, List.isEmpty_eq_false_iff_exists_mem] at failure
    obtain ⟨a, ha⟩ := failure
    exact List.mem_map.2
      ⟨findingOf v a, List.mem_flatMap.2 ⟨v, hv, List.mem_map_of_mem ha⟩, rfl⟩

-----------------------------------------------------------------------------------------
-- The tables of a pass
-----------------------------------------------------------------------------------------

/-- What the tables of a pass tell of its verdicts, beside the summary. -/
structure Tells (counts : List FlagCount) (domains : List FailingDomain)
    (verdicts : List Verdict) : Prop where
  /-- The anomalies are those of the summary, with the same counts. -/
  flags : ∃ flags,
    (Results.summary verdicts).field? "flags"
      = some (.object (flags.map fun entry => (entry.1, .int (entry.2 : ℕ))))
    ∧ (flags.map Prod.fst).Nodup
    ∧ (counts.map fun c => (c.flag, c.count)).Perm flags
  flags_in_order : counts.Pairwise
    fun b c => c.count < b.count ∨ b.count = c.count ∧ b.flag < c.flag
  /-- There is a row for each domain of a failure. -/
  failing : ∀ domain, (∃ row ∈ domains, row.domain = domain)
    ↔ ∃ v ∈ verdicts, v.success = false ∧ v.domain = domain
  /-- No domain has two rows. -/
  distinct : (domains.map (·.domain)).Nodup
  /-- A row counts the anomalies of all failures with its domain. -/
  counted : ∀ row ∈ domains,
    row.count = ((failuresOf row.domain verdicts).map (·.flags.length)).sum
  /-- A row names these anomalies, in the order of the verdicts. -/
  named : ∀ row ∈ domains,
    row.breakdown
      = "; ".intercalate
          ((failuresOf row.domain verdicts).flatMap fun v => v.flags.map Anomaly.name)
  domains_in_order : domains.Pairwise
    fun r s => s.count < r.count ∨ r.count = s.count ∧ r.domain < s.domain
  /-- Both tables count all anomalies. -/
  totals : (counts.map (·.count)).sum = (verdicts.map (·.flags.length)).sum
    ∧ (domains.map (·.count)).sum = (verdicts.map (·.flags.length)).sum

variable {verdicts : List Verdict} (judged : ∀ v ∈ verdicts, v.IsJudged)

include judged

/-- The tables of judged verdicts tell of them what the summary tells. -/
theorem tells_of_judged
    : Tells (flagCounts (findings verdicts)) (failingDomains (findings verdicts)) verdicts := by
  have names := flag_broken_findings judged
  have summed : Results.flagCounts verdicts
      = Results.counted ((broken (findings verdicts)).map (·.flag)) := by
    rw [names, Results.flagCounts, Results.foldl_tally]
  have all : (broken (findings verdicts)).length = (verdicts.map (·.flags.length)).sum := by
    rw [← List.length_map (·.flag), names, List.length_flatMap]
    simp only [List.length_map]
  have flags := flagCounts_perm (findings verdicts)
  have rows := (failingDomains_perm (findings verdicts)).map (·.domain)
  constructor
  case flags =>
    refine ⟨Results.flagCounts verdicts, rfl, ?_, summed ▸ flags⟩
    rw [summed, Results.counted_fst]
    exact nodup_eraseDups _
  case flags_in_order =>
    refine pairwise_sorted ?_
    rw [List.map_map]
    exact (List.map_id _).symm ▸ nodup_eraseDups _
  case failing =>
    intro domain
    rw [← mem_domain_broken_iff judged, ← List.mem_eraseDups, ← failingRows_domain,
      ← rows.mem_iff, List.mem_map]
  case distinct =>
    rw [rows.nodup_iff, failingRows_domain]
    exact nodup_eraseDups _
  case counted =>
    intro row hrow
    rw [eq_failingRow_of_mem hrow, failingRow, flag_findings_of_domain judged,
      List.length_flatMap]
    simp only [List.length_map]
  case named =>
    intro row hrow
    rw [eq_failingRow_of_mem hrow, failingRow, flag_findings_of_domain judged]
  case domains_in_order =>
    have distinct : ((failingRows (findings verdicts)).map (·.domain)).Nodup := by
      rw [failingRows_domain]
      exact nodup_eraseDups _
    exact pairwise_sorted distinct
  case totals =>
    constructor
    · have counts := (flags.map Prod.snd).sum_eq
      rw [List.map_map, Results.sum_counted, List.length_map] at counts
      exact counts.trans all
    · rw [sum_failingDomains, all]

/-- On verdicts the tables of a pass and its summary count the same. The anomalies by frequency
are those of the summary; the failing domains are those of the failures, each once, with all
their anomalies; both tables are in order of falling counts and count every anomaly. And the
summary divides the verdicts into those with an anomaly, which failed, and the others.
-/
theorem tables_count_as_summary
    : Tells (flagCounts (findings verdicts)) (failingDomains (findings verdicts)) verdicts
      ∧ ∃ passed failed : ℕ,
          (Results.summary verdicts).field? "domains" = some (.int verdicts.length)
          ∧ (Results.summary verdicts).field? "passed" = some (.int passed)
          ∧ (Results.summary verdicts).field? "failed" = some (.int failed)
          ∧ passed + failed = verdicts.length
          ∧ failed = verdicts.countP fun v => v.flags ≠ [] := by
  have flagged : Results.failedCount verdicts = verdicts.countP fun v => v.flags ≠ [] := by
    refine List.countP_congr fun v hv => ?_
    rw [(judged v hv).success_eq]
    simp
  have few : Results.failedCount verdicts ≤ verdicts.length := List.countP_le_length
  have passed : ((verdicts.length - Results.failedCount verdicts : ℕ) : ℤ)
      = verdicts.length - Results.failedCount verdicts :=
    Int.ofNat_sub few
  refine ⟨tells_of_judged judged, verdicts.length - Results.failedCount verdicts,
    Results.failedCount verdicts, rfl, ?_, rfl, Nat.sub_add_cancel few, flagged⟩
  rw [passed]
  rfl

omit judged

/-- Verdicts on two domains: one that fails on both axes, and one with two failures and a
success.
-/
def mixedVerdicts : List Verdict :=
  let other : Published :=
    ⟨.ofList ["ns.other."], .ofList ["192.0.2.9"], true, true, none⟩
  [.of ⟨"b.example", some (.ofList ["ns.example."]), some (.ofList ["192.0.2.1"])⟩ other,
    .of ⟨"a.example", some .empty, none⟩ (.failed "timeout"),
    .of ⟨"a.example", none, none⟩ other,
    .of ⟨"a.example", some (.ofList ["ns.example."]), none⟩ other]

/-- Witness: of four verdicts on two domains three failed, with four anomalies. -/
theorem mixedVerdicts_counted
    : (∀ v ∈ mixedVerdicts, v.IsJudged)
      ∧ Tells (flagCounts (findings mixedVerdicts)) (failingDomains (findings mixedVerdicts))
          mixedVerdicts
      ∧ ((failingDomains (findings mixedVerdicts)).map (·.count)).sum = 4
      ∧ (Results.summary mixedVerdicts).field? "passed" = some (.int 1)
      ∧ (Results.summary mixedVerdicts).field? "failed" = some (.int 3) := by
  have judged : ∀ v ∈ mixedVerdicts, v.IsJudged := by
    simp only [mixedVerdicts, List.forall_mem_cons]
    exact ⟨⟨_, _, rfl⟩, ⟨_, _, rfl⟩, ⟨_, _, rfl⟩, ⟨_, _, rfl⟩, by simp⟩
  have flagged : (mixedVerdicts.countP fun v => v.flags ≠ []) = 3 := by decide +kernel
  have total : (mixedVerdicts.map (·.flags.length)).sum = 4 := by decide +kernel
  obtain ⟨tells, passed, failed, -, hpassed, hfailed, all, some_failed⟩ :=
    tables_count_as_summary judged
  obtain rfl : failed = 3 := some_failed.trans flagged
  obtain rfl : passed = 1 := by
    have : mixedVerdicts.length = 4 := rfl
    omega
  exact ⟨judged, tells, tells.totals.2.trans total, hpassed, hfailed⟩

end Table

end NameserverAudit
