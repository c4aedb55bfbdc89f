import NameserverAudit.Proofs.Json.RoundTrip
import NameserverAudit.Report.Results

/-! Results as they are written. Main statement: the array of a pass is read back as the objects
of all its verdicts, or of those only that tell of a failure, in order.
-/

namespace NameserverAudit

-----------------------------------------------------------------------------------------
-- One verdict
-----------------------------------------------------------------------------------------

/-- The object says that it is no success. -/
def Json.tellsFailure (v : Json) : Bool :=
  match v.field? "success" with
  | some (.bool false) => true
  | _ => false

theorem Json.ofStrings_printable (items : List String) : (ofStrings items).Printable := by
  refine itemsPrintable_iff.2 fun v hv => ?_
  obtain ⟨s, -, rfl⟩ := List.mem_map.1 hv
  trivial

namespace Verdict

theorem toJson_printable (v : Verdict) : v.toJson.Printable := by
  have names
      : ["domain_name", "success", "reason", "flags", "nameservers", "ips"].Nodup := by
    decide
  exact ⟨names, trivial, trivial, Json.ofStrings_printable _, Json.ofStrings_printable _,
    Json.ofStrings_printable _, Json.ofStrings_printable _, trivial⟩

/-- The object of a verdict tells of a failure just if the verdict is no success. -/
theorem tellsFailure_toJson (v : Verdict) : v.toJson.tellsFailure = !v.success := by
  cases hsuccess : v.success <;>
    simp [Json.tellsFailure, toJson, Json.field?, Json.lookup, hsuccess]

end Verdict

-----------------------------------------------------------------------------------------
-- The verdicts of a pass
-----------------------------------------------------------------------------------------

namespace Results

/-- Of the objects of a pass those that are written: all of them, or those that tell of a
failure.
-/
def chosen (includeAll : Bool) (objects : List Json) : List Json :=
  if includeAll then objects else objects.filter Json.tellsFailure

/-- The items of an array are shown one by one. -/
theorem shownItems_eq_map (values : List Json) : shownItems values = values.map shown := by
  induction values with
  | nil => rfl
  | cons v rest ih => rw [shownItems, ih, List.map_cons]

theorem shown_ofStrings (items : List String)
    : shown (Json.ofStrings items) = .ofStrings items := by
  simp [Json.ofStrings, shown, shownItems_eq_map]

/-- A verdict has no internal fields. -/
theorem object_eq (v : Verdict) : object v = v.toJson := by
  have names
      : ∀ name ∈ ["domain_name", "success", "reason", "flags", "nameservers", "ips"],
          isInternal name = false := by
    decide
  simp only [List.forall_mem_cons] at names
  simp [object, Verdict.toJson, shown, shownFields, shown_ofStrings, names]

/-- The verdicts that are selected are shown in full. -/
theorem toJson_eq_array (includeAll : Bool) (verdicts : List Verdict)
    : toJson includeAll verdicts = .array ((selected includeAll verdicts).map Verdict.toJson) := by
  have objects : object = Verdict.toJson := funext object_eq
  have fixed : shown ∘ Verdict.toJson = Verdict.toJson := objects
  rw [toJson, objects, shown, shownItems_eq_map, List.map_map, fixed]

/-- The verdicts that are selected are those whose objects are chosen. -/
theorem toJson_eq (includeAll : Bool) (verdicts : List Verdict)
    : toJson includeAll verdicts = .array (chosen includeAll (verdicts.map Verdict.toJson)) := by
  cases includeAll with
  | true =>
      rw [toJson_eq_array, selected, List.filter_eq_self.2 (by simp)]
      rfl
  | false =>
      simp only [toJson_eq_array, selected, chosen, Bool.false_or, Bool.false_eq_true, if_false,
        List.filter_map, Function.comp_def, Verdict.tellsFailure_toJson]

/-- The array of a pass is read back. -/
theorem parse_toJson (includeAll : Bool) (verdicts : List Verdict)
    : Json.parse (toJson includeAll verdicts).render = .ok (toJson includeAll verdicts) := by
  rw [toJson_eq_array]
  refine Json.parse_render (Json.itemsPrintable_iff.2 fun o ho => ?_)
  obtain ⟨v, -, rfl⟩ := List.mem_map.1 ho
  exact v.toJson_printable

/-- Without the successes no object is written just if no verdict is a failure. -/
theorem chosen_eq_nil_iff (verdicts : List Verdict)
    : chosen false (verdicts.map Verdict.toJson) = [] ↔ ∀ v ∈ verdicts, v.success = true := by
  simp [chosen, List.filter_eq_nil_iff, Verdict.tellsFailure_toJson]

end Results

end NameserverAudit
