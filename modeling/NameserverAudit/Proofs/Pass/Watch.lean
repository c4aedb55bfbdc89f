import Mathlib.Data.List.Forall2
import NameserverAudit.Pass

/-! Passes that are made one after the other. Main statements: a pass gives each entry of the
list a verdict on it, in the order of the list; and a watch that came to its end made its passes
with a pause between any two of them, all clean but the last, and the last one has a failure or
is the greatest number allowed.
-/

namespace NameserverAudit.Pass

variable {ε : Type} {lookup : Lookup ε} {workers : Nat} {list : List Expected}
  {interval : Seconds}

-----------------------------------------------------------------------------------------
-- One pass
-----------------------------------------------------------------------------------------

/-- There is one verdict on each entry of the list, in the order of the list. -/
def Judges (list : List Expected) (verdicts : List Verdict) : Prop :=
  List.Forall₂ (fun e v => ∃ published, v = Verdict.of e published) list verdicts

/-- What an audit comes to by what its lookup found. -/
def conclude (e : Expected) : Except (LookupFault ε) Published → Except ε Verdict
  | .ok p => .ok (.of e p)
  | .error (.unresolved message) => .ok (.of e (.failed message))
  | .error (.refused fault) => .error fault

variable (lookup) in
theorem auditOne_fst (e : Expected) (j : Journal)
    : (auditOne lookup e j).1 = conclude e (lookup e.domain (j.add (.began e.domain))).1 := by
  unfold auditOne
  rcases lookup e.domain (j.add (.began e.domain)) with ⟨(message | fault) | p, k⟩ <;> rfl

/-- A verdict on a domain judges what was published, or nothing. -/
theorem auditOne_judges {e : Expected} {v : Verdict} {j : Journal}
    (h : (auditOne lookup e j).1 = .ok v)
    : ∃ published, v = .of e published := by
  rw [auditOne_fst] at h
  generalize (lookup e.domain (j.add (.began e.domain))).1 = found at h
  rcases found with (message | fault) | p
  · exact ⟨.failed message, (Except.ok.inj h).symm⟩
  · cases h
  · exact ⟨p, (Except.ok.inj h).symm⟩

/-- Audits that are not broken off judge every entry, by induction on the list. -/
theorem auditAll_judges {verdicts : List Verdict} {j : Journal}
    (h : (auditAll lookup list j).1 = .ok verdicts)
    : Judges list verdicts := by
  induction list generalizing verdicts j with
  | nil =>
      rw [← Except.ok.inj h]
      exact .nil
  | cons e rest ih =>
      simp only [auditAll] at h
      split at h
      · cases h
      · cases h
      · next v vs hv hvs =>
        rw [← Except.ok.inj h]
        exact .cons (auditOne_judges hv) (ih hvs)

theorem run_judges {verdicts : List Verdict} {j : Journal}
    (h : (run lookup workers list j).1 = .ok verdicts)
    : Judges list verdicts := by
  cases list with
  | nil =>
      rw [← Except.ok.inj h]
      exact .nil
  | cons e rest => exact auditAll_judges h

-----------------------------------------------------------------------------------------
-- Passes one after the other
-----------------------------------------------------------------------------------------

variable (lookup workers list interval) in
/-- Passes over a list that were made one after the other, with a pause between any two. -/
inductive Series : Journal → List (List Verdict) → Journal → Prop
  | single {verdicts : List Verdict} {j k : Journal}
      (pass : run lookup workers list j = (.ok verdicts, k))
      : Series j [verdicts] k
  | again {verdicts : List Verdict} {more : List (List Verdict)} {j k last : Journal}
      (pass : run lookup workers list j = (.ok verdicts, k))
      (rest : Series (k.add (.paused interval)) more last)
      : Series j (verdicts :: more) last

/-- Each pass of a series judges every entry, by induction on the series. -/
theorem Series.judges {passes : List (List Verdict)} {j k : Journal}
    (h : Series lookup workers list interval j passes k)
    : ∀ verdicts ∈ passes, Judges list verdicts := by
  induction h with
  | single pass =>
      intro verdicts hv
      rw [List.mem_singleton.1 hv]
      exact run_judges (congrArg Prod.fst pass)
  | again pass _ ih =>
      intro verdicts hv
      rcases List.mem_cons.1 hv with rfl | hv
      · exact run_judges (congrArg Prod.fst pass)
      · exact ih verdicts hv

/-- A watch that came to its end made a series of passes, all clean but the last. The last one
has a failure, which is noticed, or no more passes are allowed. By induction on the passes that
can be made.
-/
theorem watchFrom_ended {maxPasses : Option Int} {done fuel : Nat} {j k : Journal}
    {passes : List (List Verdict)}
    (h : watchFrom lookup workers list interval maxPasses done fuel j = (passes, .ended, k))
    : ∃ earlier last k',
        passes = earlier ++ [last]
        ∧ Series lookup workers list interval j passes k'
        ∧ (∀ verdicts ∈ earlier, failed verdicts = false)
        ∧ (failed last = true ∧ k = k'.notice (.watchStopped (done + passes.length))
          ∨ failed last = false
            ∧ k = k'
            ∧ ∃ n, maxPasses = some n ∧ n ≤ (done + passes.length : Nat)) := by
  induction fuel generalizing done j passes with
  | zero => cases h
  | succ fuel ih =>
      unfold watchFrom at h
      split at h
      · cases h
      · next verdicts k₁ pass =>
        dsimp only at h
        split at h
        · next hfailed =>
          cases h
          exact ⟨[], verdicts, k₁, rfl, .single pass, by simp, .inl ⟨hfailed, rfl⟩⟩
        · next clean =>
          have clean : failed verdicts = false := by simpa using clean
          split at h
          · next enough =>
            cases h
            obtain ⟨n, rfl, hn⟩ : ∃ n, maxPasses = some n ∧ n ≤ ((done + 1 : Nat) : Int) := by
              cases maxPasses with
              | none => cases enough
              | some n => exact ⟨n, rfl, by simpa using enough⟩
            exact ⟨[], verdicts, k, rfl, .single pass, by simp, .inr ⟨clean, rfl, n, rfl, hn⟩⟩
          · rcases hmore : watchFrom lookup workers list interval maxPasses (done + 1) fuel
              (k₁.add (.paused interval)) with ⟨more, ending, k₂⟩
            rw [hmore] at h
            cases h
            obtain ⟨earlier, last, k', rfl, series, allClean, ended⟩ := ih hmore
            refine ⟨verdicts :: earlier, last, k', rfl, .again pass series, ?_, ?_⟩
            · intro vs hvs
              rcases List.mem_cons.1 hvs with rfl | hvs
              · exact clean
              · exact allClean vs hvs
            · rw [List.length_cons, ← Nat.add_assoc, Nat.add_right_comm]
              exact ended

end NameserverAudit.Pass
