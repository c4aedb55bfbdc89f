import Mathlib.Order.Bounds.Basic
import NameserverAudit.Proofs.Pass.Totality
import NameserverAudit.Proofs.Pass.Watch

/-! When a watch stops. Main statement: a watch that came to its end made clean passes with one
pause between any two, and a last pass that has a failure or is the greatest number allowed;
with a greatest number it always comes to its end, at its first pass with a failure if that
comes earlier.
-/

namespace NameserverAudit

variable {ε : Type}

def Event.pause? : Event → Option Seconds
  | .paused time => some time
  | _ => none

/-- The pauses of a run, last first. -/
def Journal.pauses (j : Journal) : List Seconds :=
  j.events.filterMap Event.pause?

/-- Nobody pauses while something is looked up. -/
def Lookup.Unpaused (lookup : Lookup ε) : Prop :=
  ∀ domain j, (lookup domain j).2.pauses = j.pauses

/-- What is looked up for a list is found or cannot be resolved, at all times. -/
def Lookup.Unrefused (lookup : Lookup ε) (list : List Expected) : Prop :=
  ∀ e ∈ list, ∀ j fault, (lookup e.domain j).1 ≠ .error (.refused fault)

namespace Pass

variable {lookup : Lookup ε} {workers : Nat} {list : List Expected} {interval : Seconds}

-----------------------------------------------------------------------------------------
-- Pauses
-----------------------------------------------------------------------------------------

section Pauses

variable (unpaused : lookup.Unpaused)

include unpaused

theorem auditOne_pauses (e : Expected) (j : Journal)
    : (auditOne lookup e j).2.pauses = j.pauses := by
  have found := unpaused e.domain (j.add (.began e.domain))
  unfold auditOne
  split
  all_goals
    next hlookup =>
    rw [hlookup] at found
    exact found

/-- Nobody pauses during a pass, by induction on the list. -/
theorem auditAll_pauses (j : Journal) : (auditAll lookup list j).2.pauses = j.pauses := by
  induction list generalizing j with
  | nil => rfl
  | cons e rest ih => exact (ih _).trans (auditOne_pauses unpaused e j)

theorem run_pauses (workers : Nat) (list : List Expected) (j : Journal)
    : (run lookup workers list j).2.pauses = j.pauses := by
  cases list with
  | nil => rfl
  | cons e rest => exact auditAll_pauses unpaused (j.add (.workers (min workers _)))

/-- A series has one pause fewer than it has passes, all of the given length, by induction on
the series.
-/
theorem Series.pauses {passes : List (List Verdict)} {j k : Journal}
    (h : Series lookup workers list interval j passes k)
    : k.pauses = List.replicate (passes.length - 1) interval ++ j.pauses := by
  induction h with
  | @single verdicts j k pass =>
      have kept := run_pauses unpaused workers list j
      rw [pass] at kept
      exact kept
  | @again verdicts more j k last pass rest ih =>
      have kept := run_pauses unpaused workers list j
      rw [pass] at kept
      have one : (k.add (.paused interval)).pauses = interval :: j.pauses := by
        rw [← show k.pauses = j.pauses from kept]
        rfl
      obtain ⟨n, hn⟩ : ∃ n, more.length = n + 1 := by
        cases rest <;> exact ⟨_, rfl⟩
      rw [ih, one, List.length_cons, hn, Nat.add_sub_cancel, Nat.add_sub_cancel,
        List.replicate_succ', List.append_assoc, List.singleton_append]

end Pauses

-----------------------------------------------------------------------------------------
-- Passes without an end
-----------------------------------------------------------------------------------------

variable (lookup workers list interval) in
/-- The pass that is made after some others if passes never end, with a pause between any two. -/
def passAfter : Nat → Journal → Except ε (List Verdict) × Journal
  | 0, j => run lookup workers list j
  | done + 1, j => passAfter done ((run lookup workers list j).2.add (.paused interval))

variable (lookup workers list interval) in
/-- The pass with a number has a failure; passes are numbered from one. -/
def FailsAt (j : Journal) (number : Nat) : Prop :=
  ∃ done verdicts,
    number = done + 1
    ∧ (passAfter lookup workers list interval done j).1 = .ok verdicts
    ∧ failed verdicts = true

/-- The passes of a series are the first ones of those without an end, by induction on the
series.
-/
theorem Series.passAfter {passes : List (List Verdict)} {j k : Journal}
    (h : Series lookup workers list interval j passes k) {done : Nat} {verdicts : List Verdict}
    (at_done : passes[done]? = some verdicts)
    : (passAfter lookup workers list interval done j).1 = .ok verdicts := by
  induction h generalizing done with
  | single pass =>
      obtain ⟨hlt, heq⟩ := List.getElem?_eq_some_iff.1 at_done
      obtain rfl : done = 0 := by simpa using hlt
      rw [← heq]
      exact congrArg Prod.fst pass
  | again pass _ ih =>
      cases done with
      | zero =>
          rw [← Option.some.inj at_done]
          exact congrArg Prod.fst pass
      | succ done =>
          rw [Pass.passAfter, pass]
          exact ih at_done

/-- A pass of a series has a failure just if its verdicts tell of one. -/
theorem Series.failsAt_iff {passes : List (List Verdict)} {j k : Journal}
    (h : Series lookup workers list interval j passes k) {done : Nat} {verdicts : List Verdict}
    (at_done : passes[done]? = some verdicts)
    : FailsAt lookup workers list interval j (done + 1) ↔ failed verdicts = true := by
  have made := h.passAfter at_done
  constructor
  · rintro ⟨done', verdicts', hnumber, hpass, hfailed⟩
    obtain rfl : done = done' := Nat.succ.inj hnumber
    rw [made] at hpass
    rwa [Except.ok.inj hpass]
  · exact fun hfailed => ⟨done, verdicts, rfl, made, hfailed⟩

-----------------------------------------------------------------------------------------
-- The number of passes
-----------------------------------------------------------------------------------------

variable (lookup workers list interval) in
/-- No more passes are made than are allowed, but one is made in any case. By induction on the
passes that can be made.
-/
theorem watchFrom_length_le (m : Int) (done fuel : Nat) (j : Journal)
    : ((watchFrom lookup workers list interval (some m) done fuel j).1.length : Int)
      ≤ max 1 (m - done) := by
  induction fuel generalizing done j with
  | zero => simp [watchFrom]
  | succ fuel ih =>
      unfold watchFrom
      split
      · simp
      · next verdicts k _ =>
        dsimp only
        split
        · simp
        · split
          · simp
          · next more_allowed =>
            have hlt : ((done + 1 : Nat) : Int) < m := by simpa using more_allowed
            have hmore := ih (done + 1) (k.add (.paused interval))
            simp only [List.length_cons]
            omega

variable (lookup workers list interval) in
/-- With as many passes as are allowed a watch is not left unfinished, by induction on them. -/
theorem watchFrom_ne_unfinished {m : Int} {done fuel : Nat} (enough : max 1 (m - done) ≤ fuel)
    (j : Journal)
    : (watchFrom lookup workers list interval (some m) done fuel j).2.1 ≠ .unfinished := by
  induction fuel generalizing done j with
  | zero => omega
  | succ fuel ih =>
      unfold watchFrom
      split
      · simp
      · next verdicts k _ =>
        dsimp only
        split
        · simp
        · split
          · simp
          · next more_allowed =>
            have hlt : ((done + 1 : Nat) : Int) < m := by simpa using more_allowed
            exact ih (by omega) (k.add (.paused interval))

/-- A watch that is not left unfinished goes the same way if more passes can be made, by
induction on those that could be made anyway.
-/
theorem watchFrom_add {maxPasses : Option Int} {done fuel : Nat} {j : Journal}
    (h : (watchFrom lookup workers list interval maxPasses done fuel j).2.1 ≠ .unfinished)
    (more : Nat)
    : watchFrom lookup workers list interval maxPasses done (fuel + more) j
      = watchFrom lookup workers list interval maxPasses done fuel j := by
  induction fuel generalizing done j with
  | zero => exact absurd rfl h
  | succ fuel ih =>
      rw [Nat.add_right_comm]
      unfold watchFrom at h ⊢
      split at h
      · rfl
      · next verdicts k _ =>
        dsimp only at h ⊢
        split at h
        · next hfailed => simp only [hfailed, if_true]
        · next hclean =>
          split at h
          · next henough => simp only [hclean, henough, if_true]
          · next hmore => simp only [hclean, hmore, ih h]

variable (workers interval) in
/-- A watch is not broken off if all that it looks up is found or unresolved, by induction on
the passes that can be made.
-/
theorem watchFrom_not_broken (unrefused : lookup.Unrefused list) (maxPasses : Option Int)
    (done fuel : Nat) (j : Journal) (fault : ε)
    : (watchFrom lookup workers list interval maxPasses done fuel j).2.1 ≠ .broken fault := by
  have passes (j : Journal) : ∃ verdicts, (run lookup workers list j).1 = .ok verdicts := by
    rw [run_fst]
    rcases auditAll_cases lookup list (j.add (.workers (min workers list.length)))
      with ⟨verdicts, h, -⟩ | ⟨i, e, fault, -, he, hbreaks, -⟩
    · exact ⟨verdicts, h⟩
    · rw [auditOne_fst] at hbreaks
      rcases found : (lookup e.domain _).1 with (message | fault) | p
      · rw [found] at hbreaks
        cases hbreaks
      · exact absurd found (unrefused e (List.mem_of_getElem? he) _ _)
      · rw [found] at hbreaks
        cases hbreaks
  induction fuel generalizing done j with
  | zero => simp [watchFrom]
  | succ fuel ih =>
      unfold watchFrom
      split
      · next hrun =>
        obtain ⟨verdicts, hok⟩ := passes j
        rw [hrun] at hok
        cases hok
      · dsimp only
        split
        · simp
        · split
          · simp
          · exact ih _ _

-----------------------------------------------------------------------------------------
-- Watches
-----------------------------------------------------------------------------------------

/-- How a watch went that came to its end. The last pass stands apart. -/
structure Watched (lookup : Lookup ε) (workers : Nat) (list : List Expected)
    (interval : Seconds) (maxPasses : Option Int) (j : Journal) (earlier : List (List Verdict))
    (last : List Verdict) (k : Journal)
    : Prop where
  /-- The passes were made one after the other, and after the last one a failure was noticed
  at most. -/
  series : ∃ k',
    Series lookup workers list interval j (earlier ++ [last]) k'
    ∧ k = if failed last then k'.notice (.watchStopped (earlier.length + 1)) else k'
  /-- There was one pause after each earlier pass. -/
  pauses : lookup.Unpaused →
    k.pauses = List.replicate earlier.length interval ++ j.pauses
  clean : ∀ verdicts ∈ earlier, failed verdicts = false
  /-- The last pass has a failure, or no more passes are allowed. -/
  stopped : failed last = true ∨ ∃ m, maxPasses = some m ∧ (earlier.length + 1 : Int) = max 1 m

theorem watch_watched {maxPasses : Option Int} {fuel : Nat} {j k : Journal}
    {passes : List (List Verdict)}
    (h : watch lookup workers list interval maxPasses fuel j = (passes, .ended, k))
    : ∃ earlier last,
        passes = earlier ++ [last]
        ∧ Watched lookup workers list interval maxPasses j earlier last k := by
  obtain ⟨earlier, last, k', rfl, series, clean, ended⟩ := watchFrom_ended h
  simp only [List.length_append, List.length_singleton, Nat.zero_add] at ended
  refine ⟨earlier, last, rfl, ?_⟩
  have pauses (unpaused : lookup.Unpaused)
      : k'.pauses = List.replicate earlier.length interval ++ j.pauses := by
    simpa using series.pauses unpaused
  rcases ended with ⟨hfailed, rfl⟩ | ⟨hclean, rfl, m, rfl, hm⟩
  · exact ⟨⟨k', series, by simp [hfailed]⟩, pauses, clean, .inl hfailed⟩
  · refine ⟨⟨k, series, by simp [hclean]⟩, pauses, clean, .inr ⟨m, rfl, ?_⟩⟩
    have hle := watchFrom_length_le lookup workers list interval m 0 fuel j
    rw [show watchFrom _ _ _ _ _ _ _ _ = _ from h] at hle
    simp only [List.length_append, List.length_singleton] at hle
    omega

/-- A watch that ended made as many passes as are allowed, or fewer if there is a failure
earlier.
-/
theorem Watched.length {m : Int} {j k : Journal} {earlier : List (List Verdict)}
    {last : List Verdict}
    (h : Watched lookup workers list interval (some m) j earlier last k)
    (allowed : (earlier.length + 1 : Int) ≤ max 1 m)
    : (∀ number, IsLeast {n | FailsAt lookup workers list interval j n} number →
        (earlier.length + 1 : Int) = min (max 1 m) number)
      ∧ ((∀ number, ¬FailsAt lookup workers list interval j number) →
        (earlier.length + 1 : Int) = max 1 m) := by
  obtain ⟨k', series, -⟩ := h.series
  have at_last : (earlier ++ [last])[earlier.length]? = some last := by simp
  have clean (done : Nat) (hlt : done < earlier.length)
      : ¬FailsAt lookup workers list interval j (done + 1) := by
    have at_done : (earlier ++ [last])[done]? = some earlier[done] := by
      rw [List.getElem?_append_left hlt, List.getElem?_eq_getElem hlt]
    rw [series.failsAt_iff at_done, h.clean _ (List.getElem_mem hlt)]
    exact Bool.false_ne_true
  have stopped : FailsAt lookup workers list interval j (earlier.length + 1)
      ∨ (earlier.length + 1 : Int) = max 1 m := by
    refine h.stopped.imp (series.failsAt_iff at_last).2 ?_
    rintro ⟨m', hm, hlength⟩
    rwa [Option.some.inj hm]
  constructor
  · rintro number ⟨fails, least⟩
    obtain ⟨done, -, rfl, -⟩ := id fails
    have hle : earlier.length ≤ done := Nat.le_of_not_lt fun hlt => clean done hlt fails
    rcases stopped with here | hmax
    · have := least here
      omega
    · omega
  · intro never
    exact stopped.resolve_left (never _)

/-- A watch that came to its end, however many more passes could have been made, made clean
passes and one last pass, with a pause of the given length between any two and none after the
last; the last one has a failure or is the greatest number allowed. With a greatest number, the
least being one, a watch comes to its end unless it is broken off: after that many passes, or at
the first one with a failure if that is earlier.
-/
theorem watch_stops_at_first_failure (lookup : Lookup ε) (workers : Nat)
    (list : List Expected) (interval : Seconds) (maxPasses : Option Int) (fuel : Nat)
    (j : Journal)
    : (∀ passes k,
        watch lookup workers list interval maxPasses fuel j = (passes, .ended, k) →
          (∃ earlier last,
            passes = earlier ++ [last]
            ∧ Watched lookup workers list interval maxPasses j earlier last k)
          ∧ ∀ more,
              watch lookup workers list interval maxPasses (fuel + more) j
                = (passes, .ended, k))
      ∧ ∀ m, maxPasses = some m → max 1 m ≤ fuel → lookup.Unrefused list →
          ∃ passes k,
            watch lookup workers list interval maxPasses fuel j = (passes, .ended, k)
            ∧ (∀ number, IsLeast {n | FailsAt lookup workers list interval j n} number →
                (passes.length : Int) = min (max 1 m) number)
            ∧ ((∀ number, ¬FailsAt lookup workers list interval j number) →
                (passes.length : Int) = max 1 m) := by
  constructor
  · intro passes k h
    refine ⟨watch_watched h, fun more => ?_⟩
    have finished : (watch lookup workers list interval maxPasses fuel j).2.1 ≠ .unfinished := by
      rw [h]
      simp
    exact (watchFrom_add finished more).trans h
  · rintro m rfl enough unrefused
    rcases h : watch lookup workers list interval (some m) fuel j with ⟨passes, ending, k⟩
    have fits : max 1 (m - (0 : Nat)) ≤ fuel := by simpa using enough
    have finished := watchFrom_ne_unfinished lookup workers list interval fits j
    have unbroken := watchFrom_not_broken workers interval unrefused (some m) 0 fuel j
    have allowed := watchFrom_length_le lookup workers list interval m 0 fuel j
    rw [show watchFrom _ _ _ _ _ _ _ _ = _ from h] at finished unbroken allowed
    cases ending with
    | unfinished => exact absurd rfl finished
    | broken fault => exact absurd rfl (unbroken fault)
    | ended =>
        obtain ⟨earlier, last, rfl, watched⟩ := watch_watched h
        have hlength : ((earlier ++ [last]).length : Int) = earlier.length + 1 := by simp
        have bound : (earlier.length + 1 : Int) ≤ max 1 m := by simpa [hlength] using allowed
        refine ⟨earlier ++ [last], k, rfl, ?_⟩
        rw [hlength]
        exact watched.length bound

/-- One pass is made if none is allowed. -/
example
    : (watch (fun _ j => (.ok ⟨.empty, .empty, true, true, none⟩, j) : Lookup Empty) 1 []
        (.whole 60) (some 0) 1 .start).1 = [[]] := by
  decide

/-- A lookup that finds a nameserver until there were two pauses, and nothing after that. -/
def fadingLookup : Lookup Empty := fun _ j =>
  if j.pauses.length < 2 then (.ok ⟨.ofList ["ns.example."], .empty, true, true, none⟩, j)
  else (.error (.unresolved "gone"), j)

/-- A domain with one nameserver that is expected. -/
def fadingEntry : Expected := ⟨"www.example", some (.ofList ["ns.example."]), none⟩

/-- Witness: a watch of at most five passes stops at the third one, after two pauses. -/
theorem fadingLookup_stops_at_third_pass
    : ∃ earlier last k,
        watch fadingLookup 1 [fadingEntry] (.whole 60) (some 5) 5 .start
          = (earlier ++ [last], .ended, k)
        ∧ earlier.length = 2
        ∧ failed last = true
        ∧ k.pauses = [.whole 60, .whole 60] := by
  have unpaused : fadingLookup.Unpaused := by
    intro domain j
    unfold fadingLookup
    split <;> rfl
  have unrefused : fadingLookup.Unrefused [fadingEntry] :=
    fun e _ j fault => nomatch fault
  have third : IsLeast {n | FailsAt fadingLookup 1 [fadingEntry] (.whole 60) .start n} 3 := by
    refine ⟨⟨2, _, rfl, rfl, by decide⟩, ?_⟩
    rintro _ ⟨- | - | done, verdicts, rfl, made, hfailed⟩
    · cases made
      revert hfailed
      decide
    · cases made
      revert hfailed
      decide
    · omega
  obtain ⟨ends, stops⟩ :=
    watch_stops_at_first_failure fadingLookup 1 [fadingEntry] (.whole 60) (some 5) 5 .start
  obtain ⟨passes, k, h, hnumber, -⟩ := stops 5 rfl (by decide) unrefused
  obtain ⟨⟨earlier, last, rfl, watched⟩, -⟩ := ends passes k h
  have hlength : earlier.length = 2 := by
    have := hnumber 3 third
    simp at this
    omega
  refine ⟨earlier, last, k, h, hlength, ?_, ?_⟩
  · rcases watched.stopped with hfailed | ⟨m, hm, hmax⟩
    · exact hfailed
    · cases hm
      omega
  · rw [watched.pauses unpaused, hlength]
    rfl

end Pass

end NameserverAudit
