import NameserverAudit.Exchange.Query

/-! What a procedure does, whoever runs it. Its actions lead to what is left of it, and in the end
to its result. Main statements: procedures that follow each other split the actions between them,
a procedure done by itself takes actions of its own, and bounds on the actions and properties of
the messages carry over to procedures that follow each other.
-/

namespace NameserverAudit

/-- The messages among actions, in the order in which they were sent. -/
def Action.sent (actions : List Action) : List Sent :=
  actions.filterMap Action.sent?

namespace Procedure

variable {α β : Type} {t t' last : Procedure α} {f : α → Procedure β} {action : Action}
  {actions : List Action} {a : α} {b : β}

-----------------------------------------------------------------------------------------
-- Actions of a procedure
-----------------------------------------------------------------------------------------

/-- The actions lead from a procedure to what is left of it. -/
inductive Reaches : Procedure α → List Action → Procedure α → Prop
  | here (t : Procedure α) : Reaches t [] t
  | step {t t' last : Procedure α} {action : Action} {actions : List Action}
    (does : t.Does action t') (more : Reaches t' actions last)
    : Reaches t (action :: actions) last

/-- The actions bring a procedure to its result. -/
def Completes (t : Procedure α) (actions : List Action) (a : α) : Prop :=
  t.Reaches actions (.done a)

/-- By induction on the actions before the last one. -/
theorem Reaches.snoc (h : t.Reaches actions t') (does : t'.Does action last)
    : t.Reaches (actions ++ [action]) last := by
  induction h with
  | here t => exact .step does (.here _)
  | step first _ ih => exact .step first (ih does)

theorem completes_pure_iff {a' : α}
    : (pure a : Procedure α).Completes actions a' ↔ actions = [] ∧ a' = a := by
  constructor
  · intro h
    cases h with
    | here => exact ⟨rfl, rfl⟩
    | step does _ => cases does
  · rintro ⟨rfl, rfl⟩
    exact .here _

theorem completes_send_iff {m : Sent} {r : Reply}
    : (send m).Completes actions r ↔ actions = [.exchanged m r] := by
  constructor
  · intro h
    cases h with
    | step does more =>
        cases does
        obtain ⟨rfl, rfl⟩ := completes_pure_iff.1 more
        rfl
  · rintro rfl
    exact .step (.exchange m .done r) (.here _)

theorem completes_readClock_iff {time : Double}
    : readClock.Completes actions time ↔ actions = [.read time] := by
  constructor
  · intro h
    cases h with
    | step does more =>
        cases does
        obtain ⟨rfl, rfl⟩ := completes_pure_iff.1 more
        rfl
  · rintro rfl
    exact .step (.clock .done time) (.here _)

/-- Procedures that follow each other split the actions between them, by induction on the first. -/
theorem completes_bind_iff
    : (t >>= f).Completes actions b
      ↔ ∃ first second a, actions = first ++ second ∧ t.Completes first a
          ∧ (f a).Completes second b := by
  constructor
  · intro h
    replace h : (t.bind f).Completes actions b := h
    induction t generalizing actions with
    | done a => exact ⟨[], actions, a, rfl, .here _, h⟩
    | exchange m next ih | clock next ih =>
        cases h with
        | step does more =>
            cases does
            obtain ⟨first, second, a, rfl, hfirst, hsecond⟩ := ih _ more
            exact ⟨_ :: first, second, a, rfl, .step (by constructor) hfirst, hsecond⟩
  · rintro ⟨first, second, a, rfl, hfirst, hsecond⟩
    show (t.bind f).Completes (first ++ second) b
    induction t generalizing first with
    | done a' =>
        obtain ⟨rfl, rfl⟩ := completes_pure_iff.1 hfirst
        exact hsecond
    | exchange m next ih | clock next ih =>
        cases hfirst with
        | step does more =>
            cases does
            exact .step (by constructor) (ih _ _ more)

/-- A procedure that is done by itself takes actions of its own, and the messages among them are
those that are sent in the meantime. By induction on the procedure.
-/
theorem run_completes (t : Procedure α) (network : Network) (j : Journal)
    : ∃ actions,
        t.Completes actions (t.run network j).1
        ∧ (t.run network j).2.sends = (Action.sent actions).reverse ++ j.sends := by
  induction t generalizing j with
  | done a => exact ⟨[], .here _, rfl⟩
  | exchange m next ih =>
      obtain ⟨actions, completes, sends⟩ := ih (j.send network m).1 (j.send network m).2
      refine ⟨.exchanged m (j.send network m).1 :: actions, .step (by constructor) completes, ?_⟩
      show ((next (j.send network m).1).run network (j.send network m).2).2.sends = _
      rw [sends, Journal.sends_send]
      simp [Action.sent, Action.sent?]
  | clock next ih =>
      obtain ⟨actions, completes, sends⟩ := ih j.clock j
      exact ⟨.read j.clock :: actions, .step (by constructor) completes, sends⟩

-----------------------------------------------------------------------------------------
-- Bounds
-----------------------------------------------------------------------------------------

/-- The procedure takes at most so many actions, whatever comes back. -/
inductive EndsWithin : Nat → Procedure α → Prop
  | done (n : Nat) (a : α) : EndsWithin n (.done a)
  | exchange {n : Nat} {m : Sent} {next : Reply → Procedure α}
    (more : ∀ r, EndsWithin n (next r))
    : EndsWithin (n + 1) (.exchange m next)
  | clock {n : Nat} {next : Double → Procedure α} (more : ∀ time, EndsWithin n (next time))
    : EndsWithin (n + 1) (.clock next)

theorem EndsWithin.send (m : Sent) : (send m).EndsWithin 1 :=
  .exchange fun r => .done 0 r

theorem EndsWithin.readClock : readClock.EndsWithin 1 :=
  .clock fun time => .done 0 time

theorem EndsWithin.mono {n k : Nat} (h : t.EndsWithin n) (le : n ≤ k) : t.EndsWithin k := by
  induction h generalizing k with
  | done n a => exact .done k a
  | exchange _ ih =>
      obtain ⟨i, rfl⟩ := Nat.exists_eq_add_of_lt le
      exact .exchange fun r => ih r (by omega)
  | clock _ ih =>
      obtain ⟨i, rfl⟩ := Nat.exists_eq_add_of_lt le
      exact .clock fun time => ih time (by omega)

/-- Bounds of procedures that follow each other add up, by induction on the first. -/
theorem EndsWithin.bind {n k : Nat} (h : t.EndsWithin n) (more : ∀ a, (f a).EndsWithin k)
    : (t >>= f).EndsWithin (n + k) := by
  show (t.bind f).EndsWithin (n + k)
  induction h with
  | done n a => exact (more a).mono (Nat.le_add_left k n)
  | exchange _ ih =>
      rw [Nat.add_right_comm]
      exact .exchange ih
  | clock _ ih =>
      rw [Nat.add_right_comm]
      exact .clock ih

/-- An action uses up one of those that are left. -/
theorem EndsWithin.does {n : Nat} (h : t.EndsWithin n) (does : t.Does action t')
    : ∃ k, n = k + 1 ∧ t'.EndsWithin k := by
  cases h with
  | done => cases does
  | exchange more =>
      cases does
      exact ⟨_, rfl, more _⟩
  | clock more =>
      cases does
      exact ⟨_, rfl, more _⟩

-----------------------------------------------------------------------------------------
-- Messages
-----------------------------------------------------------------------------------------

/-- All messages that the procedure may send satisfy `P`. -/
inductive Sends (P : Sent → Prop) : Procedure α → Prop
  | done (a : α) : Sends P (.done a)
  | exchange {m : Sent} {next : Reply → Procedure α} (holds : P m) (more : ∀ r, Sends P (next r))
    : Sends P (.exchange m next)
  | clock {next : Double → Procedure α} (more : ∀ time, Sends P (next time)) : Sends P (.clock next)

variable {P : Sent → Prop}

theorem Sends.send {m : Sent} (holds : P m) : Sends P (send m) :=
  .exchange holds .done

theorem Sends.readClock : Sends P readClock :=
  .clock .done

theorem Sends.bind (h : t.Sends P) (more : ∀ a, (f a).Sends P) : (t >>= f).Sends P := by
  show (t.bind f).Sends P
  induction h with
  | done a => exact more a
  | exchange holds _ ih => exact .exchange holds ih
  | clock _ ih => exact .clock ih

/-- What holds of all messages of a procedure holds of those among its actions, by induction on
these.
-/
theorem Reaches.sent (h : t.Reaches actions last) (sends : t.Sends P)
    : ∀ m ∈ Action.sent actions, P m := by
  induction h with
  | here t => simp [Action.sent]
  | @step _ _ _ action actions does _ ih =>
      cases sends with
      | done => cases does
      | exchange holds more =>
          cases does
          exact List.forall_mem_cons.2 ⟨holds, ih (more _)⟩
      | clock more =>
          cases does
          exact ih (more _)

end Procedure

end NameserverAudit
