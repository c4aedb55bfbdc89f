import NameserverAudit.Exchange.Journal

/-!
Procedures: what is done step by step with messages that are sent, their replies and readings of
the clock. A procedure that is done by itself goes on with the journal of a run. Of procedures
that are done side by side nothing is known but the actions that each of them takes: the replies
and the readings may be any.
-/

namespace NameserverAudit

/-- What is still to be done, step by step, until there is a result. -/
inductive Procedure (α : Type) where
  | done (a : α)
  | exchange (m : Sent) (next : Reply → Procedure α)
  | clock (next : Double → Procedure α)

/-- A message was sent and replied to, or the clock was read. -/
inductive Action where
  | exchanged (m : Sent) (r : Reply)
  | read (time : Double)
deriving DecidableEq, Repr

def Action.sent? : Action → Option Sent
  | .exchanged m _ => some m
  | .read _ => none

namespace Procedure

variable {α β : Type}

def bind : Procedure α → (α → Procedure β) → Procedure β
  | .done a, f => f a
  | .exchange m next, f => .exchange m fun r => (next r).bind f
  | .clock next, f => .clock fun x => (next x).bind f

instance : Monad Procedure where
  pure := .done
  bind := .bind

def send (m : Sent) : Procedure Reply :=
  .exchange m .done

def readClock : Procedure Double :=
  .clock .done

/-- Does a procedure by itself. -/
def run (network : Network) : Procedure α → Journal → α × Journal
  | .done a, j => (a, j)
  | .exchange m next, j =>
      let (reply, j) := j.send network m
      (next reply).run network j
  | .clock next, j => (next j.clock).run network j

/-- A procedure takes an action. -/
inductive Does : Procedure α → Action → Procedure α → Prop
  | exchange (m : Sent) (next : Reply → Procedure α) (r : Reply)
    : Does (.exchange m next) (.exchanged m r) (next r)
  | clock (next : Double → Procedure α) (time : Double)
    : Does (.clock next) (.read time) (next time)

@[simp] theorem run_pure (network : Network) (a : α) (j : Journal)
    : (pure a : Procedure α).run network j = (a, j) :=
  rfl

@[simp] theorem run_send (network : Network) (m : Sent) (j : Journal)
    : (send m).run network j = j.send network m :=
  rfl

@[simp] theorem run_readClock (network : Network) (j : Journal)
    : readClock.run network j = (j.clock, j) :=
  rfl

/-- Procedures that follow each other are done one after the other, by induction on the first. -/
@[simp] theorem run_bind (network : Network) (t : Procedure α) (f : α → Procedure β) (j : Journal)
    : (t >>= f).run network j = (f (t.run network j).1).run network (t.run network j).2 := by
  show (t.bind f).run network j = _
  induction t generalizing j with
  | done a => rfl
  | exchange m next ih => exact ih _ _
  | clock next ih => exact ih _ _

end Procedure

end NameserverAudit
