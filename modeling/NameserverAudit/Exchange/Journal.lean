import NameserverAudit.Exchange.Message
import NameserverAudit.Notice
import NameserverAudit.Time.Instant

/-!
The journal of a run: the clock and everything that was done, in order. A network answers a
message in any way it likes, and its answer may depend on all messages that were sent before.
Main statement: a send adds one message to the journal and nothing else.
-/

namespace NameserverAudit

inductive Event where
  | sent (m : Sent)
  | workers (n : Int)
  | began (domain : String)
  | noticed (n : Notice)
  | paused (time : Seconds)
deriving DecidableEq, Repr

/-- The clock in seconds, and the events of a run, last first. -/
structure Journal where
  clock : Double
  events : List Event
deriving DecidableEq, Repr

/-- What a network does with a message: how many seconds pass, and what comes back. -/
structure Delivery where
  elapsed : Double
  reply : Reply
deriving DecidableEq, Repr

/-- The behaviour of a network, given the messages that were sent before, last first. -/
abbrev Network := List Sent → Sent → Delivery

/-- The network on which every message times out. -/
def Network.silent : Network := fun _ _ => ⟨.zero, .failed .timeout⟩

def Event.sent? : Event → Option Sent
  | .sent m => some m
  | _ => none

namespace Journal

def start : Journal := ⟨.zero, []⟩

instance : Inhabited Journal := ⟨start⟩

def sends (j : Journal) : List Sent :=
  j.events.filterMap Event.sent?

def notices (j : Journal) : List Notice :=
  (j.events.filterMap fun
    | .noticed n => some n
    | _ => none).reverse

def add (j : Journal) (e : Event) : Journal :=
  { j with events := e :: j.events }

def notice (j : Journal) (n : Notice) : Journal :=
  j.add (.noticed n)

def send (j : Journal) (network : Network) (m : Sent) : Reply × Journal :=
  let d := network j.sends m
  (d.reply, ⟨j.clock.add d.elapsed, .sent m :: j.events⟩)

/-- A send adds the message to those that were sent. -/
@[simp] theorem sends_send (j : Journal) (network : Network) (m : Sent)
    : (j.send network m).2.sends = m :: j.sends := by
  simp [send, sends, Event.sent?]

@[simp] theorem sends_notice (j : Journal) (n : Notice) : (j.notice n).sends = j.sends := rfl

end Journal

end NameserverAudit
