import NameserverAudit.Exchange.Journal

/-!
Scripted networks. A script says, for each server, transport, name and type, what comes back
the first time, the second time and so on; the last reply is repeated, and a message that the
script does not know times out. Main statement: with one reply to each message the network
answers alike at all times.
-/

namespace NameserverAudit

/-- What comes back to messages of one kind, one time after the other. -/
structure Route where
  transport : Transport
  server : String
  name : String
  type : String
  deliveries : List Delivery
deriving DecidableEq, Repr

namespace Route

def isFor (r : Route) (m : Sent) : Bool :=
  r.transport = m.transport && r.server = m.server && r.type = m.type.name
    && r.name.toLower = m.name.text.toLower

/-- What comes back to a message that was sent so many times before. -/
def delivery (r : Route) (count : Nat) : Delivery :=
  match r.deliveries[count]? with
  | some d => d
  | none => (r.deliveries.getLast?).getD ⟨.zero, .failed .timeout⟩

/-- A route with one delivery gives it at all times. -/
theorem delivery_singleton {r : Route} {d : Delivery} (h : r.deliveries = [d]) (count : Nat)
    : r.delivery count = d := by
  cases count <;> simp [delivery, h]

end Route

def Sent.sameKind (m n : Sent) : Bool :=
  m.transport = n.transport && m.server = n.server && m.type = n.type && m.name.same n.name

/-- The network of a script; of several routes for a message the last one counts. -/
def Network.ofRoutes (routes : List Route) : Network := fun earlier m =>
  match routes.reverse.find? fun r => r.isFor m with
  | none => ⟨.zero, .failed .timeout⟩
  | some r => r.delivery (earlier.countP m.sameKind)

/-- If every route has one delivery, what was sent before makes no difference. -/
theorem Network.ofRoutes_stable {routes : List Route}
    (h : ∀ r ∈ routes, ∃ d, r.deliveries = [d]) (earlier later : List Sent) (m : Sent)
    : ofRoutes routes earlier m = ofRoutes routes later m := by
  unfold ofRoutes
  split
  · rfl
  · next r hr =>
    have hmem : r ∈ routes := List.mem_reverse.1 (List.mem_of_find?_eq_some hr)
    obtain ⟨d, hd⟩ := h r hmem
    rw [Route.delivery_singleton hd, Route.delivery_singleton hd]

end NameserverAudit
