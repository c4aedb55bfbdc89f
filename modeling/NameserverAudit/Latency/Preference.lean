import NameserverAudit.Latency.Ledger

/-!
The order in which servers are preferred: those that answered, by latency; then those that were
never measured; then those that did not answer. Servers of equal standing keep their order, or
are put in order by name and address.
-/

namespace NameserverAudit

inductive Standing where
  | reachable (latency : Double)
  | unknown
  | unreachable
deriving DecidableEq, Repr

namespace Standing

/-- The standing that a measurement, or the lack of one, gives. -/
def ofMeasurement? : Option Measurement → Standing
  | none => .unknown
  | some m =>
      match m.latency with
      | none => .unreachable
      | some x => .reachable x

def better : Standing → Standing → Bool
  | .reachable x, .reachable y => x.lt y
  | .reachable _, _ => true
  | .unknown, .unreachable => true
  | _, _ => false

def level : Standing → Standing → Bool
  | .reachable x, .reachable y => x.same y
  | .unknown, .unknown => true
  | .unreachable, .unreachable => true
  | _, _ => false

end Standing

namespace Ledger

def standing (l : Ledger) (server : Server) : Standing :=
  Standing.ofMeasurement? (l.find? server)

/-- Candidates in the order of preference; those of equal standing keep their order. -/
def ranked (l : Ledger) (candidates : List Server) : List Server :=
  candidates.mergeSort fun s t => !(l.standing t).better (l.standing s)

/-- Candidates of a set in the order of preference; those of equal standing are in order by
name and address. -/
def rankedSet (l : Ledger) (candidates : List Server) : List Server :=
  l.ranked (Server.sorted candidates.eraseDups)

/-- The preferred candidate; of equal standing, the first one by name and address. -/
def best? (l : Ledger) (candidates : List Server) : Option Server :=
  (l.ranked (Server.sorted candidates)).head?

/-- The wording for a choice without candidates. -/
def noCandidate : String := "best_for() needs at least one candidate"

/-- The first measurement stands strictly before the second one in a listing. -/
def listedBefore (m n : Measurement) : Bool :=
  let a := Standing.ofMeasurement? (some m)
  let b := Standing.ofMeasurement? (some n)
  if a.level b then m.server.before n.server else a.better b

/-- All measurements, the preferred server's first. -/
def listing (l : Ledger) : List Measurement :=
  l.measurements.mergeSort fun m n => !listedBefore n m

/-- Ranking moves candidates and neither adds nor drops one. -/
theorem ranked_perm (l : Ledger) (candidates : List Server)
    : (l.ranked candidates).Perm candidates :=
  List.mergeSort_perm candidates _

/-- The candidates after ranking are the candidates before. -/
@[simp] theorem mem_ranked {l : Ledger} {candidates : List Server} {server : Server}
    : server ∈ l.ranked candidates ↔ server ∈ candidates :=
  (l.ranked_perm candidates).mem_iff

theorem listing_perm (l : Ledger) : l.listing.Perm l.measurements :=
  List.mergeSort_perm l.measurements _

end Ledger

end NameserverAudit
