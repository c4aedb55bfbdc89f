import NameserverAudit.Exchange.Query
import NameserverAudit.Exchange.Script

/-! Networks that give a message the same reply from two journals. Then a query has the same
answer from both and sends the same messages. On a steady network, where a message gets the same
reply whenever it is sent, that is so at all times, and also if others send messages in between;
and on every network it is so from journals with the same messages.
-/

namespace NameserverAudit

/-- Every message gets the same reply, whatever was sent before. -/
def Network.Steady (network : Network) : Prop :=
  ∀ earlier later m, (network earlier m).reply = (network later m).reply

/-- The network of a script with one delivery for each route is steady. -/
theorem Network.steady_ofRoutes {routes : List Route}
    (h : ∀ r ∈ routes, ∃ d, r.deliveries = [d])
    : (ofRoutes routes).Steady := by
  intro earlier later m
  rw [ofRoutes_stable h earlier later m]

/-- From two journals the same result comes about, by the same messages. -/
def Alike {α : Type} (j j' : Journal) (run run' : α × Journal) : Prop :=
  run.1 = run'.1 ∧ ∃ sent, run.2.sends = sent ++ j.sends ∧ run'.2.sends = sent ++ j'.sends

/-- Nothing more to do comes about alike. -/
theorem Alike.done {α : Type} (a : α) (j j' : Journal) : Alike j j' (a, j) (a, j') :=
  ⟨rfl, [], rfl, rfl⟩

/-- Runs that come about alike have one result, and two journals. -/
theorem Alike.split {α : Type} {j j' : Journal} {run run' : α × Journal}
    (h : Alike j j' run run')
    : ∃ a k k', run = (a, k) ∧ run' = (a, k') ∧ Alike j j' (a, k) (a, k') := by
  obtain ⟨a, k⟩ := run
  obtain ⟨a', k'⟩ := run'
  obtain ⟨rfl, hsent⟩ := h
  exact ⟨a, k, k', rfl, rfl, rfl, hsent⟩

/-- What comes about alike after something alike comes about alike. -/
theorem Alike.after {α β : Type} {j j' : Journal} {run run' : α × Journal}
    {next next' : β × Journal}
    (h : Alike j j' run run') (hnext : Alike run.2 run'.2 next next')
    : Alike j j' next next' := by
  obtain ⟨-, sent, hsent, hsent'⟩ := h
  obtain ⟨hresult, more, hmore, hmore'⟩ := hnext
  exact ⟨hresult, more ++ sent, by rw [hmore, hsent, List.append_assoc],
    by rw [hmore', hsent', List.append_assoc]⟩

variable {network network' : Network} {j j' : Journal}

/-- A message gets the same reply from one network with the first journal and from another one
with the second, and so it does with more messages sent.
-/
def Network.Agrees (network network' : Network) (j j' : Journal) : Prop :=
  ∀ sent m, (network (sent ++ j.sends) m).reply = (network' (sent ++ j'.sends) m).reply

theorem Network.Steady.agrees (steady : network.Steady) (j j' : Journal)
    : network.Agrees network j j' :=
  fun _ _ => steady _ _ _

/-- Nothing but the messages of a journal counts for a network. -/
theorem Network.agrees_of_sends (network : Network) (same : j.sends = j'.sends)
    : network.Agrees network j j' := by
  intro sent m
  rw [same]

/-- The network as it is for one who sends messages among others: when some of his own were sent,
so were those of the others in between.
-/
def Network.amid (network : Network) (sentByAll : List Sent → List Sent) : Network :=
  fun earlier m => network (sentByAll earlier) m

/-- Of others who send messages in between nothing is seen on a steady network. -/
theorem Network.Steady.agrees_amid (steady : network.Steady) (sentByAll : List Sent → List Sent)
    (j j' : Journal)
    : network.Agrees (network.amid sentByAll) j j' :=
  fun _ _ => steady _ _ _

theorem Network.Agrees.after {α : Type} {run run' : α × Journal}
    (agrees : network.Agrees network' j j') (h : Alike j j' run run')
    : network.Agrees network' run.2 run'.2 := by
  obtain ⟨-, sent, hsent, hsent'⟩ := h
  intro more m
  rw [hsent, hsent', ← List.append_assoc, ← List.append_assoc]
  exact agrees _ m

theorem Network.Agrees.send (agrees : network.Agrees network' j j') (m : Sent)
    : Alike j j' (j.send network m) (j'.send network' m) :=
  ⟨agrees [] m, [m], j.sends_send network m, j'.sends_send network' m⟩

namespace Manner

section Agrees

variable (agrees : network.Agrees network' j j') (manner : Manner) (server : String)

include agrees

/-- Asking over UDP goes alike: the first reply decides whether there is a second message. -/
theorem askOverUdp_alike (name : DomainName) (type : RecordType)
    : (manner.askOverUdp network server name type j).1
        = (manner.askOverUdp network' server name type j').1
      ∧ Alike j j' (manner.askOverUdp network server name type j).2
          (manner.askOverUdp network' server name type j').2 := by
  have first := agrees.send (manner.message .udp true server name type)
  rw [askOverUdp_eq, askOverUdp_eq]
  dsimp only
  rw [← first.1]
  split
  · exact ⟨rfl, first.after ((agrees.after first).send _)⟩
  · exact ⟨rfl, rfl, first.2⟩

/-- Asking goes alike: the last reply over UDP decides whether TCP follows. -/
theorem ask_alike (name : DomainName) (type : RecordType)
    : Alike j j' (manner.ask network server name type j)
        (manner.ask network' server name type j') := by
  obtain ⟨hextended, udp⟩ := manner.askOverUdp_alike agrees server name type
  rw [ask_eq, ask_eq]
  dsimp only
  rw [← hextended, ← udp.1]
  split
  · exact udp.after ((agrees.after udp).send _)
  · exact ⟨rfl, udp.2⟩

/-- A query goes alike from journals from which every message gets the same reply. -/
theorem query_alike (q : Question) (type : RecordType)
    : Alike j j' (manner.query network server q type j)
        (manner.query network' server q type j') := by
  obtain ⟨hreply, sent⟩ := manner.ask_alike agrees server q.name type
  refine ⟨?_, by simpa only [query_snd] using sent⟩
  rw [query_eq, query_eq]
  dsimp only
  rw [hreply]
  split <;> rfl

/-- A question is posed alike: with a payload that does not fit, nothing is done. -/
theorem pose_alike (q : Question) (type : RecordType)
    : Alike j j' (manner.pose network server q type j)
        (manner.pose network' server q type j') := by
  unfold pose
  split
  · exact .done _ j j'
  · next m _ =>
    obtain ⟨answer, k, k', hk, hk', sent⟩ := (m.query_alike agrees server q type).split
    simp only [hk, hk']
    exact sent.after (.done _ k k')

end Agrees

/-- A query has the same answer on a steady network as at the start, and sends the same
messages.
-/
theorem query_steady (steady : network.Steady) (manner : Manner) (server : String)
    (j : Journal) (q : Question) (type : RecordType)
    : (manner.query network server q type j).1 = (manner.query network server q type .start).1
      ∧ (manner.query network server q type j).2.sends
        = (manner.query network server q type .start).2.sends ++ j.sends := by
  obtain ⟨hanswer, sent, hsent, hstart⟩ :=
    manner.query_alike (steady.agrees j .start) server q type
  rw [hsent, hstart]
  exact ⟨hanswer, by simp [Journal.start, Journal.sends]⟩

end Manner

end NameserverAudit
