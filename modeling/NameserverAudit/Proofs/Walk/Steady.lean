import NameserverAudit.Proofs.Exchange.Steady
import NameserverAudit.Walk.Collection

/-! Lookups on networks that give a message the same reply from two journals. Then nothing that a
walker does depends on what was done before, nor on anything else about the walker than how it
asks, for what, and whom it prefers. Main statement: a lookup has the same end, by the same
messages, from both journals; on a steady network, these may be any two, and others may send
messages in between.
-/

namespace NameserverAudit

namespace Walker

/-- The walkers ask in the same manner for the same families, and prefer servers by the same
ledger. They may know different delegations, take different numbers of steps, and be on different
networks.
-/
structure AsksLike (w w' : Walker) : Prop where
  manner : w'.manner = w.manner
  families : w'.families = w.families
  ledger : w'.ledger = w.ledger

theorem AsksLike.refl (w : Walker) : w.AsksLike w := ⟨rfl, rfl, rfl⟩

/-- Searches for a name come about alike, from any two journals that two networks do not tell
apart.
-/
def SearchAlike (network network' : Network) (search search' : Search) : Prop :=
  ∀ q j j', network.Agrees network' j j' → Alike j j' (search q j) (search' q j')

variable {w w' : Walker} (like : w.AsksLike w') {j j' : Journal}
  (agrees : w.network.Agrees w'.network j j') (q : Question)

include like

theorem AsksLike.wants : w'.wants = w.wants := by
  funext f
  rw [Walker.wants, Walker.wants, like.families]

theorem AsksLike.addressTypes : w'.addressTypes = w.addressTypes := by
  rw [Walker.addressTypes, Walker.addressTypes, like.wants]

include agrees

theorem AsksLike.ask (server : Server) (type : RecordType)
    : Alike j j' (w.ask server q type j) (w'.ask server q type j') := by
  unfold Walker.ask
  rw [like.manner]
  obtain ⟨answer, k, k', hk, hk', sent⟩ :=
    (w.manner.pose_alike agrees server.address q type).split
  simp only [hk, hk']
  cases answer with
  | error fault => exact sent.after (.done _ k k')
  | ok answer => exact sent.after (.done _ k k')

-----------------------------------------------------------------------------------------
-- Addresses of nameservers
-----------------------------------------------------------------------------------------

theorem askTypes_alike (server : Server) (found : List String) (types : List RecordType)
    : Alike j j' (w.askTypes server q found types j) (w'.askTypes server q found types j') := by
  induction types generalizing found j j' with
  | nil => exact .done _ j j'
  | cons t rest ih =>
      obtain ⟨answer, k, k', hk, hk', first⟩ := (like.ask agrees q server t).split
      simp only [askTypes, hk, hk']
      rcases answer with refusal | fault | r
      · exact first.after (.done _ k k')
      · exact first.after (ih (agrees.after first) found)
      · dsimp only
        split
        · exact first.after (.done _ k k')
        · exact first.after (ih (agrees.after first) _)

theorem askAddresses_alike (server : Server)
    : Alike j j' (w.askAddresses server q j) (w'.askAddresses server q j') := by
  unfold askAddresses
  rw [like.addressTypes]
  exact askTypes_alike like agrees q server [] w.addressTypes

theorem askInTurn_alike (servers : List Server)
    : Alike j j' (w.askInTurn q servers j) (w'.askInTurn q servers j') := by
  induction servers generalizing j j' with
  | nil => exact .done _ j j'
  | cons server rest ih =>
      obtain ⟨found, k, k', hk, hk', first⟩ :=
        (askAddresses_alike like agrees q server).split
      simp only [askInTurn, hk, hk']
      rcases found with refusal | - | ⟨a, found⟩
      · exact first
      · exact first.after (ih (agrees.after first))
      · exact first

variable {nested nested' : Option Search}
  (searches : Option.Rel (SearchAlike w.network w'.network) nested nested')

include searches

theorem glueless_alike (contacted : Server)
    : Alike j j' (w.glueless nested contacted q j) (w'.glueless nested' contacted q j') := by
  obtain ⟨found, k, k', hk, hk', first⟩ :=
    (askAddresses_alike like agrees q contacted).split
  simp only [glueless, hk, hk']
  rcases found with refusal | - | ⟨a, found⟩
  · exact first
  · cases searches with
    | none => exact first.after (.done _ k k')
    | some search =>
        obtain ⟨landed, l, l', hl, hl', second⟩ := (search q k k' (agrees.after first)).split
        simp only [hl, hl']
        have both := first.after second
        rcases landed with (u | refusal) | cut
        · exact both.after (.done _ l l')
        · exact both.after (.done _ l l')
        · exact both.after (askInTurn_alike like (agrees.after both) q cut.servers)
  · exact first

theorem addressesFor_alike (contacted : Server) (r : Response)
    : Alike j j' (w.addressesFor nested contacted r q j)
        (w'.addressesFor nested' contacted r q j') := by
  unfold addressesFor
  rw [like.wants]
  split
  · exact glueless_alike like agrees q searches contacted
  · exact .done _ j j'

theorem referredServers_alike (contacted : Server) (r : Response) (out : List Server)
    (targets : List DomainName)
    : Alike j j' (w.referredServers nested contacted r out targets j)
        (w'.referredServers nested' contacted r out targets j') := by
  induction targets generalizing out j j' with
  | nil => exact .done _ j j'
  | cons target rest ih =>
      obtain ⟨found, k, k', hk, hk', first⟩ :=
        (addressesFor_alike like agrees (.ofName target) searches contacted r).split
      simp only [referredServers, hk, hk']
      cases found with
      | error refusal => exact first.after (.done _ k k')
      | ok found => exact first.after (ih (agrees.after first) _)

theorem serversOf_alike (contacted : Server) (r : Response) (targets : List DomainName)
    : Alike j j' (w.serversOf nested contacted r targets j)
        (w'.serversOf nested' contacted r targets j') := by
  unfold serversOf
  split
  · exact .done _ j j'
  · exact referredServers_alike like agrees searches contacted r [] targets

-----------------------------------------------------------------------------------------
-- Walks
-----------------------------------------------------------------------------------------

theorem step_alike (cut : Cut) (cause : Cause) (servers : List Server)
    : Alike j j' (w.step nested q cut cause servers j)
        (w'.step nested' q cut cause servers j') := by
  induction servers generalizing cause j j' with
  | nil => exact .done _ j j'
  | cons server rest ih =>
      obtain ⟨answer, k, k', hk, hk', first⟩ := (like.ask agrees q server .ns).split
      simp only [step, hk, hk', like.ledger]
      rcases answer with refusal | fault | r
      · exact first.after (.done _ k k')
      · exact first.after (ih (agrees.after first) _)
      · dsimp only
        split
        · exact first.after (.done _ k k')
        · split
          · exact first.after (ih (agrees.after first) _)
          · next referral _ =>
            obtain ⟨servers, l, l', hl, hl', second⟩ :=
              (serversOf_alike like (agrees.after first) searches server r
                referral.targets).split
            simp only [hl, hl']
            have both := first.after second
            rcases servers with refusal | - | ⟨s, servers⟩
            · exact both.after (.done _ l l')
            · exact both.after (ih (agrees.after both) _)
            · exact both.after (.done _ l l')

theorem descend_alike_of_agrees (steps : Nat) (cut : Cut)
    : Alike j j' (w.descend nested q steps cut j) (w'.descend nested' q steps cut j') := by
  induction steps generalizing cut j j' with
  | zero => exact .done _ j j'
  | succ steps ih =>
      obtain ⟨landing, k, k', hk, hk', first⟩ :=
        (step_alike like agrees q searches cut .nobody cut.servers).split
      simp only [descend, hk, hk']
      cases landing with
      | error fault => exact first.after (.done _ k k')
      | ok landing =>
          cases landing with
          | arrived next => exact first.after (.done _ k k')
          | onward next => exact first.after (ih (agrees.after first) next)

omit searches

-----------------------------------------------------------------------------------------
-- Collecting
-----------------------------------------------------------------------------------------

theorem firstAuthoritative_alike (type : RecordType) (cause : Cause) (servers : List Server)
    : Alike j j' (w.firstAuthoritative q type cause servers j)
        (w'.firstAuthoritative q type cause servers j') := by
  induction servers generalizing cause j j' with
  | nil => exact .done _ j j'
  | cons server rest ih =>
      obtain ⟨answer, k, k', hk, hk', first⟩ := (like.ask agrees q server type).split
      simp only [firstAuthoritative, hk, hk']
      rcases answer with refusal | fault | r
      · exact first.after (.done _ k k')
      · exact first.after (ih (agrees.after first) _)
      · dsimp only
        split
        · exact first.after (.done _ k k')
        · exact first.after (ih (agrees.after first) _)

theorem collectTypes_alike (servers : List Server) (types : List RecordType) (c : Collected)
    : Alike j j' (w.collectTypes q servers types c j)
        (w'.collectTypes q servers types c j') := by
  induction types generalizing c j j' with
  | nil => exact .done _ j j'
  | cons type rest ih =>
      obtain ⟨answer, k, k', hk, hk', first⟩ :=
        (firstAuthoritative_alike like agrees q type c.cause servers).split
      simp only [collectTypes, hk, hk']
      rcases answer with refusal | cause | r
      · exact first.after (.done _ k k')
      · exact first.after (ih (agrees.after first) _)
      · dsimp only
        split
        · exact first.after (.done _ k k')
        · exact first.after (ih (agrees.after first) _)

/-- Collecting looks at the servers of a cut, and not at its zone. -/
theorem collectNames_alike {cut cut' : Cut} (same : cut'.servers = cut.servers)
    (wanted : List RecordType) (names : List String) (c : Collected)
    : Alike j j' (w.collectNames q cut wanted names c j)
        (w'.collectNames q cut' wanted names c j') := by
  induction names generalizing c j j' with
  | nil => exact .done _ j j'
  | cons name rest ih =>
      obtain ⟨collected, k, k', hk, hk', first⟩ := (collectTypes_alike like agrees q
        (cut.servers.filter fun s => s.name = name) wanted c).split
      simp only [collectNames, same, hk, hk']
      cases collected with
      | error refusal => exact first.after (.done _ k k')
      | ok c => exact first.after (ih (agrees.after first) c)

theorem collect_alike {cut cut' : Cut} (same : cut'.servers = cut.servers)
    (wanted : List RecordType)
    : Alike j j' (w.collect q cut wanted j) (w'.collect q cut' wanted j') := by
  obtain ⟨collected, k, k', hk, hk', names⟩ :=
    (collectNames_alike like agrees q same wanted.eraseDups
      (cut.servers.map (·.name)).eraseDups ⟨.empty, .empty, [], .noAuthority⟩).split
  simp only [collect, same, hk, hk']
  cases collected with
  | error refusal => exact names.after (.done _ k k')
  | ok c =>
      dsimp only
      split
      · exact names.after (.done _ k k')
      · exact names.after (.done _ k k')

omit agrees

omit like

-----------------------------------------------------------------------------------------
-- Whole lookups
-----------------------------------------------------------------------------------------

section On

/-- The walker on another network. -/
def on (w : Walker) (network : Network) : Walker :=
  { w with network }

variable (w : Walker) (network : Network)

theorem on_maxSteps : (w.on network).maxSteps = w.maxSteps := rfl

theorem on_maxDepth : (w.on network).maxDepth = w.maxDepth := rfl

theorem on_rootCut : (w.on network).rootCut = w.rootCut := rfl

theorem on_startCut (text : String) : (w.on network).startCut text = w.startCut text := by
  have useDelegations : (w.on network).useDelegations = w.useDelegations := rfl
  have directory : (w.on network).directory = w.directory := rfl
  have families : (w.on network).families = w.families := rfl
  have ledger : (w.on network).ledger = w.ledger := rfl
  unfold startCut
  rw [useDelegations, directory, on_rootCut, families, ledger]

theorem asksLike_on : w.AsksLike (w.on network) := ⟨rfl, rfl, rfl⟩

variable {w network}

theorem walkWith_alike {nested nested' : Option Search}
    (searches : Option.Rel (SearchAlike w.network network) nested nested')
    : SearchAlike w.network network (w.walkWith nested) ((w.on network).walkWith nested') := by
  intro q j j' agrees
  simp only [walkWith, on_startCut, on_maxSteps]
  cases w.startCut q.text with
  | error fault => exact .done _ j j'
  | ok cut =>
      exact descend_alike_of_agrees (w.asksLike_on network) agrees q searches w.maxSteps cut

variable (w network)

/-- Walks come about alike at any depth of nesting, by induction on the depth. -/
theorem walk_alike (depth : Nat)
    : SearchAlike w.network network (w.walk depth) ((w.on network).walk depth) := by
  induction depth with
  | zero => exact walkWith_alike .none
  | succ depth ih => exact walkWith_alike (.some ih)

variable {w network}

/-- A lookup has the same end, by the same messages, from journals that the networks do not tell
apart.
-/
theorem resolve_alike {j j' : Journal} (agrees : w.network.Agrees network j j')
    (nameservers addresses : Bool) (domain : String)
    : Alike j j' (w.resolve nameservers addresses domain j)
        ((w.on network).resolve nameservers addresses domain j') := by
  simp only [resolve, on_startCut, on_maxSteps, on_maxDepth]
  cases Question.ofText (canonicalName domain) with
  | ok q =>
      obtain ⟨landed, k, k', hk, hk', first⟩ :=
        (w.walk_alike network w.maxDepth q j j' agrees).split
      simp only [hk, hk']
      cases landed with
      | error fault => exact first.after (.done _ k k')
      | ok cut =>
          exact first.after
            (collect_alike (w.asksLike_on network) (agrees.after first) q rfl _)
  | error fault =>
      cases w.startCut (canonicalName domain) with
      | error refusal => exact .done _ j j'
      | ok cut =>
          by_cases stuck : w.maxSteps = 0
          all_goals
            simp only [stuck, if_true, if_false]
            exact .done _ j j'

end On

end Walker

end NameserverAudit
