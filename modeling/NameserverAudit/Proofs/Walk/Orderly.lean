import NameserverAudit.Exchange.Script
import NameserverAudit.Proofs.Latency.Ranking
import NameserverAudit.Proofs.Walk.Cuts
import NameserverAudit.Proofs.Walk.Refusal
import NameserverAudit.Proofs.Walk.Responses
import NameserverAudit.Proofs.Walk.Step
import NameserverAudit.Proofs.Zone.Servers

/-! The servers of the cuts of a walk. Main statement: with a directory that was read from zone
text, families that are wanted once each and a ledger without undefined latencies, every cut
has servers, all different and in order of rank; and the walk leaves a cut by the first of them
that is usable, or ends there if none is.
-/

namespace NameserverAudit.Walker

variable {w : Walker} {nested : Option Search} {q : Question}

-----------------------------------------------------------------------------------------
-- The servers of a cut
-----------------------------------------------------------------------------------------

/-- The cut has servers, all different and in order of rank. -/
structure Orderly (w : Walker) (cut : Cut) : Prop where
  some : cut.servers ≠ []
  distinct : cut.servers.Nodup
  ranked : cut.servers.Pairwise fun s t =>
    (w.ledger.standing s).rank ≤ (w.ledger.standing t).rank

/-- Different servers make an orderly cut when they are ranked. -/
theorem orderly_ranked (defined : ∀ m ∈ w.ledger.measurements, m.IsDefined)
    {servers : List Server} (some : servers ≠ []) (distinct : servers.Nodup)
    (zone : DomainName)
    : w.Orderly ⟨zone, w.ledger.ranked servers⟩ where
  some h := some (List.nil_perm.1 (h ▸ w.ledger.ranked_perm servers))
  distinct := (w.ledger.ranked_perm servers).nodup_iff.2 distinct
  ranked := Ledger.pairwise_ranked defined servers

/-- Servers are put at the end of others once each, by induction on those that are put there. -/
theorem addServers_nodup {out new : List Server} (h : out.Nodup) : (addServers out new).Nodup := by
  induction new generalizing out with
  | nil => exact h
  | cons s rest ih =>
      unfold addServers
      split
      · exact ih h
      · next hnew =>
        rw [List.contains_eq_mem, decide_eq_true_eq] at hnew
        refine ih (List.nodup_append.2 ⟨h, by simp, ?_⟩)
        rintro t ht _ hs rfl
        exact hnew (List.mem_singleton.1 hs ▸ ht)

/-- The servers that a response refers to are all different, by induction on the nameservers. -/
theorem referredServers_nodup {contacted : Server} {r : Response} {out servers : List Server}
    {targets : List DomainName} {j k : Journal} (h : out.Nodup)
    (found : w.referredServers nested contacted r out targets j = (.ok servers, k))
    : servers.Nodup := by
  induction targets generalizing out j with
  | nil =>
      rw [referredServers, Prod.mk.injEq, Except.ok.injEq] at found
      exact found.1 ▸ h
  | cons target rest ih =>
      unfold referredServers at found
      dsimp only at found
      split at found
      · cases found
      · exact ih (addServers_nodup h) found

theorem serversOf_nodup {contacted : Server} {r : Response} {servers : List Server}
    {targets : List DomainName} {j k : Journal}
    (found : w.serversOf nested contacted r targets j = (.ok servers, k))
    : servers.Nodup := by
  unfold serversOf at found
  split at found
  · cases found
  · exact referredServers_nodup .nil found

-----------------------------------------------------------------------------------------
-- The cuts of a walk
-----------------------------------------------------------------------------------------

/-- A walk starts at an orderly cut. -/
theorem startCut_orderly {reader : Zone.Reader} {source text name : String} {cut : Cut}
    (read : (Zone.Directory.ofTextBy reader source text).directory = .ok w.directory)
    (once : w.families.Nodup) (defined : ∀ m ∈ w.ledger.measurements, m.IsDefined)
    (h : w.startCut name = .ok cut)
    : w.Orderly cut := by
  rcases w.startCut_cases name with ⟨-, start⟩ | ⟨d, -, hd, some, start⟩
  · rw [start] at h
    obtain ⟨servers, hservers, some, rfl⟩ := rootCut_eq_ok_iff.1 h
    have distinct := Zone.Directory.read_distinct read
    exact orderly_ranked defined some (Zone.Directory.servers_nodup distinct once hservers) .root
  · rw [start] at h
    obtain rfl := Except.ok.inj h
    exact orderly_ranked defined some
      (Zone.Directory.delegationFor_servers_nodup read hd w.families) d.name

/-- A usable server of an orderly cut leads to an orderly cut. -/
theorem Usable.orderly {cut : Cut} {server : Server} {landing : Landing} {j k : Journal}
    (defined : ∀ m ∈ w.ledger.measurements, m.IsDefined) (orderly : w.Orderly cut)
    (h : w.Usable nested q cut server j landing k)
    : w.Orderly landing.cut := by
  cases h with
  | authoritative _ _ => exact orderly
  | delegating _ _ _ found some _ | referring _ _ _ found some _ =>
      exact orderly_ranked defined some (serversOf_nodup found) _

/-- A descent from an orderly cut stands at orderly cuts, by induction on the steps. -/
theorem visited_orderly (defined : ∀ m ∈ w.ledger.measurements, m.IsDefined) (steps : Nat)
    {cut : Cut} (orderly : w.Orderly cut) (j : Journal)
    : ∀ c ∈ w.visited nested q steps cut j, w.Orderly c := by
  induction steps generalizing cut j with
  | zero => simpa [visited] using orderly
  | succ steps ih =>
      rcases hstep : w.step nested q cut .nobody cut.servers j with ⟨fault | landing, k⟩
      · simpa [visited, hstep] using orderly
      obtain ⟨_, _, _, _, _, _, usable⟩ := step_eq_ok_iff.1 hstep
      have next := usable.orderly defined orderly
      intro c hc
      cases landing with
      | arrived next' =>
          simp only [visited, hstep] at hc
          split at hc
          · exact List.mem_singleton.1 hc ▸ orderly
          · rcases List.mem_cons.1 hc with rfl | hc
            · exact orderly
            · exact List.mem_singleton.1 hc ▸ next
      | onward next' =>
          simp only [visited, hstep] at hc
          rcases List.mem_cons.1 hc with rfl | hc
          · exact orderly
          · exact ih next k c hc

-----------------------------------------------------------------------------------------
-- How a cut is left
-----------------------------------------------------------------------------------------

/-- A step from the cut asks its servers one after the other, up to the first usable one and
none behind it.
-/
structure LeftByFirstUsable (w : Walker) (nested : Option Search) (q : Question) (cut : Cut)
    : Prop where
  /-- It lands where the first usable server leads. -/
  lands : ∀ (landing : Landing) (start last : Journal),
    w.step nested q cut .nobody cut.servers start = (.ok landing, last)
    ↔ ∃ front server rest later,
        cut.servers = front ++ server :: rest
        ∧ w.AllUnusable nested q cut front start later
        ∧ w.Usable nested q cut server later landing last
  /-- It ends without an answer just if all servers are unusable: at the zone of the cut, and
  for the cause that the last server gives. -/
  fails : ∀ (u : Unresolved) (start last : Journal),
    w.step nested q cut .nobody cut.servers start = (.error (.unresolved u), last)
    ↔ u.stage = .zone cut.zone
      ∧ ∃ front server later,
          cut.servers = front ++ [server]
          ∧ w.AllUnusable nested q cut front start later
          ∧ w.Unusable nested q cut server later u.cause last
  /-- It is refused just if the first server that is not unusable gives reason for that. -/
  refused : ∀ (refusal : Refusal) (start last : Journal),
    w.step nested q cut .nobody cut.servers start = (.error (.refused refusal), last)
    ↔ ∃ front server rest later,
        cut.servers = front ++ server :: rest
        ∧ w.AllUnusable nested q cut front start later
        ∧ w.Refused nested q cut server later refusal last
  /-- If the wanted families exist and the payload fits, only an address record of another class
  is a reason, which was heard in this step. -/
  reasons : AreKnown w.families → w.manner.Fits → ∀ (refusal : Refusal) (start last : Journal),
    w.step nested q cut .nobody cut.servers start = (.error (.refused refusal), last) →
    ∃ record, refusal = .foreign record ∧ w.Grounds start.sends last.sends (.foreign record)

theorem nestedAt_grounded (w : Walker) (depth : Nat)
    : ∀ search ∈ w.nestedAt depth, w.SearchGrounded search := by
  intro search hs
  cases depth with
  | zero => cases hs
  | succ depth =>
      obtain rfl : w.walk depth = search := Option.some.inj hs
      exact w.walk_grounded depth

/-- Every cut of a walk has servers, all different and in order of rank, and is left by the
first usable one.
-/
theorem cuts_left_by_first_usable {reader : Zone.Reader} {source text : String}
    (read : (Zone.Directory.ofTextBy reader source text).directory = .ok w.directory)
    (once : w.families.Nodup) (defined : ∀ m ∈ w.ledger.measurements, m.IsDefined)
    (depth : Nat) (q : Question) (j : Journal)
    : ∀ cut ∈ w.cuts depth q j,
        w.Orderly cut ∧ w.LeftByFirstUsable (w.nestedAt depth) q cut := by
  have orderly : ∀ cut ∈ w.cuts depth q j, w.Orderly cut := by
    unfold cuts
    split
    · simp
    · next cut hstart =>
      exact visited_orderly defined w.maxSteps (startCut_orderly read once defined hstart) j
  intro cut hcut
  refine ⟨orderly cut hcut, ?_⟩
  constructor
  case lands => exact fun landing start last => step_eq_ok_iff
  case fails => exact fun u start last => step_eq_unresolved_iff (orderly cut hcut).some
  case refused => exact fun refusal start last => step_eq_refused_iff
  case reasons =>
    intro known fits refusal start last hstep
    have grounded := step_grounded (w.nestedAt_grounded depth) q cut .nobody cut.servers start
    rw [hstep] at grounded
    exact (grounded.grounds refusal rfl).exists_foreign known fits

/-- Zone text with two root servers. -/
def twinZone : String :=
  ". NS a.root.\n. NS b.root.\na.root. A 192.0.2.1\nb.root. A 192.0.2.2\n"

/-- A walker that prefers the second root server, which answered before. This one does not
know about `example.`, but the other one refers to the nameserver of that zone.
-/
def twinWalker : Walker :=
  let zone := DomainName.written "example."
  let ns := DomainName.written "ns.example."
  let route (server : String) (r : Response) : Route :=
    ⟨.udp, server, "example.", "NS", [⟨.zero, .response r⟩]⟩
  { directory :=
      ⟨[⟨"a.root.", .ofList ["192.0.2.1"], .empty⟩, ⟨"b.root.", .ofList ["192.0.2.2"], .empty⟩],
        []⟩
    ledger := .ofList [⟨⟨"b.root.", "192.0.2.2"⟩, some (.ofInt 7), .atEpoch⟩]
    network := Network.ofRoutes [
      route "192.0.2.1"
        { Response.blank with
          authority := [⟨zone, .nameservers [ns]⟩]
          additional := [⟨ns, .ipv4 [⟨[192, 0, 2, 53], rfl⟩]⟩] },
      route "192.0.2.2" Response.blank]
    manner := .standard
    families := [.known .ipv4]
    useDelegations := true
    maxSteps := 16
    maxDepth := 0 }

/-- Sorting two items leaves them as they are, or exchanges them. -/
theorem mergeSort_pair {α : Type} (le : α → α → Bool) (a b : α)
    : [a, b].mergeSort le = if le a b then [a, b] else [b, a] := by
  simp [List.mergeSort, List.MergeSort.Internal.splitInTwo, List.merge]

theorem twinWalker_startCut
    : twinWalker.startCut "example."
      = .ok ⟨.root, [⟨"b.root.", "192.0.2.2"⟩, ⟨"a.root.", "192.0.2.1"⟩]⟩ := by
  have roots : twinWalker.directory.servers twinWalker.families
      = .ok [⟨"a.root.", "192.0.2.1"⟩, ⟨"b.root.", "192.0.2.2"⟩] := by
    simp only [Zone.Directory.servers, twinWalker, mergeSort_pair]
    decide +kernel
  have none : twinWalker.directory.delegationFor "example." = none := by decide +kernel
  simp only [startCut, none, rootCut, roots, Ledger.ranked, mergeSort_pair]
  decide +kernel

/-- Witness: the walk to `example.` leaves the root by the second server that it asks there. -/
theorem twinWalker_cuts
    : let q : Question := ⟨"example.", DomainName.written "example."⟩
      twinWalker.cuts 0 q .start
          = [⟨.root, [⟨"b.root.", "192.0.2.2"⟩, ⟨"a.root.", "192.0.2.1"⟩]⟩,
              ⟨DomainName.written "example.", [⟨"ns.example.", "192.0.2.53"⟩]⟩]
      ∧ ∀ cut ∈ twinWalker.cuts 0 q .start,
          twinWalker.Orderly cut ∧ twinWalker.LeftByFirstUsable none q cut := by
  have read : (Zone.Directory.ofText "hints" twinZone).directory
      = .ok twinWalker.directory := by
    decide +kernel
  have defined : ∀ m ∈ twinWalker.ledger.measurements, m.IsDefined := by decide +kernel
  refine ⟨?_, ?_⟩
  · unfold cuts
    rw [twinWalker_startCut]
    decide +kernel
  · exact cuts_left_by_first_usable read (by decide) defined 0 _ .start

/-- A walker that asks for a family that does not exist. It knows an address of the nameserver of
`example.`, which refers to a nameserver elsewhere.
-/
def strayWalker : Walker :=
  { directory :=
      ⟨[⟨"a.root.", .ofList ["192.0.2.1"], .empty⟩],
        [⟨.written "example.", ["ns.example."], [("ns.example.", ["192.0.2.2"])]⟩]⟩
    ledger := .empty
    network := Network.ofRoutes [
      ⟨.udp, "192.0.2.2", "www.sub.example.", "NS",
        [⟨.zero,
          .response
            { Response.blank with
              authority :=
                [⟨.written "sub.example.", .nameservers [.written "ns.other.test."]⟩] }⟩]⟩]
    manner := .standard
    families := [.known .ipv4, .other "ipv5"]
    useDelegations := true
    maxSteps := 16
    maxDepth := 1 }

/-- Counterexamples: the walk to `www.sub.example.` visits the delegation of `example.`, whose only
server refers to a nameserver without an address. The step from there leads nowhere and does not
end without an answer either; and no more does the step from the root where a referral brings an
address of the class Chaos.
-/
theorem strayWalker_step_refused
    : let q : Question := ⟨"www.sub.example.", DomainName.written "www.sub.example."⟩
      let cut : Cut := ⟨DomainName.written "example.", [⟨"ns.example.", "192.0.2.2"⟩]⟩
      (Zone.Directory.ofText "hints"
          (". NS a.root.\na.root. A 192.0.2.1\nexample. NS ns.example.\n"
            ++ "ns.example. A 192.0.2.2\n")).directory
        = .ok strayWalker.directory
      ∧ strayWalker.families.Nodup
      ∧ cut ∈ strayWalker.cuts 1 q .start
      ∧ (strayWalker.step (strayWalker.nestedAt 1) q cut .nobody cut.servers .start).1
        = .error (.refused (.unknownFamily ⟨"ipv5"⟩))
      ∧ let q : Question := ⟨"www.example.", DomainName.written "www.example."⟩
        let root : Cut := ⟨.root, [⟨"a.root.", "192.0.2.1"⟩]⟩
        (Zone.Directory.ofText "hints" ". NS a.root.\na.root. A 192.0.2.1\n").directory
          = .ok chaosWalker.directory
        ∧ root ∈ chaosWalker.cuts 2 q .start
        ∧ (chaosWalker.step (chaosWalker.nestedAt 2) q root .nobody root.servers .start).1
          = .error (.refused (.foreign (.number 1))) := by
  intro q cut
  have start : strayWalker.startCut "www.sub.example."
      = .ok ⟨DomainName.written "example.", [⟨"ns.example.", "192.0.2.2"⟩]⟩ := by
    decide +kernel
  have rooted : chaosWalker.startCut "www.example."
      = .ok ⟨.root, [⟨"a.root.", "192.0.2.1"⟩]⟩ := by
    decide +kernel
  refine ⟨by decide +kernel, by decide, ?_, by decide +kernel, by decide +kernel, ?_,
    by decide +kernel⟩
  · unfold cuts
    rw [start]
    decide +kernel
  · unfold cuts
    rw [rooted]
    decide +kernel

end NameserverAudit.Walker
