import Mathlib
import Netsukuku.Qspn.Handlers

/-!
# A network of nodes never advertises a loop

Any number of actors run side by side.  What one of them sends may reach any node, over any of
its arcs, late, out of order, several times or never: the messages sent are kept for good, and a
step of the network may hand any of them to any node.  The addresses are fixed.

* `LoopFree` — a path visits no g-node twice, climbs, has an arc per hop, and never passes
  through a g-node of the node that holds it.
* `accepts_of_loopFree` — what is loop free for its sender becomes loop free for its receiver.
* `Network`, `Network.Step` — the configurations and their steps.
* `Network.LoopFree`, `network_loopFree` — the invariant, in every reachable configuration.

The acyclic rule of the revision only looks for the receiver's own positions.  That no g-node is
visited twice follows because the one hop the revision adds, the sender's coordinate, is what the
sender itself has kept out of every path it holds.
-/

namespace Netsukuku

/-! ## Loop-free paths -/

/-- What a node at `me` may hold or send. -/
structure LoopFree (me : Naddr) (b : (List HCoord × List ArcId) × Fp) : Prop where
  ne_nil : b.1.1 ≠ []
  nodup : b.1.1.Nodup
  ascending : Ascending b.1.1
  length_arcs : b.1.1.length = b.1.2.length
  avoids : ∀ h ∈ b.1.1, me.pos h.level ≠ some h.pos

/-- The rule of a node at `me`. -/
def loopFreeRule (me : Naddr) : Rule where
  Path := LoopFree me
  Trail _ := True
  Peer _ := True
  sendable _ hp := ⟨hp.ne_nil, hp.length_arcs⟩
  trail_nil := trivial

/-- A single hop that is not the node's own. -/
lemma loopFree_singleton {me : Naddr} {v : HCoord} (hv : me.pos v.level ≠ some v.pos) (arc : ArcId)
    (fp : Fp) : LoopFree me (([v], [arc]), fp) where
  ne_nil := List.cons_ne_nil v []
  nodup := List.nodup_singleton v
  ascending := List.pairwise_singleton _ v
  length_arcs := rfl
  avoids h hh := by
    rw [List.mem_singleton.mp hh]
    exact hv

/-- **The grouping rule keeps a path loop free**: the sender's coordinate is none of the hops the
sender kept. -/
lemma LoopFree.grouped {sender me : Naddr} {p : EtpPath} (h : LoopFree sender p.body) {v : HCoord}
    (hv : sender.pos v.level = some v.pos) (arc : ArcId)
    (hcyc : ∀ g ∈ (groupedPath v arc p).hops, me.pos g.level ≠ some g.pos) :
    LoopFree me (groupedPath v arc p).body where
  ne_nil := List.cons_ne_nil _ _
  nodup := by
    refine List.nodup_cons.mpr ⟨fun hmem => ?_, h.nodup.sublist (List.dropWhile_sublist _)⟩
    exact h.avoids v ((List.dropWhile_sublist _).subset hmem) hv
  ascending := ascending_groupHops h.ascending
  length_arcs := length_groupedPath h.length_arcs
  avoids := hcyc

/-- **A message of loop-free paths is received as one.** -/
theorem accepts_of_loopFree (me : Naddr) {m : EtpMessage}
    (hm : ∀ p ∈ m.paths, LoopFree m.nodeAddress p.body) :
    Accepts me (loopFreeRule me) m := by
  refine accepts_of_cases (fun _ => trivial) (fun _ _ _ => trivial)
    (fun hv _ hp _ _ arc hcyc => ?_) fun hcoord _ arc fp _ => ?_
  · exact (hm _ hp).grouped (Naddr.hcoord_eq_some.mp hv).2.2.1 arc hcyc
  · exact loopFree_singleton (Naddr.hcoord_eq_some.mp hcoord).2.2.2.1 arc fp

/-! ## The network -/

/-- A configuration: the actors, every message sent so far with its sender, and the withdrawals
of every gather spawned so far. -/
structure Network (ι F : Type) where
  actor : ι → Actor F
  sent : List (ι × EtpMessage)
  gathers : List (ι × List EtpPath)

namespace Network

variable {ι F : Type}

/-- Somebody has sent the message. -/
def InFlight (net : Network ι F) (m : EtpMessage) : Prop := ∃ i, (i, m) ∈ net.sent

/-- A command node `i` can meet: the messages it brings have been sent by somebody, one that is
sent again was its own, and the withdrawals are those of one of its gathers. -/
def Deliverable (net : Network ι F) (i : ι) (c : Command) : Prop :=
  c.Brings net.InFlight (fun m => (i, m) ∈ net.sent) fun l => (i, l) ∈ net.gathers

section Steps

variable [DecidableEq ι] [Float64 F]

/-- The configuration after node `i` has become `a` and spawned `effects`. -/
def after (net : Network ι F) (i : ι) (a : Actor F) (effects : List Effect) : Network ι F where
  actor := Function.update net.actor i a
  sent := net.sent ++ (effects.flatMap Effect.messages).map (Prod.mk i)
  gathers := net.gathers ++ (effects.flatMap Effect.deadPaths).map (Prod.mk i)

/-- One step: a node handles a command, or answers a request for everything it knows. -/
inductive Step : Network ι F → Network ι F → Prop
  | handle (net : Network ι F) (order : MapOrder) (i : ι) (c : Command) {a : Actor F}
      {effects : List Effect} : net.Deliverable i c →
      (net.actor i).handle order c = .ok (a, effects) → Step net (net.after i a effects)
  | reply (net : Network ι F) (i : ι) (arc : ArcId) (requester : Naddr) {m : EtpMessage} :
      handleInboundGetFullEtp (net.actor i).state arc requester = .ok m →
      Step net { net with sent := net.sent ++ [(i, m)] }

end Steps

/-- Every node has just created its own network, and nothing has been sent. -/
structure Init (addr : ι → Naddr) (net : Network ι F) : Prop where
  actor : ∀ i, ∃ id eldership pending config,
    QspnState.new (addr i) (Fingerprint.new id eldership pending) config = .ok (net.actor i).state
  sent : net.sent = []
  gathers : net.gathers = []

/-- **The invariant of the network.** -/
structure LoopFree (addr : ι → Naddr) (net : Network ι F) : Prop where
  node : ∀ i, NodeInv (addr i) (loopFreeRule (addr i)) (net.actor i).state
  sent : ∀ e ∈ net.sent, Sent (addr e.1) (loopFreeRule (addr e.1)) F e.2
  gathers : ∀ e ∈ net.gathers, ∀ p ∈ e.2, Netsukuku.LoopFree (addr e.1) p.body

variable {addr : ι → Naddr} {net : Network ι F}

/-- A message in flight is received as one of loop-free paths, whoever receives it. -/
lemma LoopFree.accepts (h : LoopFree addr net) {m : EtpMessage} (hm : net.InFlight m) (me : Naddr) :
    Accepts me (loopFreeRule me) m := by
  obtain ⟨i, hi⟩ := hm
  obtain ⟨haddr, hpaths⟩ := (h.sent _ hi).spec
  exact accepts_of_loopFree me fun p hp => haddr ▸ hpaths p hp

/-- What can be delivered in a loop-free network is fit for its receiver. -/
lemma LoopFree.commandOk (h : LoopFree addr net) {i : ι} {c : Command} (hc : net.Deliverable i c) :
    CommandOk (addr i) (loopFreeRule (addr i)) F c :=
  hc.mono (fun _ hm => h.accepts hm (addr i)) (fun _ hm => h.sent _ hm)
    fun _ hl => h.gathers _ hl

/-- **One step keeps the network loop free.** -/
theorem Step.loopFree [DecidableEq ι] [Float64 F] {net' : Network ι F} (hstep : Step net net')
    (h : LoopFree addr net) : LoopFree addr net' := by
  cases hstep with
  | @handle order i c a effects hc hrun =>
      obtain ⟨hinv, heff⟩ :=
        Actor.handle_goes (h.node i) (h.commandOk hc) hrun
      obtain ⟨hmsgs, hdead⟩ := mem_messages heff
      refine ⟨fun j => ?_, fun e he => ?_, fun e he => ?_⟩
      · by_cases hj : j = i
        · subst hj
          simpa only [after, Function.update_self] using hinv
        · simpa only [after, Function.update_of_ne hj] using h.node j
      · rcases List.mem_append.mp he with he | he
        · exact h.sent e he
        · obtain ⟨m, hm, rfl⟩ := List.mem_map.mp he
          exact hmsgs m hm
      · rcases List.mem_append.mp he with he | he
        · exact h.gathers e he
        · obtain ⟨l, hl, rfl⟩ := List.mem_map.mp he
          exact hdead l hl
  | reply i arc requester hm =>
      refine ⟨h.node, fun e he => ?_, h.gathers⟩
      rcases List.mem_append.mp he with he | he
      · exact h.sent e he
      · rw [List.mem_singleton.mp he]
        exact sent_reply (h.node i) hm

lemma Init.loopFree (h : Init addr net) : LoopFree addr net := by
  refine ⟨fun i => ?_, fun e he => ?_, fun e he => ?_⟩
  · obtain ⟨id, eldership, pending, config, hnew⟩ := h.actor i
    exact nodeInv_new hnew
  · rw [h.sent] at he
    cases he
  · rw [h.gathers] at he
    cases he

end Network

/-- **Network-wide loop freedom.**  From any number of nodes that have each created their own
network, whatever arcs come, go and change cost, whatever is sent, lost, delayed, reordered or
delivered more than once: every path stored anywhere and every path of every message in flight
visits no g-node twice, climbs, has an arc per hop, and avoids the g-nodes of the node that stores
or sent it. -/
theorem network_loopFree {ι F : Type} [DecidableEq ι] [Float64 F] {addr : ι → Naddr}
    {net₀ net : Network ι F} (h₀ : net₀.Init addr)
    (hrun : Relation.ReflTransGen Network.Step net₀ net) :
    (∀ i d, ∀ np ∈ (net.actor i).state.storedAt d, LoopFree (addr i) np.path.body) ∧
      ∀ e ∈ net.sent, e.2.nodeAddress = addr e.1 ∧
        ∀ p ∈ e.2.paths, LoopFree (addr e.1) p.body := by
  have h : net.LoopFree addr := by
    induction hrun with
    | refl => exact h₀.loopFree
    | tail _ hstep ih => exact hstep.loopFree ih
  exact ⟨fun i d np hnp => (h.node i).stored d np hnp,
    fun e he => (h.sent e he).spec⟩

/-! ## Two nodes -/

/-- Two nodes of the one-level network, at positions 0 and 1. -/
def twoNodes : Network Bool ℚ where
  actor i := ⟨freshNode (if i then 1 else 0), none⟩
  sent := []
  gathers := []

lemma twoNodes_init : twoNodes.Init fun i => oneLevelNode (if i then 1 else 0) where
  actor i := by
    refine ⟨[1], 0, [0], .default, ?_⟩
    cases i <;> rfl
  sent := rfl
  gathers := rfl

/-- The first node has added an arc and sent its full ETP, the second has added an arc and
ingested it. -/
theorem network_loopFree_twoNodes :
    ∃ net, Relation.ReflTransGen Network.Step twoNodes net ∧
      ((net.actor true).state.storedAt ⟨0, 0⟩).length = 1 ∧
      (∀ i d, ∀ np ∈ (net.actor i).state.storedAt d,
        LoopFree (oneLevelNode (if i then 1 else 0)) np.path.body) ∧
      ∀ e ∈ net.sent, e.2.nodeAddress = oneLevelNode (if e.1 then 1 else 0) ∧
        ∀ p ∈ e.2.paths, LoopFree (oneLevelNode (if e.1 then 1 else 0)) p.body := by
  have hrun : ∃ net, Relation.ReflTransGen Network.Step twoNodes net ∧
      ((net.actor true).state.storedAt ⟨0, 0⟩).length = 1 := by
    refine ⟨_, (((Relation.ReflTransGen.refl.tail
      (.handle twoNodes .asInserted false (.addArc [⟨1⟩] .null) trivial rfl)).tail
      (.handle _ .asInserted false .periodicFullEtp trivial rfl)).tail
      (.handle _ .asInserted true (.addArc [⟨1⟩] .null) trivial rfl)).tail
      (.handle _ .asInserted true (.sendEtp ⟨1⟩ ⟨oneLevelNode 0,
        [Fingerprint.new [1] 0 [0], ⟨[1], 1, 0, [], [0]⟩], [1, 1], [], []⟩ true)
        ⟨false, ?_⟩ rfl), ?_⟩
    · exact List.mem_singleton_self _
    · rfl
  obtain ⟨net, hsteps, hstored⟩ := hrun
  exact ⟨net, hsteps, hstored, network_loopFree twoNodes_init hsteps⟩

end Netsukuku
