import Mathlib
import Netsukuku.Qspn.Handlers

/-!
# Acceptance is closed under forwarding

A message that fails `check_incoming_message` costs its sender the arc, so a node must not emit
what its neighbours would refuse.  The incoming gate checks the trail and the hops of every path,
and the revision adds one hop the gate has not seen: the sender's coordinate, taken from the
sender's address.  Addresses off the wire may hold virtual positions, and a virtual position is
not below the size of its g-node.

* `WireOk`, `acceptRule` — what a path needs to pass the gates once it is flagged.
* `RealTo` — the address, seen from the node, is at a real position.
* `accepts_of_realTo` — an accepted message from such a sender is revised to such paths.
* `Sent.accepted` — what is built of such paths passes both gates.
* `Node`, `Node.Step` — one node against an arbitrary outside.
* `emitted_accepted` — as long as the node ingests from real positions only, all it emits is
  accepted everywhere; `not_emitted_accepted_virtual` — from one virtual sender on, it is not.
-/

namespace Netsukuku

/-! ## The rule -/

/-- What a path needs to pass the gates once it is flagged. -/
structure WireOk (t : Topology) (b : (List HCoord × List ArcId) × Fp) : Prop where
  ne_nil : b.1.1 ≠ []
  length_arcs : b.1.1.length = b.1.2.length
  hops_ok : HopListOk t b.1.1
  fingerprint_level : ∀ last, b.1.1.getLast? = some last → b.2.level = last.level

/-- Seen from `me`, the address is at a real position. -/
def RealTo (me n : Naddr) : Prop :=
  ∀ v, me.hcoord n = .ok (some v) → v.IsReal me.topology

/-- The rule of a node whose peers are all at real positions. -/
def acceptRule (me : Naddr) : Rule where
  Path := WireOk me.topology
  Trail := HopListOk me.topology
  Peer := RealTo me
  sendable _ hp := ⟨hp.ne_nil, hp.length_arcs⟩
  trail_nil := ⟨List.Pairwise.nil, fun _ hh => absurd hh List.not_mem_nil⟩

/-- The grouping rule puts a real hop in front of real hops. -/
lemma HopListOk.groupHops {t : Topology} {hops : List HCoord} (h : HopListOk t hops) {v : HCoord}
    (hv : v.IsReal t) : HopListOk t (groupHops v hops) where
  ascending := ascending_groupHops h.ascending
  real g hg := by
    rcases mem_groupHops hg with rfl | hg
    · exact hv
    · exact h.real g hg

lemma wireOk_grouped {t : Topology} {p : EtpPath} (h : PathOk t p) {v : HCoord} (hv : v.IsReal t)
    (hign : p.ignoreOutside[v.level]?.getD false = false) (arc : ArcId) :
    WireOk t (groupedPath v arc p).body where
  ne_nil := List.cons_ne_nil _ _
  length_arcs := length_groupedPath h.length_arcs
  hops_ok := h.hops_ok.groupHops hv
  fingerprint_level last hlast := by
    have hinv := (h.pathInv_grouped hv.inLevels hign arc).last
    have hl : last = p.hops.getLast h.hops_ne_nil := Option.some.inj (hlast.symm.trans hinv)
    rw [hl]
    exact h.fingerprint_level

lemma wireOk_singleton {t : Topology} {v : HCoord} (hv : v.IsReal t) {fp : Fp}
    (hfp : fp.level = v.level) (arc : ArcId) : WireOk t (([v], [arc]), fp) where
  ne_nil := List.cons_ne_nil v []
  length_arcs := rfl
  hops_ok := by
    refine ⟨List.pairwise_singleton _ v, fun h hh => ?_⟩
    rw [List.mem_singleton.mp hh]
    exact hv
  fingerprint_level last hlast := by
    cases hlast
    exact hfp

/-- **An accepted message from a real position is revised to paths that will be accepted.** -/
theorem accepts_of_realTo {me : Naddr} {m : EtpMessage}
    (hm : checkIncomingMessage m me = true → RealTo me m.nodeAddress) :
    Accepts me (acceptRule me) m := by
  refine accepts_of_cases hm (fun hv hn hw => ?_) (fun hv hn _ hp hign arc _ => ?_)
    fun hcoord hn arc fp hfl => ?_
  · exact hw.hops_ok.groupHops (hn _ hv)
  · exact wireOk_grouped hp (hn _ hv) hign arc
  · -- the coordinate of a recorded peer is real
    exact wireOk_singleton (hn _ hcoord) hfl arc

/-! ## What is built passes the gates -/

section Gates

variable {F : Type} {me : Naddr}

/-- A flagged path passes the per-path check. -/
lemma pathOk_flagged {s : QspnState F} (hs : MapInv s) {p : EtpPath}
    (hp : WireOk s.myNaddr.topology p.body) : PathOk s.myNaddr.topology (flagged s p) := by
  have hflags := (hs.setIgnoreOutside_eq ⟨hp.ne_nil, hp.length_arcs⟩ Empty).2
  have hhops : (flagged s p).hops = p.hops := congrArg Prod.fst hflags.route
  have harcs : (flagged s p).arcs = p.arcs := congrArg Prod.snd hflags.route
  have hne : (flagged s p).hops ≠ [] := hhops ▸ hp.ne_nil
  have hlast : p.hops.getLast? = some ((flagged s p).hops.getLast hne) := by
    rw [← List.getLast?_eq_getLast_of_ne_nil hne, hhops]
  refine ⟨hne, hflags.length, fun l hl b hb => ?_, ?_, by rw [hhops, harcs]; exact hp.length_arcs,
    hhops ▸ hp.hops_ok⟩
  · have hlt : l < s.levels := by
      rw [← hflags.length]
      exact (List.getElem?_eq_some_iff.mp hb).1
    rw [hflags.above _ hlast l hl hlt] at hb
    exact (Option.some.inj hb).symm
  · rw [hflags.fact.2.1]
    exact hp.fingerprint_level _ hlast

/-- **What the node builds passes the outgoing gate, and every other node's incoming one.** -/
theorem Sent.accepted {m : EtpMessage} (h : Sent me (acceptRule me) F m) :
    checkOutgoingMessage m me = true ∧
      ∀ other : Naddr, other.topology = me.topology → other ≠ me →
        checkIncomingMessage m other = true := by
  obtain ⟨s, paths, hops, hs, rfl, hpaths, hhops⟩ := h
  have haddr := hs.address
  subst haddr
  have hw : WellFormed s.myNaddr.topology (ownEtp s (paths.map (flagged s)) hops) := by
    refine ⟨hhops, hs.map.chain.length, hs.map.chain.level, fun p hp => ?_⟩
    obtain ⟨p₀, hp₀, rfl⟩ := List.mem_map.mp hp
    exact pathOk_flagged hs.map (hpaths p₀ hp₀)
  refine ⟨checkOutgoingMessage_iff.mpr ⟨rfl, hw⟩, fun other htop hne => ?_⟩
  exact checkIncomingMessage_iff.mpr ⟨htop.symm, fun he => hne he.symm, htop.symm ▸ hw⟩

end Gates

/-! ## One node and the outside -/

/-- A node with everything it has sent, and the withdrawals of every gather it has spawned. -/
structure Node (F : Type) where
  actor : Actor F
  sent : List EtpMessage
  gathers : List (List EtpPath)

namespace Node

variable {F : Type}

/-- A node that has just created its network at `me`. -/
structure Fresh (me : Naddr) (n : Node F) : Prop where
  actor : ∃ id eldership pending config,
    QspnState.new me (Fingerprint.new id eldership pending) config = .ok n.actor.state
  sent : n.sent = []
  gathers : n.gathers = []

/-- One step: the node handles a command that brings messages of the given kind, or answers a
request for everything it knows. -/
inductive Step [Float64 F] (incoming : EtpMessage → Prop) : Node F → Node F → Prop
  | handle (n : Node F) (order : MapOrder) (c : Command) {a : Actor F} {effects : List Effect} :
      c.Brings incoming (· ∈ n.sent) (· ∈ n.gathers) → n.actor.handle order c = .ok (a, effects) →
      Step incoming n ⟨a, n.sent ++ effects.flatMap Effect.messages,
        n.gathers ++ effects.flatMap Effect.deadPaths⟩
  | reply (n : Node F) (arc : ArcId) (requester : Naddr) {m : EtpMessage} :
      handleInboundGetFullEtp n.actor.state arc requester = .ok m →
      Step incoming n { n with sent := n.sent ++ [m] }

/-- The invariant of a node and of what it has sent. -/
structure Keeps (me : Naddr) (ρ : Rule) (n : Node F) : Prop where
  inv : NodeInv me ρ n.actor.state
  sent : ∀ m ∈ n.sent, Sent me ρ F m
  gathers : ∀ l ∈ n.gathers, ∀ p ∈ l, ρ.Path p.body

lemma Fresh.keeps {me : Naddr} {n : Node F} (h : n.Fresh me) (ρ : Rule) : n.Keeps me ρ := by
  obtain ⟨id, eldership, pending, config, hnew⟩ := h.actor
  refine ⟨nodeInv_new hnew, fun m hm => ?_, fun l hl => ?_⟩
  · rw [h.sent] at hm
    cases hm
  · rw [h.gathers] at hl
    cases hl

/-- **One step keeps a rule** that what comes in is accepted under. -/
theorem Step.keeps [Float64 F] {me : Naddr} {ρ : Rule} {incoming : EtpMessage → Prop}
    (hin : ∀ m, incoming m → Accepts me ρ m) {n n' : Node F} (hstep : Step incoming n n')
    (h : n.Keeps me ρ) : n'.Keeps me ρ := by
  cases hstep with
  | @handle order c a effects hc hrun =>
      have hok : CommandOk me ρ F c := hc.mono hin h.sent h.gathers
      obtain ⟨hinv, heff⟩ := Actor.handle_goes h.inv hok hrun
      obtain ⟨hmsgs, hdead⟩ := mem_messages heff
      exact ⟨hinv, fun m hm => (List.mem_append.mp hm).elim (h.sent m) (hmsgs m),
        fun l hl => (List.mem_append.mp hl).elim (h.gathers l) (hdead l)⟩
  | reply arc requester hm =>
      refine ⟨h.inv, fun m' hm' => ?_, h.gathers⟩
      rcases List.mem_append.mp hm' with hm' | hm'
      · exact h.sent m' hm'
      · rw [List.mem_singleton.mp hm']
        exact sent_reply h.inv hm

/-- A run keeps it. -/
theorem keeps_of_run [Float64 F] {me : Naddr} {ρ : Rule} {incoming : EtpMessage → Prop}
    (hin : ∀ m, incoming m → Accepts me ρ m) {n₀ n : Node F}
    (hrun : Relation.ReflTransGen (Step incoming) n₀ n) (h₀ : n₀.Keeps me ρ) : n.Keeps me ρ := by
  induction hrun with
  | refl => exact h₀
  | tail _ hstep ih => exact hstep.keeps hin ih

end Node

/-- **Everything a node emits is accepted, as long as it ingests from real positions.**  In every
run of a node from its own network in which every accepted message comes from an address at a real
position as seen from the node, every message it has sent, and every reply it could give, passes
its own outgoing gate and the incoming gate of every other address of the topology. -/
theorem emitted_accepted {F : Type} [Float64 F] {me : Naddr} {n₀ n : Node F} (h₀ : n₀.Fresh me)
    (hrun : Relation.ReflTransGen (Node.Step fun m =>
      checkIncomingMessage m me = true → RealTo me m.nodeAddress) n₀ n) :
    ∀ m ∈ n.sent, checkOutgoingMessage m me = true ∧
      (∀ other : Naddr, other.topology = me.topology → other ≠ me →
        checkIncomingMessage m other = true) ∧
      (∀ h ∈ m.hops, h.IsReal me.topology) ∧
      ∀ p ∈ m.paths, ∀ h ∈ p.hops, h.IsReal me.topology := by
  have h := Node.keeps_of_run (ρ := acceptRule me) (fun m hm => accepts_of_realTo hm) hrun
    (h₀.keeps (acceptRule me))
  intro m hm
  obtain ⟨hout, hin⟩ := (h.sent m hm).accepted
  obtain ⟨_, hw⟩ := checkOutgoingMessage_iff.mp hout
  exact ⟨hout, hin, hw.hops_ok.real, fun p hp => (hw.paths_ok p hp).hops_ok.real⟩

/-! ## A virtual sender -/

/-- The node at position 0 of the one-level network, with nothing sent. -/
def freshSender : Node ℚ := ⟨⟨freshNode 0, none⟩, [], []⟩

lemma freshSender_fresh : freshSender.Fresh (oneLevelNode 0) :=
  ⟨⟨[1], 0, [0], .default, rfl⟩, rfl, rfl⟩

/-- The full ETP of a node of the one-level network that knows nobody. -/
def aloneEtp (p : UInt32) : EtpMessage :=
  ⟨oneLevelNode p, [Fingerprint.new [1] 0 [0], ⟨[1], 1, 0, [], [0]⟩], [1, 1], [], []⟩

/-- A run in which the node adds an arc, ingests one message over it and sends its full ETP. -/
lemma run_freshSender (incoming : EtpMessage → Prop) {m : EtpMessage} (hm : incoming m)
    {a₁ a₂ a₃ : Actor ℚ} {e₁ e₂ e₃ : List Effect}
    (h₁ : freshSender.actor.handle .asInserted (.addArc [⟨1⟩] .null) = .ok (a₁, e₁))
    (h₂ : a₁.handle .asInserted (.sendEtp ⟨1⟩ m true) = .ok (a₂, e₂))
    (h₃ : a₂.handle .asInserted .periodicFullEtp = .ok (a₃, e₃)) :
    ∃ n, Relation.ReflTransGen (Node.Step incoming) freshSender n ∧
      ∀ x ∈ e₃.flatMap Effect.messages, x ∈ n.sent := by
  refine ⟨_, ((Relation.ReflTransGen.refl.tail
    (.handle freshSender .asInserted (.addArc [⟨1⟩] .null) trivial h₁)).tail
    (.handle _ .asInserted (.sendEtp ⟨1⟩ m true) hm h₂)).tail
    (.handle _ .asInserted .periodicFullEtp trivial h₃), fun x hx => ?_⟩
  exact List.mem_append_right _ hx

/-- A node that has heard from a real neighbour sends what others accept. -/
theorem emitted_accepted_real :
    ∃ n, Relation.ReflTransGen (Node.Step fun m => checkIncomingMessage m (oneLevelNode 0) = true →
        RealTo (oneLevelNode 0) m.nodeAddress) freshSender n ∧
      n.sent ≠ [] ∧ ∀ m ∈ n.sent, checkOutgoingMessage m (oneLevelNode 0) = true := by
  have hreal : RealTo (oneLevelNode 0) (aloneEtp 1).nodeAddress := by
    intro v hv
    obtain rfl : v = ⟨0, 1⟩ := (Option.some.inj (Except.ok.inj hv)).symm
    exact ⟨4, rfl, by decide⟩
  obtain ⟨n, hrun, hsent⟩ := run_freshSender
    (fun m => checkIncomingMessage m (oneLevelNode 0) = true →
      RealTo (oneLevelNode 0) m.nodeAddress) (m := aloneEtp 1) (fun _ => hreal) rfl rfl rfl
  refine ⟨n, hrun, List.ne_nil_of_mem (hsent _ List.mem_cons_self), fun m hm => ?_⟩
  exact (emitted_accepted freshSender_fresh hrun m hm).1

/-- **A virtual sender spreads.**  Position 9 is virtual in a g-node of size 4; an address there
is decoded, its message is accepted, and the full ETP the node then sends is refused by its own
outgoing gate and by the incoming gate of its neighbour. -/
theorem not_emitted_accepted_virtual :
    Naddr.newAllowingVirtual oneLevel [9] = .ok (oneLevelNode 9) ∧
      checkIncomingMessage (aloneEtp 9) (oneLevelNode 0) = true ∧
      freshSender.Fresh (oneLevelNode 0) ∧
      ∃ n, Relation.ReflTransGen (Node.Step fun m =>
          checkIncomingMessage m (oneLevelNode 0) = true) freshSender n ∧
        ∃ m ∈ n.sent, checkOutgoingMessage m (oneLevelNode 0) = false ∧
          checkIncomingMessage m (oneLevelNode 1) = false := by
  refine ⟨rfl, by decide, freshSender_fresh, ?_⟩
  obtain ⟨n, hrun, hsent⟩ := run_freshSender
    (fun m => checkIncomingMessage m (oneLevelNode 0) = true) (m := aloneEtp 9)
    (by decide) rfl rfl rfl
  exact ⟨n, hrun, _, hsent _ List.mem_cons_self, by decide +kernel, by decide +kernel⟩

end Netsukuku
