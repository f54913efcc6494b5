import Mathlib
import Netsukuku.Qspn.Network
import Netsukuku.Qspn.Acceptance
import Netsukuku.Qspn.Pruning
import Netsukuku.Qspn.Migration
import Netsukuku.Qspn.Total
import Netsukuku.Hooking.Entry

/-!
# A network in which identities come and go

`Network` fixes who takes part.  Here an identity may be founded at any time, may enter with the
map of another one when a g-node migrates, and may be destroyed; its messages stay in flight.  The
address of an identity is its own: whoever migrates is somebody else afterwards.

* `Entered.loopFree`, `Entered.accepted` — what is carried over is loop free at the new address,
  and can be sent from there.
* `Overlay`, `Overlay.Step` — the configurations and their steps.
* `Overlay.Lasts`, `Overlay.keeps_of_run` — the conditions on paths that every run keeps.
* `overlay_loopFree` — network-wide loop freedom, across migrations.
* `overlay_accepted` — whatever is sent passes every gate, across migrations.
* `overlay_never_panics` — whatever can be delivered is handled.

A path climbs, and it ends below the level that migrates.  All of its hops therefore lie below that
level, where the two addresses agree, and the old address is what the path has avoided.  The daemon
itself carries no arc over: its identities enter with an empty list.
-/

namespace Netsukuku

variable {F : Type}

/-! ## What a migration keeps -/

/-- **What an entering identity carries over is loop free at its own address.** -/
lemma Entered.loopFree {old s : QspnState F} {me n : Naddr} {internalArcs : List InternalArc}
    {guest : ℕ} (hold : NodeInv me (loopFreeRule me) old)
    (h : Entered old n internalArcs guest s) (hpos : ∀ l < guest, n.pos l = me.pos l) :
    NodeInv n (loopFreeRule n) s := by
  refine ⟨h.toMapInv, h.address, ?_, fun _ _ _ => trivial⟩
  intro d np hnp
  obtain ⟨hlevel, np₀, hnp₀, hcarry⟩ := (h.stored d np).mp hnp
  obtain ⟨newArc, _, rfl⟩ := carry_eq_some.mp hcarry
  have hpath := hold.map.pathInv hnp₀
  have hfree : LoopFree me np₀.path.body := hold.stored d np₀ hnp₀
  refine ⟨hfree.ne_nil, hfree.nodup, hfree.ascending, (hpath.over newArc).length_arcs, ?_⟩
  intro hop hhop
  have hbelow : hop.level < guest := (hfree.ascending.le_getLast hpath.last hhop).trans_lt hlevel
  rw [hpos hop.level hbelow]
  exact hfree.avoids hop hhop

/-- Seen from its topology, a real address is at a real position. -/
lemma realTo_of_isReal {me n : Naddr} (h : n.IsReal) (htop : n.topology = me.topology) :
    RealTo me n := by
  intro v hv
  obtain ⟨_, hlevel, hpos, _⟩ := Naddr.hcoord_eq_some.mp hv
  obtain ⟨g, hg⟩ := Topology.exists_gsize hlevel
  exact ⟨g, hg, Naddr.isReal_iff.mp h _ _ _ hpos (htop ▸ hg)⟩

/-- **What an entering identity carries over can be sent from its own address.** -/
lemma Entered.accepted {old s : QspnState F} {me n : Naddr} {internalArcs : List InternalArc}
    {guest : ℕ} (hold : NodeInv me (acceptRule me) old) (h : Entered old n internalArcs guest s)
    (htop : n.topology = me.topology) (hpeers : ∀ a ∈ internalArcs, RealTo n a.peerNaddr) :
    NodeInv n (acceptRule n) s := by
  refine ⟨h.toMapInv, h.address, ?_, ?_⟩
  · intro d np hnp
    obtain ⟨_, np₀, hnp₀, hcarry⟩ := (h.stored d np).mp hnp
    obtain ⟨newArc, _, rfl⟩ := carry_eq_some.mp hcarry
    have hwire : WireOk me.topology np₀.path.body := hold.stored d np₀ hnp₀
    have hpath := (hold.map.pathInv hnp₀).over newArc
    show WireOk n.topology _
    rw [htop]
    exact ⟨hwire.ne_nil, hpath.length_arcs, hwire.hops_ok, hwire.fingerprint_level⟩
  · intro arc peer hp
    obtain ⟨a, ha, rfl⟩ := h.peers arc peer hp
    exact hpeers a ha

/-! ## The overlay -/

/-- What a migration is told. -/
structure Migration (F : Type) where
  id : List UInt8
  eldership : UInt32
  pending : List UInt32
  config : QspnConfig F
  internalArcs : List InternalArc
  externalArcs : List (ArcId × Cost)
  guestGnodeLevel : ℕ
  hostGnodeLevel : ℕ
  connectivity : ℕ × ℕ
  entryPos : List UInt32

/-- The identity at `me` is built from the one in state `old`: its address is the combined one, it
has the configuration of the old one, its arcs have distinct ids and peers of the same topology. -/
structure Migration.Builds (m : Migration F) (me : Naddr) (old : QspnState F)
    (s : IdentityState F) : Prop where
  address : Hooking.combineEntryNaddr old.myNaddr.topology old.myNaddr.positions m.guestGnodeLevel
    m.entryPos = some me
  config : m.config = old.config
  peers : ∀ a ∈ m.internalArcs, a.peerNaddr.topology = me.topology
  newArcs : (m.internalArcs.map InternalArc.newArc).Nodup
  built : newEntering me (Fingerprint.new m.id m.eldership m.pending) m.config m.internalArcs
    m.externalArcs m.guestGnodeLevel m.hostGnodeLevel m.connectivity old.destinations = .ok s

/-- A configuration: the identities alive, every message sent so far with its sender, and the
withdrawals of every gather spawned so far. -/
structure Overlay (ι F : Type) where
  actor : ι → Option (Actor F)
  sent : List (ι × EtpMessage)
  gathers : List (ι × List EtpPath)

namespace Overlay

variable {ι : Type}

/-- Nobody is there. -/
def start : Overlay ι F := ⟨fun _ => none, [], []⟩

/-- Somebody has sent the message, alive or not. -/
def InFlight (net : Overlay ι F) (m : EtpMessage) : Prop := ∃ i, (i, m) ∈ net.sent

/-- A command identity `i` can meet. -/
def Deliverable (net : Overlay ι F) (i : ι) (c : Command) : Prop :=
  c.Brings net.InFlight (fun m => (i, m) ∈ net.sent) fun l => (i, l) ∈ net.gathers

section Steps

variable [DecidableEq ι] [Float64 F]

/-- Identity `i` becomes `a`, or is destroyed. -/
def set (net : Overlay ι F) (i : ι) (a : Option (Actor F)) : Overlay ι F :=
  { net with actor := Function.update net.actor i a }

/-- The configuration after identity `i` has become `a` and spawned `effects`. -/
def after (net : Overlay ι F) (i : ι) (a : Actor F) (effects : List Effect) : Overlay ι F where
  actor := Function.update net.actor i (some a)
  sent := net.sent ++ (effects.flatMap Effect.messages).map (Prod.mk i)
  gathers := net.gathers ++ (effects.flatMap Effect.deadPaths).map (Prod.mk i)

/-- One step: an identity is founded, enters with the map of another over arcs to addresses of
`peer`, handles a command, answers a request for everything it knows, or is destroyed. -/
inductive Step (addr : ι → Naddr) (peer : Naddr → Prop) : Overlay ι F → Overlay ι F → Prop
  | found (net : Overlay ι F) (i : ι) {id : List UInt8} {eldership : UInt32} {pending : List UInt32}
      {config : QspnConfig F} {s : QspnState F} : net.actor i = none →
      QspnState.new (addr i) (Fingerprint.new id eldership pending) config = .ok s →
      Step addr peer net (net.set i (some ⟨s, none⟩))
  | enter (net : Overlay ι F) (i j : ι) (m : Migration F) {old : Actor F} {s : IdentityState F} :
      net.actor i = none → net.actor j = some old → m.Builds (addr i) old.state s →
      (∀ a ∈ m.internalArcs, peer a.peerNaddr) →
      Step addr peer net (net.set i (some ⟨s.toQspnState, none⟩))
  | handle (net : Overlay ι F) (order : MapOrder) (i : ι) (c : Command) {a a' : Actor F}
      {effects : List Effect} : net.actor i = some a → net.Deliverable i c →
      a.handle order c = .ok (a', effects) → Step addr peer net (net.after i a' effects)
  | reply (net : Overlay ι F) (i : ι) (arc : ArcId) (requester : Naddr) {a : Actor F}
      {m : EtpMessage} : net.actor i = some a →
      handleInboundGetFullEtp a.state arc requester = .ok m →
      Step addr peer net { net with sent := net.sent ++ [(i, m)] }
  | destroy (net : Overlay ι F) (i : ι) : Step addr peer net (net.set i none)

end Steps

/-- **The invariant of the overlay**: what every identity holds and everything sent meets the
condition of its address. -/
structure Keeps (ρ : Naddr → Rule) (addr : ι → Naddr) (net : Overlay ι F) : Prop where
  node : ∀ i a, net.actor i = some a → NodeInv (addr i) (ρ (addr i)) a.state
  sent : ∀ e ∈ net.sent, Sent (addr e.1) (ρ (addr e.1)) F e.2
  gathers : ∀ e ∈ net.gathers, ∀ p ∈ e.2, (ρ (addr e.1)).Path p.body

/-- A condition that survives being sent from one address to another, and a migration. -/
structure Lasts (F : Type) (ρ : Naddr → Rule) (addr : ι → Naddr) (peer : Naddr → Prop) : Prop where
  accepts : ∀ i j m, Sent (addr j) (ρ (addr j)) F m → Accepts (addr i) (ρ (addr i)) m
  enters : ∀ {old s : QspnState F} {me n : Naddr} {internalArcs : List InternalArc} {guest : ℕ},
    NodeInv me (ρ me) old → Entered old n internalArcs guest s → n.topology = me.topology →
    (∀ l < guest, n.pos l = me.pos l) →
    (∀ a ∈ internalArcs, a.peerNaddr.topology = n.topology ∧ peer a.peerNaddr) → NodeInv n (ρ n) s

lemma lasts_loopFree (addr : ι → Naddr) (peer : Naddr → Prop) : Lasts F loopFreeRule addr peer where
  accepts i j m hm := by
    obtain ⟨haddr, hpaths⟩ := hm.spec
    exact accepts_of_loopFree (addr i) fun p hp => haddr ▸ hpaths p hp
  enters hold h _ hpos _ := h.loopFree hold hpos

lemma lasts_accept {addr : ι → Naddr} (hreal : ∀ i, (addr i).IsReal) :
    Lasts F acceptRule addr Naddr.IsReal where
  accepts i j m hm := by
    refine accepts_of_realTo ?_
    intro hin
    have htop := (checkIncomingMessage_iff.mp hin).1
    rw [hm.spec.1] at htop ⊢
    exact realTo_of_isReal (hreal j) htop
  enters hold h htop _ hpeers :=
    h.accepted hold htop fun a ha => realTo_of_isReal (hpeers a ha).2 (hpeers a ha).1

variable {ρ : Naddr → Rule} {addr : ι → Naddr} {peer : Naddr → Prop} {net : Overlay ι F}

lemma keeps_start (ρ : Naddr → Rule) (addr : ι → Naddr) : Keeps ρ addr (start : Overlay ι F) where
  node _ _ h := by cases h
  sent _ h := by cases h
  gathers _ h := by cases h

/-- What can be delivered is fit for its receiver. -/
lemma Keeps.commandOk (h : Keeps ρ addr net) (hρ : Lasts F ρ addr peer) {i : ι} {c : Command}
    (hc : net.Deliverable i c) : CommandOk (addr i) (ρ (addr i)) F c := by
  refine hc.mono ?_ (fun _ hm => h.sent _ hm) fun _ hl => h.gathers _ hl
  rintro m ⟨j, hm⟩
  exact hρ.accepts i j m (h.sent _ hm)

variable [DecidableEq ι]

/-- An identity that becomes one the condition holds of. -/
lemma Keeps.update (h : Keeps ρ addr net) {i : ι} {a : Option (Actor F)}
    (ha : ∀ b, a = some b → NodeInv (addr i) (ρ (addr i)) b.state) {j : ι} {b : Actor F}
    (hb : Function.update net.actor i a j = some b) : NodeInv (addr j) (ρ (addr j)) b.state := by
  by_cases hj : j = i
  · subst hj
    rw [Function.update_self] at hb
    exact ha b hb
  · rw [Function.update_of_ne hj] at hb
    exact h.node j b hb

/-- **One step keeps a condition that lasts.** -/
theorem Step.keeps [Float64 F] {net' : Overlay ι F} (hstep : Step addr peer net net')
    (hρ : Lasts F ρ addr peer) (h : Keeps ρ addr net) : Keeps ρ addr net' := by
  cases hstep with
  | @found i id eldership pending config s hnone hnew =>
      refine ⟨fun j b hb => h.update ?_ hb, h.sent, h.gathers⟩
      rintro b ⟨⟩
      exact nodeInv_new hnew
  | @enter i j m old s hnone hold hbuilds hpeer =>
      refine ⟨fun k b hb => h.update ?_ hb, h.sent, h.gathers⟩
      rintro b ⟨⟩
      have hinv := h.node j old hold
      obtain ⟨_, htop, _⟩ := Hooking.combineEntryNaddr_eq_some.mp hbuilds.address
      have hlevel : (Fingerprint.new m.id m.eldership m.pending).level = 0 := rfl
      obtain ⟨_, hentered⟩ := entered_of_newEntering hinv.map htop hlevel
        (le_of_eq (congrArg QspnConfig.maxPaths hbuilds.config.symm)) hbuilds.peers
        hbuilds.newArcs hbuilds.built
      refine hρ.enters hinv hentered (hinv.address ▸ htop) ?_ ?_
      · intro l hl
        rw [(Hooking.pos_of_combine hbuilds.address).1 l hl, hinv.address]
      · intro a ha
        exact ⟨hbuilds.peers a ha, hpeer a ha⟩
  | @handle order i c a a' effects hact hc hrun =>
      obtain ⟨hinv, heff⟩ := Actor.handle_goes (h.node i a hact) (h.commandOk hρ hc) hrun
      obtain ⟨hmsgs, hdead⟩ := mem_messages heff
      refine ⟨fun j b hb => h.update ?_ hb, fun e he => ?_, fun e he => ?_⟩
      · rintro b ⟨⟩
        exact hinv
      · rcases List.mem_append.mp he with he | he
        · exact h.sent e he
        · obtain ⟨m, hm, rfl⟩ := List.mem_map.mp he
          exact hmsgs m hm
      · rcases List.mem_append.mp he with he | he
        · exact h.gathers e he
        · obtain ⟨l, hl, rfl⟩ := List.mem_map.mp he
          exact hdead l hl
  | @reply i arc requester a m hact hm =>
      refine ⟨h.node, fun e he => ?_, h.gathers⟩
      rcases List.mem_append.mp he with he | he
      · exact h.sent e he
      · rw [List.mem_singleton.mp he]
        exact sent_reply (h.node i a hact) hm
  | destroy i =>
      refine ⟨fun j b hb => h.update ?_ hb, h.sent, h.gathers⟩
      rintro b ⟨⟩

/-- A run keeps it. -/
lemma keeps_of_run [Float64 F] (hρ : Lasts F ρ addr peer)
    (hrun : Relation.ReflTransGen (Step addr peer) start net) : Keeps ρ addr net := by
  induction hrun with
  | refl => exact keeps_start ρ addr
  | tail _ hstep ih => exact hstep.keeps hρ ih

end Overlay

/-- **Loop freedom across migrations.**  Whatever identities are founded, enter with the map of
another or are destroyed, and whatever is sent, lost, delayed, reordered or delivered more than
once: every path an identity alive holds and every path of every message in flight visits no g-node
twice, climbs, has an arc per hop, and avoids the g-nodes of the identity that holds or sent it. -/
theorem overlay_loopFree {ι F : Type} [DecidableEq ι] [Float64 F] {addr : ι → Naddr}
    {peer : Naddr → Prop} {net : Overlay ι F}
    (hrun : Relation.ReflTransGen (Overlay.Step addr peer) .start net) :
    (∀ i a, net.actor i = some a → ∀ d, ∀ np ∈ a.state.storedAt d,
      LoopFree (addr i) np.path.body) ∧
    ∀ e ∈ net.sent, e.2.nodeAddress = addr e.1 ∧ ∀ p ∈ e.2.paths, LoopFree (addr e.1) p.body := by
  have h := Overlay.keeps_of_run (Overlay.lasts_loopFree addr peer) hrun
  refine ⟨?_, fun e he => (h.sent e he).spec⟩
  intro i a ha d np hnp
  exact (h.node i a ha).stored d np hnp

/-- **No honest message is refused.**  Where every address is real and every arc carried over leads
to a real address, whatever anybody has sent passes the gate of its sender, and that of every other
address of the topology: no identity takes another's message for junk, which would cost the arc. -/
theorem overlay_accepted {ι F : Type} [DecidableEq ι] [Float64 F] {addr : ι → Naddr}
    (hreal : ∀ i, (addr i).IsReal) {net : Overlay ι F}
    (hrun : Relation.ReflTransGen (Overlay.Step addr Naddr.IsReal) .start net) :
    ∀ e ∈ net.sent, checkOutgoingMessage e.2 (addr e.1) = true ∧
      ∀ other : Naddr, other.topology = (addr e.1).topology → other ≠ addr e.1 →
        checkIncomingMessage e.2 other = true := by
  have h := Overlay.keeps_of_run (Overlay.lasts_accept hreal) hrun
  intro e he
  exact (h.sent e he).accepted

/-- **No actor ever panics.**  In every configuration reached, each identity alive handles every
command that can meet it, and answers every request with a message or an error. -/
theorem overlay_never_panics {ι F : Type} [DecidableEq ι] [Float64 F] {addr : ι → Naddr}
    {peer : Naddr → Prop} {net : Overlay ι F}
    (hrun : Relation.ReflTransGen (Overlay.Step addr peer) .start net) {i : ι} {a : Actor F}
    (ha : net.actor i = some a) :
    (∀ c, net.Deliverable i c → ∀ order, ∃ r, a.handle order c = .ok r) ∧
    ∀ arc requester, (∃ m, handleInboundGetFullEtp a.state arc requester = .ok m) ∨
      ∃ e, handleInboundGetFullEtp a.state arc requester = .error (.err e) := by
  have hρ := Overlay.lasts_loopFree (F := F) addr peer
  have h := Overlay.keeps_of_run hρ hrun
  refine ⟨?_, handleInboundGetFullEtp_answers (h.node i a ha).map⟩
  intro c hc order
  exact Actor.handle_returns (h.node i a ha) (h.commandOk hρ hc) order

/-! ## A node that moves with its g-node -/

lemma length_moved : [(0 : UInt32), 3].length = twoTiers.levels := rfl

/-- The nodes at 0 and 1 of the g-node 0, and the first one after its g-node has moved to 3. -/
def moving : Fin 3 → Naddr
  | 0 => twoLevelNode 0
  | 1 => twoLevelNode 1
  | 2 => ⟨twoTiers, [0, 3], length_moved⟩

/-- How it moves: its arc to the other node becomes arc 7. -/
def movingTo : Migration ℚ :=
  ⟨[9], 0, [0, 0], tolerantConfig, [⟨⟨1⟩, ⟨7⟩, twoLevelNode 1, .null⟩], [], 1, 2, (0, 0), [3]⟩

/-- Both are founded, the second has told the first everything it knows, and the first has moved. -/
lemma exists_moved : ∃ net : Overlay (Fin 3) ℚ,
    Relation.ReflTransGen (Overlay.Step moving Naddr.IsReal) .start net ∧
    ∃ a, net.actor 2 = some a ∧ (a.state.storedAt ⟨0, 1⟩).map NodePath.arc = [⟨7⟩] := by
  refine ⟨_, ((((((Relation.ReflTransGen.refl.tail
    (@Overlay.Step.found ℚ _ _ _ moving _ _ 0 [0] 0 [0, 0] tolerantConfig _ rfl rfl)).tail
    (@Overlay.Step.found ℚ _ _ _ moving _ _ 1 [1] 0 [0, 0] tolerantConfig _ rfl rfl)).tail
    (.handle _ .asInserted 1 (.addArc [⟨1⟩] .null) rfl trivial rfl)).tail
    (.handle _ .asInserted 1 .periodicFullEtp rfl trivial rfl)).tail
    (.handle _ .asInserted 0 (.addArc [⟨1⟩] .null) rfl trivial rfl)).tail
    (.handle _ .asInserted 0 (.sendEtp ⟨1⟩
      ⟨twoLevelNode 1, twoLevelChain 1, [1, 1, 1], [], []⟩ true) rfl
      ⟨1, List.mem_singleton_self _⟩ rfl)).tail
    (.enter _ 2 0 movingTo rfl rfl ⟨rfl, rfl, by simp [movingTo, twoLevelNode, moving],
      by simp [movingTo], rfl⟩ (by decide)), _, rfl, ?_⟩
  rfl

theorem overlay_loopFree_moved : ∃ net : Overlay (Fin 3) ℚ,
    Relation.ReflTransGen (Overlay.Step moving Naddr.IsReal) .start net ∧
    (∃ a, net.actor 2 = some a ∧ (a.state.storedAt ⟨0, 1⟩).map NodePath.arc = [⟨7⟩]) ∧
    (∀ i a, net.actor i = some a → ∀ d, ∀ np ∈ a.state.storedAt d,
      LoopFree (moving i) np.path.body) ∧
    ∀ e ∈ net.sent, e.2.nodeAddress = moving e.1 ∧
      ∀ p ∈ e.2.paths, LoopFree (moving e.1) p.body := by
  obtain ⟨net, hrun, hmoved⟩ := exists_moved
  exact ⟨net, hrun, hmoved, overlay_loopFree hrun⟩

theorem overlay_accepted_moved : ∃ net : Overlay (Fin 3) ℚ,
    Relation.ReflTransGen (Overlay.Step moving Naddr.IsReal) .start net ∧
    (∃ a, net.actor 2 = some a ∧ (a.state.storedAt ⟨0, 1⟩).map NodePath.arc = [⟨7⟩]) ∧
    ∀ e ∈ net.sent, checkOutgoingMessage e.2 (moving e.1) = true ∧
      ∀ other : Naddr, other.topology = (moving e.1).topology → other ≠ moving e.1 →
        checkIncomingMessage e.2 other = true := by
  obtain ⟨net, hrun, hmoved⟩ := exists_moved
  exact ⟨net, hrun, hmoved, overlay_accepted (by decide) hrun⟩

theorem overlay_never_panics_moved : ∃ (net : Overlay (Fin 3) ℚ) (a : Actor ℚ),
    Relation.ReflTransGen (Overlay.Step moving Naddr.IsReal) .start net ∧ net.actor 2 = some a ∧
    (∀ c, net.Deliverable 2 c → ∀ order, ∃ r, a.handle order c = .ok r) ∧
    ∀ arc requester, (∃ m, handleInboundGetFullEtp a.state arc requester = .ok m) ∨
      ∃ e, handleInboundGetFullEtp a.state arc requester = .error (.err e) := by
  obtain ⟨net, hrun, a, ha, _⟩ := exists_moved
  exact ⟨net, a, hrun, ha, overlay_never_panics hrun ha⟩

end Netsukuku
