import Mathlib
import Netsukuku.Qspn.Sending

/-!
# What the actor stores and sends

A path enters a node as a candidate of an accepted message, is stored, reported, forwarded and
withdrawn, and all the way its route and its fingerprint stay what they were.  So any condition
on routes and fingerprints that the revision establishes holds of everything the node stores and
of everything it sends.  This module proves that once, for an arbitrary condition, by going
through every handler of the actor.

* `NodeInv` — the invariant of a node: `MapInv`, its address, and the condition on stored paths.
* `Sent` — a message built from a node in that invariant.
* `Accepts` — what is asked of a message that comes in: its revision yields the condition.
* `Actor.handle_goes` — a command keeps the invariant, and whatever it spawns is accounted for.
-/

namespace Netsukuku

variable {F : Type}

/-- What a path keeps on its way through a node: its route and its fingerprint. -/
def EtpPath.body (p : EtpPath) : (List HCoord × List ArcId) × Fp := (p.route, p.fingerprint)

lemma Wires.body {np : NodePath} {p : EtpPath} (h : Wires np p) : p.body = np.path.body := by
  rw [EtpPath.body, h.1, h.2.1, EtpPath.body]

lemma body_of_core {np np' : NodePath} (h : np.core = np'.core) : np'.path.body = np.path.body :=
  congrArg EtpPath.body (NodePath.path_eq_of_core h).symm

/-- What a command brings to a node: messages that come in, a message of its own to send again,
and the withdrawals of one of its gathers. -/
def Command.Brings (incoming own : EtpMessage → Prop) (gathered : List EtpPath → Prop) :
    Command → Prop
  | .arcAddFetched _ result => ∀ m ∈ result, incoming m
  | .gatherComplete _ extraDeadPaths results =>
      gathered extraDeadPaths ∧ ∀ e ∈ results, ∀ m ∈ e.2, incoming m
  | .sendEtp _ m _ => incoming m
  | .resendEtp _ m _ => own m
  | .bootstrapEtpFetched _ result => ∀ m ∈ result, incoming m
  | .exitBootstrapGathered results => ∀ e ∈ results, ∀ m ∈ e.2, incoming m
  | _ => True

lemma Command.Brings.mono {incoming own incoming' own' : EtpMessage → Prop}
    {gathered gathered' : List EtpPath → Prop} {c : Command} (h : c.Brings incoming own gathered)
    (hin : ∀ m, incoming m → incoming' m) (hown : ∀ m, own m → own' m)
    (hgather : ∀ l, gathered l → gathered' l) : c.Brings incoming' own' gathered' := by
  cases c with
  | arcAddFetched arc result => exact fun m hm => hin m (h m hm)
  | gatherComplete aChanged extra results =>
      exact ⟨hgather _ h.1, fun e he m hm => hin m (h.2 e he m hm)⟩
  | sendEtp arc m isFull => exact hin m h
  | resendEtp arc m isFull => exact hown m h
  | bootstrapEtpFetched arc result => exact fun m hm => hin m (h m hm)
  | exitBootstrapGathered results => exact fun e he m hm => hin m (h e he m hm)
  | _ => trivial

/-- The messages an effect puts on the wire. -/
def Effect.messages : Effect → List EtpMessage
  | .unicast _ m _ => [m]
  | .broadcast _ m _ => [m]
  | _ => []

/-- The withdrawals a spawned gather carries until it completes. -/
def Effect.deadPaths : Effect → List (List EtpPath)
  | .gather _ extraDeadPaths _ => [extraDeadPaths]
  | _ => []

/-- A condition on what passes through a node: on the bodies of paths, on the trails of messages
and on the addresses recorded for peers.  Its paths can be sent, and an empty trail is a trail. -/
structure Rule where
  Path : (List HCoord × List ArcId) × Fp → Prop
  Trail : List HCoord → Prop
  Peer : Naddr → Prop
  sendable : ∀ p : EtpPath, Path p.body → Sendable p
  trail_nil : Trail []

section Rules

variable (me : Naddr) (ρ : Rule)

/-- The invariant of the node at `me`. -/
structure NodeInv (s : QspnState F) : Prop where
  map : MapInv s
  address : s.myNaddr = me
  stored : ∀ d, ∀ np ∈ s.storedAt d, ρ.Path np.path.body
  peers : ∀ arc peer, s.peerNaddr arc = some peer → ρ.Peer peer

/-- A message the node built: own address, chain and sizes, flagged paths, and a trail. -/
def Sent (F : Type) (m : EtpMessage) : Prop :=
  ∃ (s : QspnState F) (paths : List EtpPath) (hops : List HCoord), NodeInv me ρ s ∧
    m = ownEtp s (paths.map (flagged s)) hops ∧ (∀ p ∈ paths, ρ.Path p.body) ∧ ρ.Trail hops

/-- What an effect may carry. -/
def EffectOk (F : Type) : Effect → Prop
  | .unicast _ m _ => Sent me ρ F m
  | .broadcast _ m _ => Sent me ρ F m
  | .gather _ extraDeadPaths _ => ∀ p ∈ extraDeadPaths, ρ.Path p.body
  | _ => True

/-- The outcome of a handler. -/
structure Goes (r : QspnState F × List Effect) : Prop where
  inv : NodeInv me ρ r.1
  effects : ∀ e ∈ r.2, EffectOk me ρ F e

/-- If the message is accepted at `me`, its sender may be recorded, and its revision yields the
condition. -/
def Accepts (m : EtpMessage) : Prop :=
  checkIncomingMessage m me = true → ρ.Peer m.nodeAddress ∧
    ∀ arc oldPeer isFull existing r, (∀ old ∈ oldPeer, ρ.Peer old) →
      (∀ np ∈ existing, ρ.Path np.path.body) →
      reviseEtp me m arc oldPeer isFull existing = .ok r →
        (∀ np ∈ r.paths, ρ.Path np.path.body) ∧ ρ.Trail r.hops

/-- What a command may bring to the node. -/
def CommandOk (F : Type) (c : Command) : Prop :=
  c.Brings (Accepts me ρ) (Sent me ρ F) fun l => ∀ p ∈ l, ρ.Path p.body

end Rules

variable {me : Naddr} {ρ : Rule}

/-- **What an accepted message is revised to**, case by case: the withdrawal of a stored path, the
grouped image of a path of the message, a single hop to the sender, and the withdrawal of a single
hop to where the sender was. -/
lemma accepts_of_cases {m : EtpMessage}
    (hpeer : checkIncomingMessage m me = true → ρ.Peer m.nodeAddress)
    (htrail : ∀ {v}, me.hcoord m.nodeAddress = .ok (some v) → ρ.Peer m.nodeAddress →
      WellFormed me.topology m → ρ.Trail (groupHops v m.hops))
    (hgrouped : ∀ {v p}, me.hcoord m.nodeAddress = .ok (some v) → ρ.Peer m.nodeAddress →
      p ∈ m.paths → PathOk me.topology p → p.ignoreOutside[v.level]?.getD false = false → ∀ arc,
        (∀ g ∈ (groupedPath v arc p).hops, me.pos g.level ≠ some g.pos) →
          ρ.Path (groupedPath v arc p).body)
    (hsingle : ∀ {n v}, me.hcoord n = .ok (some v) → ρ.Peer n → ∀ (arc : ArcId) (fp : Fp),
      fp.level = v.level → ρ.Path (([v], [arc]), fp)) : Accepts me ρ m := by
  refine fun hin => ⟨hpeer hin, fun arc oldPeer isFull existing r hold hex hrev => ?_⟩
  obtain ⟨_, _, hw⟩ := checkIncomingMessage_iff.mp hin
  obtain ⟨hfps, hnns, v, fp, nn, moved, hv, _, hfp, hfl, _, hmoved, rfl⟩ :=
    (reviseEtp_eq_ok fun p hp => (hw.paths_ok p hp).length_arcs).mp hrev
  refine ⟨fun np hnp => ?_, htrail hv (hpeer hin) hw⟩
  rcases List.mem_append.mp hnp with hnp | hnp
  · -- an implicit withdrawal has the route of a stored path
    rw [withdrawals] at hnp
    split_ifs at hnp
    · obtain ⟨np₀, hnp₀, rfl⟩ := List.mem_map.mp hnp
      exact hex np₀ (List.mem_filter.mp hnp₀).1
    · cases hnp
  · obtain ⟨p, hp, rfl⟩ := List.mem_map.mp hnp
    rcases List.mem_append.mp hp with hp | hp
    · obtain ⟨p₀, hp₀, hign, rfl, hcyc⟩ := mem_survivors.mp hp
      exact hgrouped hv (hpeer hin) hp₀ (hw.paths_ok p₀ hp₀) hign arc hcyc
    · rcases List.mem_cons.mp hp with rfl | hp
      · exact hsingle hv (hpeer hin) arc fp hfl
      · obtain ⟨moved', hmoved', hform⟩ : ∃ moved', movedAway me m arc oldPeer v = .ok moved' ∧ _ :=
          movedAway_ok hfps hnns
        rw [hmoved] at hmoved'
        cases hmoved'
        obtain ⟨oldV, fp', nn', hold', hfp', rfl⟩ := hform p hp
        obtain ⟨_, old, rfl, hcoord⟩ := oldCoord_eq_some hold'
        exact hsingle hcoord (hold old rfl) arc fp' (hw.fingerprint_level _ _ hfp')

/-! ## The operations on the state -/

namespace NodeInv

variable {s s' : QspnState F}

/-- An operation that stores nothing new. -/
lemma of_subset (h : NodeInv me ρ s) (hs' : MapInv s') (haddr : s'.myNaddr = s.myNaddr)
    (hsub : ∀ d, ∀ np ∈ s'.storedAt d, np ∈ s.storedAt d)
    (hpeers : ∀ arc peer, s'.peerNaddr arc = some peer → s.peerNaddr arc = some peer) :
    NodeInv me ρ s' :=
  ⟨hs', haddr.trans h.address, fun d np hnp => h.stored d np (hsub d np hnp),
    fun arc peer hp => h.peers arc peer (hpeers arc peer hp)⟩

/-- An operation on the arc table. -/
lemma insertArc (h : NodeInv me ρ s) {id : ArcId} {e : ArcEntry}
    (hs' : MapInv { s with arcs := s.arcs.insertOrdered id e })
    (he : ∀ peer, e.peerNaddr = some peer → ρ.Peer peer) :
    NodeInv me ρ { s with arcs := s.arcs.insertOrdered id e } := by
  refine ⟨hs', h.address, h.stored, fun arc peer hp => ?_⟩
  simp only [QspnState.peerNaddr, KeyedMap.get?_insertOrdered] at hp
  by_cases harc : arc = id
  · rw [harc, KeyedMap.get?_insert_self, Option.bind_some] at hp
    exact he peer hp
  · rw [KeyedMap.get?_insert_of_ne _ _ harc] at hp
    exact h.peers arc peer hp

lemma addArc (h : NodeInv me ρ s) (id : ArcId) (cost : Cost) : NodeInv me ρ (s.addArc id cost) :=
  h.insertArc (h.map.addArc id cost) (by simp)

lemma setArcCost (h : NodeInv me ρ s) (arc : ArcId) (cost : Cost) :
    NodeInv me ρ (s.setArcCost arc cost) := by
  have hmap := h.map.setArcCost arc cost
  unfold QspnState.setArcCost at hmap ⊢
  cases he : s.arcs.get? arc with
  | none => exact h
  | some e =>
      rw [he] at hmap
      refine h.insertArc hmap fun peer hp => h.peers arc peer ?_
      rw [QspnState.peerNaddr, he, Option.bind_some, hp]

lemma setBootstrap (h : NodeInv me ρ s) (b : Bootstrap) :
    NodeInv me ρ { s with bootstrap := b } :=
  h.of_subset ⟨h.map.length_destinations, h.map.dest, h.map.chain, h.map.length_nodesInside,
    h.map.peer⟩ rfl (fun _ _ hnp => hnp) fun _ _ hp => hp

lemma storedAt_removeArc_subset (s : QspnState F) (arc : ArcId) (d : HCoord) {np : NodePath}
    (hnp : np ∈ (s.removeArc arc).1.storedAt d) : np ∈ s.storedAt d := by
  by_cases hc : s.containsArc arc = true
  · rw [QspnState.storedAt_removeArc s hc] at hnp
    exact (List.mem_filter.mp hnp).1
  · rwa [QspnState.removeArc_of_not_contains hc] at hnp

lemma removeArc (h : NodeInv me ρ s) (arc : ArcId) : NodeInv me ρ (s.removeArc arc).1 := by
  refine h.of_subset (h.map.removeArc arc) ?_ (fun d np => storedAt_removeArc_subset s arc d)
    fun a peer hp => ?_
  · unfold QspnState.removeArc
    split_ifs <;> rfl
  · unfold QspnState.removeArc at hp
    split_ifs at hp
    · obtain ⟨e, he, hp⟩ := Option.bind_eq_some_iff.mp hp
      by_cases ha : a = arc
      · rw [ha, KeyedMap.get?_erase_self] at he
        cases he
      · rw [KeyedMap.get?_erase_of_ne _ ha] at he
        rw [QspnState.peerNaddr, he, Option.bind_some, hp]
    · exact hp

/-- The withdrawals of a removed arc are stored paths. -/
lemma removeArc_deadPaths (h : NodeInv me ρ s) (arc : ArcId) :
    ∀ p ∈ (s.removeArc arc).2.deadPaths, ρ.Path p.body := by
  intro p hp
  unfold QspnState.removeArc at hp
  split_ifs at hp
  · obtain ⟨m, hm, hp⟩ := List.mem_flatMap.mp hp
    obtain ⟨dest, hdest, hp⟩ := List.mem_flatMap.mp hp
    obtain ⟨np, hnp, rfl⟩ := List.mem_map.mp hp
    obtain ⟨l, hl⟩ := List.mem_iff_getElem?.mp hm
    obtain ⟨pos, hpos⟩ := KeyedMap.mem_values.mp hdest
    exact h.stored ⟨l, pos⟩ np (QspnState.mem_storedAt.mpr
      ⟨dest, h.map.destination_of_mem hl hpos, (List.mem_filter.mp hnp).1⟩)
  · cases hp

lemma sameMap (h : NodeInv me ρ s) (hs' : MapInv s') (hsame : MapInv.SameMap s s') :
    NodeInv me ρ s' := by
  refine h.of_subset hs' hsame.myNaddr (fun d np hnp => ?_) fun arc peer hp => ?_
  · rwa [QspnState.storedAt, QspnState.destination, hsame.destinations] at hnp
  · rwa [QspnState.peerNaddr, hsame.arcs] at hp

lemma updateClusters (h : NodeInv me ρ s) : NodeInv me ρ s.updateClusters.1 := by
  obtain ⟨s₁, events, hrun, hs₁, hsame⟩ := h.map.updateClusters_ok
  rw [hrun]
  exact h.sameMap hs₁ hsame

lemma stripDestinations (h : NodeInv me ρ s) (lvl : ℕ) :
    NodeInv me ρ (s.stripDestinationsAtOrAbove lvl).1 := by
  refine h.of_subset (h.map.stripDestinations lvl) rfl (fun d np hnp => ?_) fun _ _ hp => hp
  obtain ⟨dest, hd, hnp⟩ := QspnState.mem_storedAt.mp hnp
  exact QspnState.mem_storedAt.mpr ⟨dest, QspnState.destination_of_strip hd, hnp⟩

lemma exitNetwork (h : NodeInv me ρ s) (lvl : ℕ) : NodeInv me ρ (s.exitNetwork lvl).1 := by
  have h₁ := h.stripDestinations lvl
  obtain ⟨s₂, climbed, h₂, hmap₂, hsame₂⟩ := h₁.map.updateClusters_ok
  have h₃ : NodeInv me ρ (s₂.removeArcs (s₂.arcsAtOrAbove lvl)).1 :=
    QspnState.removeArcs_preserves (P := NodeInv me ρ) (fun _ arc hs => hs.removeArc arc)
      (h₁.sameMap hmap₂ hsame₂) _
  obtain ⟨s₄, climbed', h₄, hmap₄, hsame₄⟩ := h₃.map.updateClusters_ok
  simp only [QspnState.exitNetwork, h₂, h₄]
  exact h₃.sameMap hmap₄ hsame₄

/-- **Recording and revising an accepted message** keeps the invariant, and its candidates are
well formed and meet the condition. -/
lemma reviseOver (h : NodeInv me ρ s) {m : EtpMessage} (hm : Accepts me ρ m)
    (hin : checkIncomingMessage m s.myNaddr = true) (arc : ArcId) (isFull : Bool) :
    NodeInv me ρ (s.reviseOver arc m isFull).1 ∧
      ∀ r, (s.reviseOver arc m isFull).2 = .ok r →
        CandidatesOk s.levels r.paths ∧ (∀ np ∈ r.paths, ρ.Path np.path.body) ∧ ρ.Trail r.hops := by
  have htop := (checkIncomingMessage_iff.mp hin).1
  have haddr := h.address
  subst haddr
  obtain ⟨hpeer, hrevise⟩ := hm hin
  refine ⟨?_, fun r hr => ?_⟩
  · have hmap := h.map.recordPeerNaddr arc htop
    rw [QspnState.reviseOver_fst]
    unfold QspnState.recordPeerNaddr at hmap ⊢
    cases he : s.arcs.get? arc with
    | none => exact h
    | some e =>
        rw [he] at hmap
        refine h.insertArc hmap fun peer hp => ?_
        cases hp
        exact hpeer
  · rw [QspnState.reviseOver_snd] at hr
    have hex : ∀ np ∈ (if isFull = true then s.pathsViaArc0 arc else []),
        np.path.arcs.head? = some arc ∧ ∃ d, np ∈ s.storedAt d := by
      intro np hnp
      split_ifs at hnp
      · exact QspnState.mem_pathsViaArc0 hnp
      · cases hnp
    have hold : ∀ old ∈ (s.recordPeerNaddr arc m.nodeAddress).2, ρ.Peer old := by
      intro old hmem
      refine h.peers arc old ?_
      unfold QspnState.recordPeerNaddr at hmem
      rw [QspnState.peerNaddr]
      cases he : s.arcs.get? arc with
      | none =>
          rw [he] at hmem
          cases hmem
      | some e =>
          rw [he] at hmem
          exact hmem
    refine ⟨fun np hnp => (reviseEtp_candidates hin hr (fun np hnp => ?_) np hnp).2, ?_⟩
    · obtain ⟨harc, d, hd⟩ := hex np hnp
      exact ⟨harc, d, h.map.pathInv hd⟩
    · refine hrevise arc _ isFull _ r hold (fun np hnp => ?_) hr
      obtain ⟨_, d, hd⟩ := hex np hnp
      exact h.stored d np hd

/-- **A merge keeps the condition**: of what is stored, and of what is reported. -/
lemma updateMap [Float64 F] (h : NodeInv me ρ s) (order : MapOrder) {q : List NodePath}
    (hq : CandidatesOk s.levels q) (hP : ∀ np ∈ q, ρ.Path np.path.body) (aChanged : Option ArcId) :
    ∃ s' out, updateMap order s q aChanged = (s', .ok out) ∧ NodeInv me ρ s' ∧
      s'.levels = s.levels ∧ ∀ p ∈ out.allPathsSet, ρ.Path p.body := by
  obtain ⟨s', out, hrun, hs'⟩ := h.map.updateMap_ok order hq aChanged
  obtain ⟨hframe, hfrom⟩ := updateMap_storedFrom order s q aChanged
  have hout : (Netsukuku.updateMap order s q aChanged).2 = .ok out := by rw [hrun]
  have hreports := updateMap_reports hout
  rw [hrun] at hframe hfrom
  have hsrc : ∀ d, ∀ np ∈ s.storedAt d ++ candidatesFor q d, ρ.Path np.path.body := by
    intro d np hnp
    rcases List.mem_append.mp hnp with hnp | hnp
    · exact h.stored d np hnp
    · exact hP np (List.mem_filter.mp hnp).1
  refine ⟨s', out, hrun, ⟨hs', hframe.myNaddr.trans h.address, fun d np hnp => ?_,
    fun arc peer hp => ?_⟩, hframe.levels, fun p hp => ?_⟩
  · obtain ⟨np₀, hnp₀, hc⟩ := hfrom d np hnp
    rw [body_of_core hc]
    exact hsrc d np₀ hnp₀
  · rw [QspnState.peerNaddr, hframe.arcs] at hp
    exact h.peers arc peer hp
  · obtain ⟨d, np, hnp, hw⟩ := hreports p hp
    rw [hw.body]
    exact hsrc d np hnp

end NodeInv

/-- A node that has just created its network. -/
lemma nodeInv_new {id : List UInt8} {eldership : UInt32} {pending : List UInt32}
    {config : QspnConfig F} {s : QspnState F}
    (h : QspnState.new me (Fingerprint.new id eldership pending) config = .ok s) :
    NodeInv me ρ s := by
  obtain ⟨hinv, haddr, hempty, hnoarcs⟩ := repInv_of_new h
  refine ⟨hinv.toMapInv, haddr, fun d np hnp => ?_, fun arc peer hp => ?_⟩
  · rw [hempty d] at hnp
    cases hnp
  · obtain ⟨e, he, _⟩ := Option.bind_eq_some_iff.mp hp
    rw [hnoarcs] at he
    cases he

/-! ## Messages -/

section Messages

variable {s : QspnState F}

/-- A message of the node carries its address and paths that meet the condition. -/
lemma Sent.spec {m : EtpMessage} (h : Sent me ρ F m) :
    m.nodeAddress = me ∧ ∀ p ∈ m.paths, ρ.Path p.body := by
  obtain ⟨s, paths, hops, hs, rfl, hpaths, _⟩ := h
  refine ⟨hs.address, fun p hp => ?_⟩
  obtain ⟨p₀, hp₀, rfl⟩ := List.mem_map.mp hp
  have hflags := (hs.map.setIgnoreOutside_eq (ρ.sendable p₀ (hpaths p₀ hp₀)) Empty).2
  rw [EtpPath.body, hflags.route, hflags.fact.2.1]
  exact hpaths p₀ hp₀

/-- Finalised paths wrapped into a message are a message of the node. -/
lemma sent_new (h : NodeInv me ρ s) {paths : List EtpPath}
    (hpaths : ∀ p ∈ paths, ρ.Path p.body) {hops : List HCoord} (hhops : ρ.Trail hops) {ε : Type}
    {wire : List EtpPath} {m : EtpMessage}
    (hwire : finalizeForSending (ε := ε) s paths = .ok wire)
    (hm : prepareNewEtp (ε := ε) s wire hops = .ok m) : Sent me ρ F m := by
  rw [h.map.finalizeForSending_eq fun p hp => ρ.sendable p (hpaths p hp)] at hwire
  cases hwire
  rw [h.map.prepareNewEtp_eq] at hm
  cases hm
  exact ⟨s, paths, hops, h, rfl, hpaths, hhops⟩

/-- Stored paths in wire form meet the condition. -/
lemma NodeInv.wire (h : NodeInv me ρ s) {d : HCoord} {np : NodePath} (hnp : np ∈ s.storedAt d)
    (c : Cost) : ρ.Path (prepareForSending np c).body := h.stored d np hnp

lemma NodeInv.wire_allPathsAt (h : NodeInv me ρ s) {l : ℕ} {np : NodePath}
    (hnp : np ∈ s.allPathsAt l) (c : Cost) : ρ.Path (prepareForSending np c).body := by
  obtain ⟨d, _, hnp⟩ := h.map.mem_allPathsAt hnp
  exact h.wire hnp c

/-- A full ETP is a message of the node. -/
lemma sent_full (h : NodeInv me ρ s) {ε : Type} {m : EtpMessage}
    (hm : prepareFullEtp (ε := ε) s = .ok m) : Sent me ρ F m := by
  rw [h.map.prepareFullEtp_eq] at hm
  cases hm
  refine ⟨s, _, [], h, rfl, fun p hp => ?_, ρ.trail_nil⟩
  obtain ⟨np, hnp, rfl⟩ := List.mem_map.mp hp
  obtain ⟨l, _, hnp⟩ := List.mem_flatMap.mp hnp
  exact h.wire_allPathsAt hnp _

/-- The reply to a requester is a message of the node. -/
lemma sent_reply [Float64 F] (h : NodeInv me ρ s) {arc : ArcId} {r : Naddr}
    {m : EtpMessage} (hm : handleInboundGetFullEtp s arc r = .ok m) : Sent me ρ F m := by
  unfold handleInboundGetFullEtp at hm
  split_ifs at hm
  · cases hm
  · cases hm
  · obtain ⟨o, _, hm⟩ := Outcome.bind_eq_ok.mp hm
    cases o with
    | none => cases hm
    | some b =>
        obtain ⟨wire, hwire, hm⟩ := Outcome.bind_eq_ok.mp hm
        refine sent_new h (fun p hp => ?_) ρ.trail_nil hwire hm
        obtain ⟨np, hnp, rfl⟩ := List.mem_map.mp hp
        obtain ⟨l, _, hnp⟩ := List.mem_flatMap.mp (List.mem_filter.mp hnp).1
        exact h.wire_allPathsAt hnp _

end Messages

/-! ## What is spawned -/

section Effects

variable {s : QspnState F}

lemma effectOk_emit (events : List QspnEvent) :
    ∀ e ∈ events.map Effect.emit, EffectOk me ρ F e := by
  intro e he
  obtain ⟨ev, _, rfl⟩ := List.mem_map.mp he
  trivial

lemma effectOk_publishSnapshot {effects : List Effect} (h : publishSnapshot s = .ok effects) :
    ∀ e ∈ effects, EffectOk me ρ F e := by
  obtain ⟨⟨_, snapshot⟩, _, h⟩ := Outcome.bind_eq_ok.mp h
  cases h
  intro e he
  obtain ⟨x, _, rfl⟩ := List.mem_map.mp he
  trivial

lemma effectOk_publishIf {changed : Bool} {effects : List Effect}
    (h : publishIf changed s = .ok effects) : ∀ e ∈ effects, EffectOk me ρ F e := by
  unfold publishIf at h
  split_ifs at h
  · exact effectOk_publishSnapshot h
  · cases h
    intro e he
    cases he

lemma effectOk_spawnBroadcast {m : EtpMessage} (hm : Sent me ρ F m) (arcs : List ArcId)
    (isFull : Bool) : ∀ e ∈ spawnBroadcast arcs m isFull, EffectOk me ρ F e := by
  intro e he
  unfold spawnBroadcast at he
  split_ifs at he
  · cases he
  · rw [List.mem_singleton.mp he]
    exact hm

/-- Effects put together. -/
lemma effectOk_append {l l' : List Effect} (h : ∀ e ∈ l, EffectOk me ρ F e)
    (h' : ∀ e ∈ l', EffectOk me ρ F e) : ∀ e ∈ l ++ l', EffectOk me ρ F e := by
  intro e he
  exact (List.mem_append.mp he).elim (h e) (h' e)

lemma effectOk_singleton {e : Effect} (h : EffectOk me ρ F e) :
    ∀ x ∈ [e], EffectOk me ρ F x := by
  intro x hx
  rw [List.mem_singleton.mp hx]
  exact h

lemma effectOk_nil : ∀ e ∈ ([] : List Effect), EffectOk me ρ F e := by
  intro e he
  cases he

lemma effectOk_mapEffects (out : UpdateMapOutcome) (events : List QspnEvent) :
    ∀ e ∈ mapEffects out events, EffectOk me ρ F e := by
  refine effectOk_append (effectOk_append (effectOk_append (effectOk_emit _) ?_)
    (effectOk_singleton trivial)) (effectOk_emit _)
  split_ifs
  · exact effectOk_nil
  · exact effectOk_singleton trivial

/-- The messages and the withdrawals among accounted-for effects. -/
lemma mem_messages {effects : List Effect} (h : ∀ e ∈ effects, EffectOk me ρ F e) :
    (∀ m ∈ effects.flatMap Effect.messages, Sent me ρ F m) ∧
      ∀ l ∈ effects.flatMap Effect.deadPaths, ∀ p ∈ l, ρ.Path p.body := by
  constructor
  · intro m hm
    obtain ⟨e, he, hm⟩ := List.mem_flatMap.mp hm
    have hok := h e he
    cases e with
    | unicast arc m' isFull => exact List.mem_singleton.mp hm ▸ hok
    | broadcast arcs m' isFull => exact List.mem_singleton.mp hm ▸ hok
    | _ => cases hm
  · intro l hl
    obtain ⟨e, he, hl⟩ := List.mem_flatMap.mp hl
    have hok := h e he
    cases e with
    | gather aChanged extra arcs => exact List.mem_singleton.mp hl ▸ hok
    | _ => cases hl

lemma doRemoveArc_goes (h : NodeInv me ρ s) {arc : ArcId} {badLink : Bool}
    {r : QspnState F × List Effect} (hrun : doRemoveArc s arc badLink = .ok r) :
    Goes me ρ r := by
  obtain ⟨published, hpub, hrun⟩ := Outcome.bind_eq_ok.mp hrun
  cases hrun
  refine ⟨h.removeArc arc, ?_⟩
  refine effectOk_append (effectOk_append (effectOk_append (effectOk_emit _)
    (effectOk_singleton trivial)) (effectOk_publishIf hpub)) ?_
  split_ifs
  · exact effectOk_nil
  · exact effectOk_singleton (h.removeArc_deadPaths arc)

lemma forwardIngested_goes (h : NodeInv me ρ s) {arc : ArcId} {i : Ingested}
    (hi : (∀ p ∈ i.allPathsSet, ρ.Path p.body) ∧ ρ.Trail i.hops) {effects : List Effect}
    (hrun : forwardIngested s arc i = .ok effects) : ∀ e ∈ effects, EffectOk me ρ F e := by
  obtain ⟨published, hpub, hrun⟩ := Outcome.bind_eq_ok.mp hrun
  split_ifs at hrun
  · obtain ⟨wire, hwire, hrun⟩ := Outcome.bind_eq_ok.mp hrun
    obtain ⟨m, hm, hrun⟩ := Outcome.bind_eq_ok.mp hrun
    cases hrun
    exact effectOk_append (effectOk_publishIf hpub)
      (effectOk_spawnBroadcast (sent_new h hi.1 hi.2 hwire hm) _ _)
  · cases hrun
    exact effectOk_publishIf hpub

lemma doExitBootstrap_goes (h : NodeInv me ρ s) {r : QspnState F × List Effect}
    (hrun : doExitBootstrap s = .ok r) : Goes me ρ r := by
  obtain ⟨published, hpub, hrun⟩ := Outcome.bind_eq_ok.mp hrun
  cases hrun
  refine ⟨h.setBootstrap .complete, effectOk_append (effectOk_publishSnapshot hpub) ?_⟩
  intro e he
  fin_cases he <;> trivial

/-- **What one gathered reply can do**: nothing over an arc that is gone, the removal of an arc
that failed or sent junk, or the record of its peer, with the candidates of a message that is
not refused. -/
lemma gatherStep_cases {effects : List Effect} {q : List NodePath}
    {reply : ArcId × Option EtpMessage} {acc : QspnState F × List Effect × List NodePath}
    (h : gatherStep (s, effects, q) reply = .ok acc) :
    (¬ s.containsArc reply.1 = true ∧ acc = (s, effects, q)) ∨
    (s.containsArc reply.1 = true ∧ ∃ badLink s₁ removed,
      doRemoveArc s reply.1 badLink = .ok (s₁, removed) ∧ acc = (s₁, effects ++ removed, q)) ∨
    (s.containsArc reply.1 = true ∧ ∃ m, reply.2 = some m ∧
      checkIncomingMessage m s.myNaddr = true ∧
      ((∃ r, (s.reviseOver reply.1 m true).2 = .ok r ∧
        acc = ((s.reviseOver reply.1 m true).1, effects, q ++ r.paths)) ∨
      ((¬ ∃ r, (s.reviseOver reply.1 m true).2 = .ok r) ∧
        acc = ((s.reviseOver reply.1 m true).1, effects, q)))) := by
  obtain ⟨arc, reply⟩ := reply
  unfold gatherStep at h
  simp only at h
  split_ifs at h with harc
  · cases h
    exact Or.inl ⟨by simpa using harc, rfl⟩
  have harc : s.containsArc arc = true := by simpa using harc
  refine Or.inr ?_
  cases reply with
  | none =>
      obtain ⟨⟨s₁, removed⟩, hremove, h⟩ := Outcome.bind_eq_ok.mp h
      cases h
      exact Or.inl ⟨harc, true, s₁, removed, hremove, rfl⟩
  | some m =>
      simp only at h
      split_ifs at h with hin
      · obtain ⟨⟨s₁, revised⟩, hattempt, h⟩ := Outcome.bind_eq_ok.mp h
        obtain ⟨rfl, hrev⟩ := Outcome.attempt_eq_ok.mp hattempt
        refine Or.inr ⟨harc, m, rfl, hin, ?_⟩
        rcases hrev with ⟨r, hr, rfl⟩ | ⟨⟨e, he⟩, rfl⟩
        · cases h
          exact Or.inl ⟨r, hr, rfl⟩
        · cases h
          refine Or.inr ⟨?_, rfl⟩
          rintro ⟨r, hr⟩
          rw [he] at hr
          cases hr
      · obtain ⟨⟨s₁, removed⟩, hremove, h⟩ := Outcome.bind_eq_ok.mp h
        cases h
        exact Or.inl ⟨harc, false, s₁, removed, hremove, rfl⟩

/-- **A gather**: the replies are recorded and revised one by one, and the condition holds of all
the candidates collected. -/
lemma gather_goes (h : NodeInv me ρ s) {results : List (ArcId × Option EtpMessage)}
    (hm : ∀ e ∈ results, ∀ m ∈ e.2, Accepts me ρ m) {s' : QspnState F} {effects : List Effect}
    {q : List NodePath} (hrun : results.foldlM gatherStep (s, [], []) = .ok (s', effects, q)) :
    Goes me ρ (s', effects) ∧ CandidatesOk s'.levels q ∧ ∀ np ∈ q, ρ.Path np.path.body := by
  have hlevels : ∀ {s₁ s₂ : QspnState F}, NodeInv me ρ s₁ → NodeInv me ρ s₂ →
      s₁.levels = s₂.levels := by
    intro s₁ s₂ h₁ h₂
    rw [QspnState.levels, h₁.address, QspnState.levels, h₂.address]
  refine Outcome.foldlM_preserves
    (P := fun acc : QspnState F × List Effect × List NodePath => Goes me ρ (acc.1, acc.2.1) ∧
      CandidatesOk acc.1.levels acc.2.2 ∧ ∀ np ∈ acc.2.2, ρ.Path np.path.body)
    ⟨⟨h, effectOk_nil⟩, by simp [CandidatesOk], by simp⟩ ?_ hrun
  rintro ⟨s₀, effects₀, q₀⟩ reply acc' ⟨hacc, hq, hP⟩ he hacc'
  rcases gatherStep_cases hacc' with ⟨_, rfl⟩ | ⟨_, badLink, s₁, removed, hremove, rfl⟩ |
    ⟨_, m, hreply, hin, hcase⟩
  · exact ⟨hacc, hq, hP⟩
  · obtain ⟨h₁, hremoved⟩ : Goes me ρ (s₁, removed) := doRemoveArc_goes hacc.inv hremove
    exact ⟨⟨h₁, effectOk_append hacc.effects hremoved⟩, hlevels hacc.inv h₁ ▸ hq, hP⟩
  · obtain ⟨h₁, hcand⟩ := hacc.inv.reviseOver (hm _ he m hreply) hin reply.1 true
    have hq₁ := hlevels hacc.inv h₁ ▸ hq
    rcases hcase with ⟨r, hr, rfl⟩ | ⟨_, rfl⟩
    · obtain ⟨hqr, hPr, _⟩ := hcand r hr
      have hqr₁ := hlevels hacc.inv h₁ ▸ hqr
      refine ⟨⟨h₁, hacc.effects⟩, fun np hnp => ?_, fun np hnp => ?_⟩
      · exact (List.mem_append.mp hnp).elim (hq₁ np) (hqr₁ np)
      · exact (List.mem_append.mp hnp).elim (hP np) (hPr np)
    · exact ⟨⟨h₁, hacc.effects⟩, hq₁, hP⟩

lemma handleRemoveArc_goes (h : NodeInv me ρ s) {arc : ArcId} {r : QspnState F × List Effect}
    (hrun : handleRemoveArc s arc = .ok r) : Goes me ρ r := by
  unfold handleRemoveArc at hrun
  split_ifs at hrun
  · obtain ⟨published, hpub, hrun⟩ := Outcome.bind_eq_ok.mp hrun
    cases hrun
    exact ⟨h.removeArc arc, effectOk_append (effectOk_append (effectOk_emit _)
      (effectOk_publishIf hpub)) (effectOk_singleton (h.removeArc_deadPaths arc))⟩
  · cases hrun
    exact ⟨h, effectOk_nil⟩

lemma handleAddArc_goes (h : NodeInv me ρ s) (drawn : List ArcId) (cost : Cost) :
    Goes me ρ (handleAddArc s drawn cost) := by
  unfold handleAddArc
  cases drawn.find? fun id => !s.containsArc id with
  | none => exact ⟨h, effectOk_nil⟩
  | some id =>
      refine ⟨h.addArc id cost, effectOk_singleton ?_⟩
      split_ifs <;> trivial

lemma handlePeriodicFullEtp_goes (h : NodeInv me ρ s)
    {r : QspnState F × List Effect} (hrun : handlePeriodicFullEtp s = .ok r) : Goes me ρ r := by
  unfold handlePeriodicFullEtp at hrun
  split_ifs at hrun
  · cases hrun
    exact ⟨h, effectOk_nil⟩
  · obtain ⟨m, hmsg, hrun⟩ := Outcome.bind_eq_ok.mp hrun
    cases hrun
    exact ⟨h, effectOk_spawnBroadcast (sent_full h hmsg) _ _⟩

lemma handleFirstDetectionSplit_goes (h : NodeInv me ρ s) {bSet : List HCoord}
    {r : QspnState F × List Effect} (hrun : handleFirstDetectionSplit s bSet = .ok r) :
    Goes me ρ r := by
  have hwire : ∀ p ∈ (bSet.flatMap fun g => ((s.destination g.level g.pos).map
      Destination.paths).getD []).map fun np => prepareForSending np (s.arcCost np.arc),
      ρ.Path p.body := by
    intro p hp
    obtain ⟨np, hnp, rfl⟩ := List.mem_map.mp hp
    obtain ⟨g, _, hnp⟩ := List.mem_flatMap.mp hnp
    exact h.wire (d := g) hnp _
  unfold handleFirstDetectionSplit at hrun
  simp only at hrun
  split_ifs at hrun
  · cases hrun
    exact ⟨h, effectOk_nil⟩
  · obtain ⟨wire, hfin, hrun⟩ := Outcome.bind_eq_ok.mp hrun
    obtain ⟨m, hmsg, hrun⟩ := Outcome.bind_eq_ok.mp hrun
    cases hrun
    exact ⟨h, effectOk_spawnBroadcast (sent_new h hwire ρ.trail_nil hfin hmsg) _ _⟩

lemma handleExitNetwork_goes (h : NodeInv me ρ s) {level : ℕ}
    {r : QspnState F × List Effect} (hrun : handleExitNetwork s level = .ok r) :
    Goes me ρ r := by
  obtain ⟨⟨s₁, outcome⟩, hattempt, hrun⟩ := Outcome.bind_eq_ok.mp hrun
  have h₁ := h.exitNetwork level
  obtain ⟨rfl, _⟩ := Outcome.attempt_eq_ok.mp hattempt
  cases outcome with
  | none =>
      cases hrun
      exact ⟨h₁, effectOk_nil⟩
  | some o =>
      obtain ⟨published, hpub, hrun⟩ := Outcome.bind_eq_ok.mp hrun
      have heff : ∀ e ∈ o.1.map Effect.emit ++ published, EffectOk me ρ F e :=
        effectOk_append (effectOk_emit o.1) (effectOk_publishIf hpub)
      split_ifs at hrun
      · obtain ⟨m, hmsg, hrun⟩ := Outcome.bind_eq_ok.mp hrun
        cases hrun
        exact ⟨h₁, effectOk_append heff (effectOk_spawnBroadcast (sent_full h₁ hmsg) _ _)⟩
      · cases hrun
        exact ⟨h₁, heff⟩

/-- The debounce spawns gathers that carry nothing. -/
lemma handleArcChanged_goes {a : Actor F} (h : NodeInv me ρ a.state) (arc : ArcId) (cost : Cost) :
    Goes me ρ ((handleArcChanged a arc cost).1.state, (handleArcChanged a arc cost).2) := by
  unfold handleArcChanged
  split_ifs
  · have h₁ := h.setArcCost arc cost
    simp only
    split_ifs
    · unfold requestArcGather
      cases a.arcGatherWindow with
      | none =>
          refine ⟨h₁, fun e he => ?_⟩
          fin_cases he
          · exact fun p hp => absurd hp List.not_mem_nil
          · trivial
      | some w => exact ⟨h₁, effectOk_nil⟩
    · exact ⟨h₁, effectOk_nil⟩
  · exact ⟨h, effectOk_nil⟩

lemma handleArcGatherWindowElapsed_goes {a : Actor F} (h : NodeInv me ρ a.state) :
    Goes me ρ
      ((handleArcGatherWindowElapsed a).1.state, (handleArcGatherWindowElapsed a).2) := by
  unfold handleArcGatherWindowElapsed
  cases a.arcGatherWindow with
  | none => exact ⟨h, effectOk_nil⟩
  | some w =>
      simp only
      split_ifs
      · refine ⟨h, fun e he => ?_⟩
        fin_cases he
        · exact fun p hp => absurd hp List.not_mem_nil
        · trivial
      · exact ⟨h, effectOk_nil⟩

/-- What a handler of the state alone does, the actor does. -/
lemma Actor.lift_goes {a a' : Actor F} {x : Outcome Empty (QspnState F × List Effect)}
    {effects : List Effect} (hx : ∀ r, x = .ok r → Goes me ρ r)
    (h : a.lift x = .ok (a', effects)) : Goes me ρ (a'.state, effects) := by
  obtain ⟨r, hr, h⟩ := Outcome.bind_eq_ok.mp h
  cases h
  exact hx r hr

end Effects

/-! ## The handlers -/

section Handlers

variable [Float64 F] {s : QspnState F}

/-- What an ingestion leaves to be forwarded meets the condition. -/
def IngestedOk (ρ : Rule) (o : Option Ingested) : Prop :=
  ∀ i ∈ o, (∀ p ∈ i.allPathsSet, ρ.Path p.body) ∧ ρ.Trail i.hops

/-- **Ingesting an accepted message.** -/
lemma ingestCheckedEtp_goes (h : NodeInv me ρ s) {m : EtpMessage} (hm : Accepts me ρ m)
    (hin : checkIncomingMessage m s.myNaddr = true) {order : MapOrder} {arc : ArcId}
    {isFull : Bool} {s' : QspnState F} {effects : List Effect} {o : Option Ingested}
    (hrun : ingestCheckedEtp order s arc m isFull = .ok (s', effects, o)) :
    Goes me ρ (s', effects) ∧ IngestedOk ρ o := by
  obtain ⟨⟨s₁, revised⟩, hattempt, hrun⟩ := Outcome.bind_eq_ok.mp hrun
  obtain ⟨h₁, hcand⟩ := h.reviseOver hm hin arc isFull
  obtain ⟨rfl, hrev⟩ := Outcome.attempt_eq_ok.mp hattempt
  clear hattempt
  rcases hrev with ⟨r, hr, rfl⟩ | ⟨_, rfl⟩
  · obtain ⟨hq, hP, hQ⟩ := hcand r hr
    have hlevels : (s.reviseOver arc m isFull).1.levels = s.levels := by
      simp [QspnState.reviseOver_fst, QspnState.levels]
    obtain ⟨s₂, out, hmap, h₂, _, hout⟩ := h₁.updateMap order (hlevels ▸ hq) hP none
    obtain ⟨⟨s₂', outcome⟩, hmap', hrun⟩ := Outcome.bind_eq_ok.mp hrun
    rw [hmap] at hmap'
    cases hmap'
    obtain ⟨⟨s₃, climbed⟩, hclimb, hrun⟩ := Outcome.bind_eq_ok.mp hrun
    obtain ⟨rfl, _⟩ := Outcome.attempt_eq_ok.mp hclimb
    cases hrun
    refine ⟨⟨h₂.updateClusters, effectOk_mapEffects _ _⟩, ?_⟩
    rintro i ⟨⟩
    exact ⟨hout, hQ⟩
  · cases hrun
    exact ⟨⟨h₁, effectOk_nil⟩, fun i hi => by cases hi⟩

lemma ingestIncomingEtp_goes (h : NodeInv me ρ s) {m : EtpMessage} (hm : Accepts me ρ m)
    {order : MapOrder} {arc : ArcId} {isFull : Bool} {s' : QspnState F} {effects : List Effect}
    {o : Option Ingested} (hrun : ingestIncomingEtp order s arc m isFull = .ok (s', effects, o)) :
    Goes me ρ (s', effects) ∧ IngestedOk ρ o := by
  unfold ingestIncomingEtp at hrun
  split_ifs at hrun with hin
  · exact ingestCheckedEtp_goes h hm hin hrun
  · obtain ⟨r, hremove, hrun⟩ := Outcome.bind_eq_ok.mp hrun
    cases hrun
    exact ⟨doRemoveArc_goes h hremove, fun i hi => by cases hi⟩

lemma handleBootstrapEtpFetched_goes (h : NodeInv me ρ s) {order : MapOrder} {arc : ArcId}
    {result : Option EtpMessage} (hm : ∀ m ∈ result, Accepts me ρ m)
    {r : QspnState F × List Effect}
    (hrun : handleBootstrapEtpFetched order s arc result = .ok r) : Goes me ρ r := by
  have hskip : Goes me ρ (s, []) := ⟨h, effectOk_nil⟩
  unfold handleBootstrapEtpFetched at hrun
  cases hb : s.bootstrap with
  | complete =>
      rw [hb] at hrun
      cases hrun
      exact hskip
  | inProgress guest host =>
      simp only [hb] at hrun
      split_ifs at hrun
      · cases hrun
        exact hskip
      · cases result with
        | none => exact doRemoveArc_goes h hrun
        | some etp =>
            simp only at hrun
            split at hrun
            · cases hrun
              exact hskip
            · split_ifs at hrun
              · cases hrun
                exact hskip
              · obtain ⟨⟨s₁, effects, o⟩, hingest, hrun⟩ := Outcome.bind_eq_ok.mp hrun
                obtain ⟨⟨s₂, exits⟩, hexit, hrun⟩ := Outcome.bind_eq_ok.mp hrun
                cases hrun
                obtain ⟨⟨h₁, heff⟩, _⟩ := ingestIncomingEtp_goes h (hm etp rfl) hingest
                obtain ⟨h₂, hexits⟩ : Goes me ρ (s₂, exits) := doExitBootstrap_goes h₁ hexit
                exact ⟨h₂, effectOk_append heff hexits⟩

lemma handleExitBootstrapGathered_goes (h : NodeInv me ρ s) {order : MapOrder}
    {results : List (ArcId × Option EtpMessage)}
    (hm : ∀ e ∈ results, ∀ m ∈ e.2, Accepts me ρ m) {r : QspnState F × List Effect}
    (hrun : handleExitBootstrapGathered order s results = .ok r) : Goes me ρ r := by
  obtain ⟨⟨s₁, effects, changed⟩, hfold, hrun⟩ := Outcome.bind_eq_ok.mp hrun
  have hstep : ∀ (acc : QspnState F × List Effect × Bool) e acc',
      Goes me ρ (acc.1, acc.2.1) → e ∈ results →
      exitBootstrapStep order acc e = .ok acc' → Goes me ρ (acc'.1, acc'.2.1) := by
    rintro ⟨s₀, effects₀, changed₀⟩ ⟨arc, reply⟩ acc' hacc he hacc'
    unfold exitBootstrapStep at hacc'
    simp only at hacc'
    split_ifs at hacc'
    · cases hacc'
      exact hacc
    · cases reply with
      | none =>
          obtain ⟨⟨s₂, removed⟩, hremove, hacc'⟩ := Outcome.bind_eq_ok.mp hacc'
          cases hacc'
          obtain ⟨h₂, hremoved⟩ : Goes me ρ (s₂, removed) := doRemoveArc_goes hacc.inv hremove
          exact ⟨h₂, effectOk_append hacc.effects hremoved⟩
      | some etp =>
          obtain ⟨⟨s₂, more, o⟩, hingest, hacc'⟩ := Outcome.bind_eq_ok.mp hacc'
          cases hacc'
          obtain ⟨⟨h₂, hmore⟩, _⟩ := ingestIncomingEtp_goes hacc.inv (hm _ he etp rfl) hingest
          exact ⟨h₂, effectOk_append hacc.effects hmore⟩
  obtain ⟨h₁, heff⟩ : Goes me ρ (s₁, effects) :=
    Outcome.foldlM_preserves (P := fun acc => Goes me ρ (acc.1, acc.2.1)) ⟨h, effectOk_nil⟩
      hstep hfold
  obtain ⟨published, hpub, hrun⟩ := Outcome.bind_eq_ok.mp hrun
  split_ifs at hrun
  · obtain ⟨m, hmsg, hrun⟩ := Outcome.bind_eq_ok.mp hrun
    cases hrun
    exact ⟨h₁, effectOk_append (effectOk_append heff (effectOk_publishIf hpub))
      (effectOk_spawnBroadcast (sent_full h₁ hmsg) _ _)⟩
  · cases hrun
    exact ⟨h₁, effectOk_append heff (effectOk_publishIf hpub)⟩

lemma handleArcAddFetched_goes (h : NodeInv me ρ s) {order : MapOrder}
    {arc : ArcId} {result : Option EtpMessage} (hm : ∀ m ∈ result, Accepts me ρ m)
    {r : QspnState F × List Effect} (hrun : handleArcAddFetched order s arc result = .ok r) :
    Goes me ρ r := by
  unfold handleArcAddFetched at hrun
  split_ifs at hrun
  · cases hrun
    exact ⟨h, effectOk_nil⟩
  · cases result with
    | none => exact doRemoveArc_goes h hrun
    | some etp =>
        obtain ⟨⟨s₁, effects, o⟩, hingest, hrun⟩ := Outcome.bind_eq_ok.mp hrun
        obtain ⟨⟨h₁, heff⟩, hing⟩ := ingestIncomingEtp_goes h (hm etp rfl) hingest
        cases o with
        | none =>
            cases hrun
            exact ⟨h₁, heff⟩
        | some i =>
            obtain ⟨forwarded, hfwd, hrun⟩ := Outcome.bind_eq_ok.mp hrun
            obtain ⟨full, hfull, hrun⟩ := Outcome.bind_eq_ok.mp hrun
            cases hrun
            exact ⟨h₁, effectOk_append (effectOk_append heff
              (forwardIngested_goes h₁ (hing i rfl) hfwd))
              (effectOk_singleton (sent_full h₁ hfull))⟩

lemma handleGatherComplete_goes (h : NodeInv me ρ s) {order : MapOrder}
    {aChanged : Option ArcId} {extra : List EtpPath} (hextra : ∀ p ∈ extra, ρ.Path p.body)
    {results : List (ArcId × Option EtpMessage)}
    (hm : ∀ e ∈ results, ∀ m ∈ e.2, Accepts me ρ m) {r : QspnState F × List Effect}
    (hrun : handleGatherComplete order s aChanged extra results = .ok r) : Goes me ρ r := by
  obtain ⟨⟨s₁, effects, q⟩, hfold, hrun⟩ := Outcome.bind_eq_ok.mp hrun
  obtain ⟨⟨h₁, heff⟩, hq, hP⟩ := gather_goes h hm hfold
  obtain ⟨s₂, out, hmap, h₂, _, hout⟩ := h₁.updateMap order hq hP aChanged
  obtain ⟨⟨s₂', outcome⟩, hmap', hrun⟩ := Outcome.bind_eq_ok.mp hrun
  rw [hmap] at hmap'
  cases hmap'
  obtain ⟨⟨s₃, climbed⟩, hclimb, hrun⟩ := Outcome.bind_eq_ok.mp hrun
  obtain ⟨rfl, _⟩ := Outcome.attempt_eq_ok.mp hclimb
  have h₃ := h₂.updateClusters
  obtain ⟨published, hpub, hrun⟩ := Outcome.bind_eq_ok.mp hrun
  have heff₃ := effectOk_append (effectOk_append heff
    (effectOk_mapEffects out (climbed.getD []))) (effectOk_publishIf hpub)
  split_ifs at hrun
  · obtain ⟨wire, hwire, hrun⟩ := Outcome.bind_eq_ok.mp hrun
    obtain ⟨m, hmsg, hrun⟩ := Outcome.bind_eq_ok.mp hrun
    cases hrun
    have hpaths : ∀ p ∈ out.allPathsSet ++ extra, ρ.Path p.body := fun p hp =>
      (List.mem_append.mp hp).elim (hout p) (hextra p)
    exact ⟨h₃, effectOk_append heff₃
      (effectOk_spawnBroadcast (sent_new h₃ hpaths ρ.trail_nil hwire hmsg) _ _)⟩
  · cases hrun
    exact ⟨h₃, heff₃⟩

lemma handleInboundSendEtp_goes (h : NodeInv me ρ s) {order : MapOrder}
    {arc : ArcId} {m : EtpMessage} (hm : Accepts me ρ m) {isFull : Bool}
    {r : QspnState F × List Effect} (hrun : handleInboundSendEtp order s arc m isFull = .ok r) :
    Goes me ρ r := by
  unfold handleInboundSendEtp at hrun
  split_ifs at hrun with harc hin
  · cases hrun
    exact ⟨h, effectOk_nil⟩
  · exact doRemoveArc_goes h hrun
  · have hin : checkIncomingMessage m s.myNaddr = true := by simpa using hin
    cases hb : s.bootstrap with
    | inProgress guest host =>
        simp only [hb] at hrun
        split_ifs at hrun
        · obtain ⟨⟨s₁, effects, o⟩, hingest, hrun⟩ := Outcome.bind_eq_ok.mp hrun
          obtain ⟨⟨s₂, exits⟩, hexit, hrun⟩ := Outcome.bind_eq_ok.mp hrun
          cases hrun
          obtain ⟨⟨h₁, heff⟩, _⟩ := ingestCheckedEtp_goes h hm hin hingest
          obtain ⟨h₂, hexits⟩ : Goes me ρ (s₂, exits) := doExitBootstrap_goes h₁ hexit
          exact ⟨h₂, effectOk_append heff hexits⟩
        · cases hrun
          exact ⟨h, effectOk_nil⟩
    | complete =>
        simp only [hb] at hrun
        obtain ⟨⟨s₁, effects, o⟩, hingest, hrun⟩ := Outcome.bind_eq_ok.mp hrun
        obtain ⟨⟨h₁, heff⟩, hing⟩ := ingestCheckedEtp_goes h hm hin hingest
        cases o with
        | none =>
            cases hrun
            exact ⟨h₁, heff⟩
        | some i =>
            obtain ⟨forwarded, hfwd, hrun⟩ := Outcome.bind_eq_ok.mp hrun
            cases hrun
            exact ⟨h₁, effectOk_append heff (forwardIngested_goes h₁ (hing i rfl) hfwd)⟩

/-- **Every command keeps the invariant, and what it spawns is accounted for.** -/
theorem Actor.handle_goes {order : MapOrder} {a a' : Actor F}
    (h : NodeInv me ρ a.state) {c : Command} (hc : CommandOk me ρ F c) {effects : List Effect}
    (hrun : a.handle order c = .ok (a', effects)) : Goes me ρ (a'.state, effects) := by
  cases c with
  | addArc drawn cost =>
      refine Actor.lift_goes ?_ hrun
      rintro r ⟨⟩
      exact handleAddArc_goes h drawn cost
  | arcAddFetched arc result =>
      exact Actor.lift_goes (fun r => handleArcAddFetched_goes h hc) hrun
  | arcChanged arc cost =>
      have heq : handleArcChanged a arc cost = (a', effects) := Except.ok.inj hrun
      have hgo : Goes me ρ _ := handleArcChanged_goes h arc cost
      rwa [heq] at hgo
  | removeArc arc => exact Actor.lift_goes (fun r => handleRemoveArc_goes h) hrun
  | gatherComplete aChanged extra results =>
      exact Actor.lift_goes (fun r => handleGatherComplete_goes h hc.1 hc.2) hrun
  | sendEtp arc etp isFull =>
      exact Actor.lift_goes (fun r => handleInboundSendEtp_goes h hc) hrun
  | gotDestroy arc => exact Actor.lift_goes (fun r => doRemoveArc_goes h) hrun
  | resendEtp arc etp isFull =>
      cases hrun
      refine ⟨h, fun e he => ?_⟩
      split_ifs at he
      · rw [List.mem_singleton.mp he]
        exact hc
      · cases he
  | resendFailed arc => exact Actor.lift_goes (fun r => doRemoveArc_goes h) hrun
  | periodicFullEtp => exact Actor.lift_goes (fun r => handlePeriodicFullEtp_goes h) hrun
  | bootstrapEtpFetched arc result =>
      exact Actor.lift_goes (fun r => handleBootstrapEtpFetched_goes h hc) hrun
  | bootstrapTimeout =>
      refine Actor.lift_goes (fun r hrun => ?_) hrun
      unfold handleBootstrapTimeout at hrun
      split_ifs at hrun
      · cases hrun
        exact ⟨h, effectOk_nil⟩
      · exact doExitBootstrap_goes h hrun
  | exitBootstrapGathered results =>
      exact Actor.lift_goes (fun r => handleExitBootstrapGathered_goes h hc) hrun
  | exitNetwork level => exact Actor.lift_goes (fun r => handleExitNetwork_goes h) hrun
  | firstDetectionSplitFire bSet =>
      exact Actor.lift_goes (fun r => handleFirstDetectionSplit_goes h) hrun
  | arcGatherWindowElapsed =>
      have heq : handleArcGatherWindowElapsed a = (a', effects) := Except.ok.inj hrun
      have hgo : Goes me ρ _ := handleArcGatherWindowElapsed_goes h
      rwa [heq] at hgo

end Handlers

end Netsukuku
