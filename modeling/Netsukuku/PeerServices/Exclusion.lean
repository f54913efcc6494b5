import Mathlib
import Netsukuku.PeerServices.Relay
import Netsukuku.PeerServices.Replicas

/-!
# Excluded g-nodes are not elected downstream

A search excludes g-nodes by tuples in the scope of its originator.  To the originator such a tuple
is its own g-node, one it can see, or one hidden inside a g-node it can see; the message takes along
those hidden inside the g-node elected, cut to its scope, and every node on the way sorts them
again.

* `TupleGNode.InsideOf` — the g-node a tuple names to the node that made it.
* `CoversTuples` — what the search excludes by tuple it excludes as a g-node, where the caller sees
  it; `Caller.Step.covers` — every step of a call keeps that.
* `ElectsItself` — the nodes a call may end at: its own, or one a message of it ends at.
* `not_insideOf_of_elected` — none of them lies in an excluded g-node.
-/

namespace Netsukuku

variable {V : Type}

/-- The node at `n` lies in the g-node the tuple names to the node at `me`: from the scope of the
tuple on it is where `me` is. -/
def TupleGNode.InsideOf (gn : TupleGNode) (me n : List UInt32) : Prop :=
  gn.Contains n ∧ n.drop gn.top = me.drop gn.top

/-! ## A call keeps what it excludes -/

/-- The search excludes the tuples it started with, and of all its tuples the g-nodes its caller
can see. -/
structure CoversTuples (myPos : List UInt32) (call : ContactCall V) (s : Search) : Prop where
  seeds : ∀ gn ∈ call.seedExcludeTupleList, gn ∈ s.excludeTupleList
  visible : ∀ gn ∈ s.excludeTupleList, ∀ ret,
    convertTupleGnode myPos gn = .ok (.visible, ret) → ret ∈ s.excludeGnodeList

section Calls

variable {cfg : PeerConfig} {p : PeerState V} {call : ContactCall V} {s s' : Search} {a : Attempt}

lemma covers_startSearch {hops : ℕ} (h : startSearch p call hops = .ok s) :
    CoversTuples p.myPos.positions call s := by
  have hseeds : s.excludeTupleList = call.seedExcludeTupleList := by
    obtain ⟨nonParticipants, -, h⟩ := Outcome.bind_eq_ok.mp h
    obtain ⟨mine, -, h⟩ := Outcome.bind_eq_ok.mp h
    obtain ⟨visible, -, h⟩ := Outcome.bind_eq_ok.mp h
    cases h
    rfl
  have hkeeps := keepsSeeds_startSearch h
  exact ⟨hkeeps.tuples, fun gn hgn => hkeeps.visible gn (hseeds ▸ hgn)⟩

/-- Excluding more of the g-nodes the caller sees. -/
lemma CoversTuples.mono (h : CoversTuples p.myPos.positions call s)
    (htuples : s'.excludeTupleList = s.excludeTupleList)
    (hgnodes : s.excludeGnodeList ⊆ s'.excludeGnodeList) :
    CoversTuples p.myPos.positions call s' where
  seeds gn hgn := htuples ▸ h.seeds gn hgn
  visible gn hgn ret hret := hgnodes (h.visible gn (htuples ▸ hgn) ret hret)

/-- Excluding one more tuple, and with it the g-node the caller sees. -/
lemma CoversTuples.push (h : CoversTuples p.myPos.positions call s) {gn : TupleGNode}
    (htuples : s'.excludeTupleList = s.excludeTupleList ++ [gn])
    (hgnodes : s.excludeGnodeList ⊆ s'.excludeGnodeList)
    (hvisible : ∀ ret, convertTupleGnode p.myPos.positions gn = .ok (.visible, ret) →
      ret ∈ s'.excludeGnodeList) : CoversTuples p.myPos.positions call s' where
  seeds gn hgn := htuples ▸ List.mem_append_left _ (h.seeds gn hgn)
  visible gn' hgn' ret hret := by
    rw [htuples] at hgn'
    rcases List.mem_append.mp hgn' with hgn' | hgn'
    · exact hgnodes (h.visible gn' hgn' ret hret)
    · rw [List.mem_singleton.mp hgn'] at hret
      exact hvisible ret hret

lemma covers_giveUp {gn gn' : TupleGNode} (h : CoversTuples p.myPos.positions call a.search)
    (hrun : a.giveUp p call gn = .ok (s, gn')) : CoversTuples p.myPos.positions call s := by
  obtain ⟨_, -, hrun⟩ := Outcome.bind_eq_ok.mp hrun
  obtain ⟨_, htuple, hrun⟩ := Outcome.bind_eq_ok.mp hrun
  cases hrun
  obtain ⟨visible, hvisible, htuple⟩ := Outcome.bind_eq_ok.mp htuple
  cases htuple
  refine h.push rfl (List.subset_append_left _ _) fun ret hret => ?_
  rw [excludeVisible, hret, Outcome.ok_bind] at hvisible
  cases hvisible
  exact List.mem_append_right _ (by simp)

lemma covers_refused {respondant : TupleNode} {refusal : Refusal}
    (h : CoversTuples p.myPos.positions call a.search)
    (hrun : a.refused cfg p respondant refusal = .ok s) : CoversTuples p.myPos.positions call s := by
  obtain ⟨gn, -, hrun⟩ := Outcome.bind_eq_ok.mp hrun
  split at hrun
  · cases hrun
  · obtain ⟨mine, -, hrun⟩ := Outcome.bind_eq_ok.mp hrun
    cases hrun
    exact h.mono rfl (List.subset_append_left _ _)
  · obtain ⟨excluded, hexcluded, hrun⟩ := Outcome.bind_eq_ok.mp hrun
    cases hrun
    refine h.push rfl (List.subset_append_left _ _) fun ret hret => ?_
    rw [Attempt.refusedGnodes, hret] at hexcluded
    cases hexcluded
    exact List.mem_append_right _ (List.mem_singleton_self _)

/-- The search of a call, while it has one. -/
def Phase.search : Phase V → Option Search
  | .attempt s => some s
  | .sending a => some a.search
  | .waiting a => some a.search
  | _ => none

/-- The search of the call covers its tuples. -/
def Caller.Covered (k : Caller V) (call : ContactCall V) : Prop :=
  ∀ s, k.phase.search = some s → CoversTuples k.state.myPos.positions call s

/-- What the local service makes of a call. -/
lemma covers_servedLocally {outcome : Option (Except ExecError V)} {phase : Phase V}
    (h : CoversTuples p.myPos.positions call s)
    (hrun : servedLocally cfg p call s outcome = .ok phase) :
    ∀ s', phase.search = some s' → CoversTuples p.myPos.positions call s' := by
  rcases outcome with _ | (_ | _) | v
  · obtain ⟨p₀, -, hrun⟩ := Outcome.bind_eq_ok.mp hrun
    cases hrun
    rintro s' ⟨⟩
    exact h.mono rfl (List.subset_append_left _ _)
  · obtain ⟨mine, -, hrun⟩ := Outcome.bind_eq_ok.mp hrun
    cases hrun
    rintro s' ⟨⟩
    exact h.mono rfl (List.subset_append_left _ _)
  · cases hrun
    rintro s' ⟨⟩
  · obtain ⟨ρ, -, hrun⟩ := Outcome.bind_eq_ok.mp hrun
    cases hrun
    rintro s' ⟨⟩

/-- One event of an attempt. -/
lemma covers_receive {e : RouteEvent V} {phase : Phase V}
    (h : CoversTuples p.myPos.positions call a.search) (hrun : a.receive cfg p call e = .ok phase) :
    ∀ s', phase.search = some s' → CoversTuples p.myPos.positions call s' := by
  cases e with
  | nextDestination tuple =>
      cases hrun
      rintro s' ⟨⟩
      exact h
  | failure tuple =>
      obtain ⟨⟨s, gn⟩, hgiveUp, hrun⟩ := Outcome.bind_eq_ok.mp hrun
      cases hrun
      rintro s' ⟨⟩
      exact covers_giveUp h hgiveUp
  | nonParticipant tuple =>
      obtain ⟨⟨s, gn⟩, hgiveUp, hrun⟩ := Outcome.bind_eq_ok.mp hrun
      cases hrun
      rintro s' ⟨⟩
      exact (covers_giveUp h hgiveUp).mono rfl (List.Subset.refl _)
  | missingOptionalMaps =>
      cases hrun
      rintro s' ⟨⟩
  | respondantNode n =>
      simp only [Attempt.receive] at hrun
      split at hrun
      · obtain ⟨ρ, -, hrun⟩ := Outcome.bind_eq_ok.mp hrun
        cases hrun
        rintro s' ⟨⟩
        exact h
      · cases hrun
        rintro s' ⟨⟩
        exact h
  | response response =>
      obtain ⟨ρ, -, hrun⟩ := Outcome.bind_eq_ok.mp hrun
      cases hrun
      rintro s' ⟨⟩
  | refuse refusal =>
      simp only [Attempt.receive] at hrun
      split at hrun
      · cases hrun
        rintro s' ⟨⟩
        exact h
      · obtain ⟨s, hs, hrun⟩ := Outcome.bind_eq_ok.mp hrun
        cases hrun
        rintro s' ⟨⟩
        exact covers_refused h hs
  | redoFromStart =>
      simp only [Attempt.receive] at hrun
      split at hrun
      · cases hrun
        rintro s' ⟨⟩
        exact h
      · cases hrun
        rintro s' ⟨⟩

variable {w : World V} {k k' : Caller V}

/-- **One step of a call keeps its tuples covered**, and the address of its node. -/
theorem Caller.Step.covers (hstep : Step w cfg call k k') (h : k.Covered call) :
    k'.state.myPos = k.state.myPos ∧ k'.Covered call := by
  unfold Covered at h ⊢
  cases hstep with
  | command c hc hforeign => exact ⟨by simp, by simpa using h⟩
  | registry services participantSet => exact ⟨rfl, h⟩
  | restart hphase hstart =>
      refine ⟨rfl, ?_⟩
      rintro s ⟨⟩
      exact covers_startSearch hstart
  | fail gnodeExists hphase helect => exact ⟨rfl, by rintro s ⟨⟩⟩
  | @myself s s' phase gnodeExists outcome hphase helect hserves hregistered hserved =>
      obtain ⟨rfl, -⟩ := elect_eq_ok helect (fun e he => by cases he)
      have hs : CoversTuples k.state.myPos.positions call { s with hops := s.hops + 1 } :=
        (h s (by rw [hphase]; rfl)).mono rfl (List.Subset.refl _)
      exact ⟨rfl, covers_servedLocally hs hserved⟩
  | @forward s s' x a gnodeExists msgId hphase helect hfree hdraws hopen =>
      obtain ⟨rfl, hx, -, hparts⟩ := elect_remote helect
      have hs : CoversTuples k.state.myPos.positions call { s with hops := s.hops + 1 } :=
        (h s (by rw [hphase]; rfl)).mono rfl (List.Subset.refl _)
      obtain ⟨-, hsearch, -⟩ := handed_openAttempt hs.seeds
        (fun gn hgn => hs.visible gn (hs.seeds gn hgn)) hx hparts hopen
      refine ⟨by simp, ?_⟩
      rintro s' ⟨⟩
      rw [hsearch, PeerState.handle_myPos]
      exact hs
  | @sent a hphase => exact ⟨rfl, by rintro s ⟨⟩; exact h _ (by rw [hphase]; rfl)⟩
  | @notSent a hphase => exact ⟨rfl, by rintro s ⟨⟩; exact h _ (by rw [hphase]; rfl)⟩
  | @receive a wa e rest phase hphase hwa hsent hreceive =>
      exact ⟨rfl, covers_receive (h _ (by rw [hphase]; rfl)) hreceive⟩
  | @timeout a phase hphase htimeout =>
      obtain ⟨⟨s, gn⟩, hgiveUp, htimeout⟩ := Outcome.bind_eq_ok.mp htimeout
      cases htimeout
      refine ⟨rfl, ?_⟩
      rintro s' ⟨⟩
      exact covers_giveUp (h _ (by rw [hphase]; rfl)) hgiveUp

lemma covered_of_run {k₀ : Caller V}
    (hrun : Relation.ReflTransGen (Caller.Step w cfg call) k₀ k) (h₀ : k₀.Covered call) :
    k.Covered call := by
  induction hrun with
  | refl => exact h₀
  | tail _ hstep ih => exact (hstep.covers ih).2

end Calls

/-! ## Where a call may end -/

/-- The nodes that may elect themselves for a search: the node of the caller, and every node a
message of the next attempt may end at. -/
inductive ElectsItself (cfg : PeerConfig) (p : PeerState V) (call : ContactCall V) (s : Search) :
    Naddr → Prop where
  | here {s' : Search} (gnodeExists : HCoord → Bool)
      (helect : elect cfg p call gnodeExists s = .ok (s', .myself)) :
      ElectsItself cfg p call s p.myPos
  | there {s' : Search} {x : HCoord} {a : Attempt} {c f : Naddr} (gnodeExists : HCoord → Bool)
      (msgId : Int32) (helect : elect cfg p call gnodeExists s = .ok (s', .remote x))
      (hopen : openAttempt p call s' x msgId = .ok a) (hsame : SameGnode (x.level + 1) p.myPos c)
      (hserves : Serves V c a.forwarder f) : ElectsItself cfg p call s f

/-- **A search does not end in a g-node it excludes**, unless that is one of the caller's own. -/
lemma CoversTuples.not_insideOf {cfg : PeerConfig} {p : PeerState V} {call : ContactCall V}
    {s : Search} {f : Naddr} (hcovers : CoversTuples p.myPos.positions call s) (h : ElectsItself cfg p call s f)
    {gn : TupleGNode} (hgn : gn ∈ s.excludeTupleList)
    (hme : ¬gn.InsideOf p.myPos.positions p.myPos.positions) :
    ¬gn.InsideOf p.myPos.positions f.positions := by
  cases h with
  | here gnodeExists helect => exact hme
  | @there s' x a c _ gnodeExists msgId helect hopen hsame hserves =>
      rintro ⟨hcontains, hscope⟩
      obtain ⟨rfl, hx, -, hparts⟩ := elect_remote helect
      have hs : CoversTuples p.myPos.positions call { s with hops := s.hops + 1 } :=
        hcovers.mono rfl (List.Subset.refl _)
      obtain ⟨hhanded, -⟩ := handed_openAttempt (fun gn hgn => hgn) hs.visible hx hparts hopen
      obtain ⟨hsame', hpos, havoids⟩ :=
        hserves.spec fun y hy => by rw [hhanded.scope y hy, hhanded.lvl]
      rw [hhanded.lvl] at hsame' hpos
      rw [hhanded.pos] at hpos
      have habove : f.positions.drop (x.level + 1) = p.myPos.positions.drop (x.level + 1) :=
        (hsame.2.trans hsame'.2).symm
      -- the g-node elected is not above the tuple, or the tuple would be one of the caller's own
      have hlevel : gn.level ≤ x.level := by
        by_contra hbelow
        exact hme ⟨contains_of_below habove (not_le.mp hbelow) hcontains, rfl⟩
      -- and not beyond its scope, where the node elected is where the caller is
      have htop : x.level < gn.top := by
        by_contra hbeyond
        obtain ⟨q, hq, hne⟩ := hparts
        rw [getElem?_eq_of_drop hscope (not_lt.mp hbeyond), hq] at hpos
        exact hne (Option.some.inj hpos)
      obtain ⟨cut, hcut, hcuttop, hcutcontains⟩ :=
        hhanded.contains_cut hpos habove hgn hlevel htop hcontains
      exact havoids cut hcut hcuttop hcutcontains

/-- **Excluded g-nodes are never elected downstream.**  In any state of a call, whatever g-nodes
each node on the way believes to exist, the node that elects itself for the search lies in none of
the g-nodes the call was told to exclude or has come to exclude, the caller's own apart. -/
theorem not_insideOf_of_elected {w : World V} {cfg : PeerConfig} {call : ContactCall V}
    {k₀ k : Caller V} {s : Search} {f : Naddr} (hinit : k₀.phase = .restart 0)
    (hrun : Relation.ReflTransGen (Caller.Step w cfg call) k₀ k) (hphase : k.phase = .attempt s)
    (h : ElectsItself cfg k.state call s f) :
    ∀ gn, gn ∈ call.seedExcludeTupleList ∨ gn ∈ s.excludeTupleList →
      ¬gn.InsideOf k.state.myPos.positions k.state.myPos.positions →
        ¬gn.InsideOf k.state.myPos.positions f.positions := by
  have hcovered : k.Covered call := covered_of_run hrun (by
    rw [Caller.Covered, hinit]
    rintro s ⟨⟩)
  have hcovers := hcovered s (by rw [hphase]; rfl)
  rintro gn (hgn | hgn) hme
  · exact hcovers.not_insideOf h (hcovers.seeds gn hgn) hme
  · exact hcovers.not_insideOf h hgn hme

/-! ## A node excluded inside another g-node -/

/-- The node at `[p, q]` of two levels of four, where service 0 is mandatory. -/
def squarePeer (p q : UInt32) : PeerState Unit :=
  { mandatoryRelay with myPos := ⟨twoLevels, [p, q], rfl⟩ }

/-- The tuple of the node at `[2, 1]`. -/
def excludedNode : TupleGNode where
  topology := twoLevels
  top := 2
  positions := [2, 1]
  nonempty := by simp
  length_le := le_rfl
  inRange := checkPositions_eq_ok.mp
    (show checkPositions "" twoLevels 0 [2, 1] = .ok () from rfl)

/-- A call for the node closest to `[2, 1]`, but that one. -/
def excludingCall : ContactCall Unit where
  pId := ⟨0⟩
  xMacron := some ⟨twoLevels, [2, 1], excludedNode.inRange⟩
  request := ()
  excludeMyGnode := none
  seedExcludeTupleList := [excludedNode]

/-- The g-node 1 is elected at level 1, and inside it the next node along the ring. -/
theorem not_insideOf_of_elected_ring :
    ∃ (s : Search) (f : Naddr), ElectsItself ⟨100, 10⟩ (squarePeer 0 0) excludingCall s f ∧
      f.positions = [3, 1] ∧ ¬excludedNode.InsideOf [0, 0] f.positions := by
  have hrun : ∃ k s, Relation.ReflTransGen
      (Caller.Step (networkWorld Unit) ⟨100, 10⟩ excludingCall)
        ⟨squarePeer 0 0, .restart 0, [], []⟩ k ∧
      k.phase = .attempt s ∧ k.state = squarePeer 0 0 ∧
        ElectsItself ⟨100, 10⟩ (squarePeer 0 0) excludingCall s ⟨twoLevels, [3, 1], rfl⟩ := by
    refine ⟨_, _, Relation.ReflTransGen.refl.tail (.restart rfl rfl), rfl, rfl,
      .there (fun _ => true) 5 rfl rfl (c := ⟨twoLevels, [0, 1], rfl⟩) ⟨rfl, rfl⟩ ?_⟩
    have hnext : SameGnode 1 (squarePeer 0 1).myPos (squarePeer 3 1).myPos := ⟨rfl, rfl⟩
    exact .handOver (squarePeer 0 1) 2 (fun _ => true) rfl rfl hnext
      (.serve (squarePeer 3 1) 2 (fun _ => true) rfl rfl)
  obtain ⟨k, s, hsteps, hphase, hstate, helects⟩ := hrun
  have h := not_insideOf_of_elected rfl hsteps hphase (by rw [hstate]; exact helects) excludedNode
    (.inl List.mem_cons_self)
  rw [hstate] at h
  exact ⟨s, _, helects, rfl, h (by
    rintro ⟨hcontains, -⟩
    exact absurd (hcontains 0 (by decide)) (by decide))⟩

end Netsukuku
