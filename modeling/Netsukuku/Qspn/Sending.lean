import Mathlib
import Netsukuku.Qspn.Manager
import Netsukuku.Qspn.Reachable

/-!
# Messages a node builds

On a state satisfying the invariant the message builders cannot panic, and what they build can be
read off the state.

* `Sendable` — what the builders need of a path: a hop, and as many arcs as hops.
* `flagged` — a path with its pruning flags set; `flagged_spec` says what the flags are good for.
* `finalizeForSending_eq`, `prepareNewEtp_eq`, `prepareFullEtp_eq` — the builders, without failure.
* `reviseEtp_congr` — a receiver sees a message only through the paths that survive its revision.
* `revise_reply_eq_revise_full` — a receiver cannot tell the filtered reply from the full ETP.
-/

namespace Netsukuku

variable {F : Type}

/-! ## The pruning flags -/

/-- What the builders need of a path. -/
structure Sendable (p : EtpPath) : Prop where
  hops_ne_nil : p.hops ≠ []
  length_arcs : p.hops.length = p.arcs.length

lemma PathInv.sendable {levels : ℕ} {d : HCoord} {np : NodePath} (h : PathInv levels d np)
    {p : EtpPath} (hp : p.route = np.path.route) : Sendable p := by
  have hhops : p.hops = np.path.hops := congrArg Prod.fst hp
  have harcs : p.arcs = np.path.arcs := congrArg Prod.snd hp
  exact ⟨hhops ▸ h.hops_ne_nil, by rw [hhops, harcs, h.length_arcs]⟩

/-- Comparing prefixes that both paths have cannot fail. -/
lemma samePrefix_ok (best p : EtpPath) :
    ∀ k : ℕ, k ≤ best.hops.length → k ≤ best.arcs.length → k ≤ p.hops.length →
      k ≤ p.arcs.length → ∃ b, ∀ ε : Type, samePrefix (ε := ε) best p k = .ok b
  | 0, _, _, _, _ => ⟨true, fun _ => rfl⟩
  | k + 1, h₁, h₂, h₃, h₄ => by
      obtain ⟨b, hb⟩ := samePrefix_ok best p k (by omega) (by omega) (by omega) (by omega)
      have h₁' : k < best.hops.length := h₁
      have h₂' : k < best.arcs.length := h₂
      have h₃' : k < p.hops.length := h₃
      have h₄' : k < p.arcs.length := h₄
      cases b with
      | false => exact ⟨false, fun ε => by rw [samePrefix, hb ε]; rfl⟩
      | true =>
          refine ⟨decide (best.hops[k] = p.hops[k]) && decide (best.arcs[k] = p.arcs[k]),
            fun ε => ?_⟩
          rw [samePrefix, hb ε, Outcome.ok_bind]
          simp only [if_true, Outcome.index_of_lt h₁', Outcome.index_of_lt h₂',
            Outcome.index_of_lt h₃', Outcome.index_of_lt h₄', Outcome.ok_bind]

/-- One flag is decided without failure; above the destination it is set. -/
lemma MapInv.ignoreOutsideAt_ok {s : QspnState F} (hs : MapInv s) {p : EtpPath} (hp : Sendable p)
    (i : ℕ) : ∃ b, (∀ ε : Type, ignoreOutsideAt (ε := ε) s p (p.hops.getLast hp.hops_ne_nil).level i =
        .ok b) ∧ ((p.hops.getLast hp.hops_ne_nil).level < i → b = true) := by
  by_cases hlast : (p.hops.getLast hp.hops_ne_nil).level < i
  · exact ⟨true, fun ε => by rw [ignoreOutsideAt, if_pos hlast], fun _ => rfl⟩
  · obtain ⟨j, hj⟩ : ∃ j, p.hops.findIdx? (fun h => decide (i ≤ h.level)) = some j := by
      rw [← Option.isSome_iff_exists, List.findIdx?_isSome, List.any_eq_true]
      exact ⟨_, List.getLast_mem hp.hops_ne_nil, decide_eq_true (not_lt.mp hlast)⟩
    have hjlt : j < p.hops.length := (List.findIdx?_eq_some_iff_getElem.mp hj).1
    have hjlt' : j < p.arcs.length := hp.length_arcs ▸ hjlt
    cases hd : s.destination p.hops[j].level p.hops[j].pos with
    | none =>
        refine ⟨false, fun ε => ?_, fun h => absurd h hlast⟩
        simp only [ignoreOutsideAt, if_neg hlast, hj, Outcome.expect_some, Outcome.ok_bind,
          Outcome.index_of_lt hjlt, hd]
    | some d =>
        cases hbest : preferredExit s d p.arcs[j] with
        | none =>
            refine ⟨false, fun ε => ?_, fun h => absurd h hlast⟩
            simp only [ignoreOutsideAt, if_neg hlast, hj, Outcome.expect_some, Outcome.ok_bind,
              Outcome.index_of_lt hjlt, Outcome.index_of_lt hjlt', hd, hbest]
        | some best =>
            by_cases hlen : best.path.hops.length = j + 1
            · have hmem : best ∈ d.paths := (List.mem_filter.mp (Scan.firstMin_mem hbest)).1
              have hinv := (hs.dest p.hops[j] d hd).path best hmem
              obtain ⟨same, hsame⟩ := samePrefix_ok best.path p j
                (by omega) (by rw [← hinv.length_arcs]; omega) hjlt.le hjlt'.le
              refine ⟨!same, fun ε => ?_, fun h => absurd h hlast⟩
              simp only [ignoreOutsideAt, if_neg hlast, hj, Outcome.expect_some, Outcome.ok_bind,
                Outcome.index_of_lt hjlt, Outcome.index_of_lt hjlt', hd, hbest, if_pos hlen, hsame ε]
            · refine ⟨true, fun ε => ?_, fun _ => rfl⟩
              simp only [ignoreOutsideAt, if_neg hlast, hj, Outcome.expect_some, Outcome.ok_bind,
                Outcome.index_of_lt hjlt, Outcome.index_of_lt hjlt', hd, hbest, if_neg hlen]

/-- A path with its pruning flags set. -/
def flagged (s : QspnState F) (p : EtpPath) : EtpPath :=
  match setIgnoreOutsideForSending (ε := Empty) s p with
  | .ok p' => p'
  | .error _ => p

/-- What setting the flags does to a path: only the flags change, there is one per level, and the
levels above the destination are flagged. -/
structure Flags (levels : ℕ) (p p' : EtpPath) : Prop where
  route : p'.route = p.route
  fact : p'.cost = p.cost ∧ p'.fingerprint = p.fingerprint ∧ p'.nodesInside = p.nodesInside
  length : p'.ignoreOutside.length = levels
  above : ∀ last, p.hops.getLast? = some last → ∀ i, last.level < i → i < levels →
    p'.ignoreOutside[i]? = some true

/-- **Setting the flags never fails**, and does the same whatever the error type. -/
lemma MapInv.setIgnoreOutside_eq {s : QspnState F} (hs : MapInv s) {p : EtpPath} (hp : Sendable p)
    (ε : Type) :
    setIgnoreOutsideForSending (ε := ε) s p = .ok (flagged s p) ∧
      Flags s.levels p (flagged s p) := by
  have hlast := List.getLast?_eq_getLast_of_ne_nil hp.hops_ne_nil
  choose g hg habove using fun i => hs.ignoreOutsideAt_ok hp i
  have hrun : ∀ ε : Type, setIgnoreOutsideForSending (ε := ε) s p =
      .ok { p with ignoreOutside := false :: (List.range' 1 (s.levels - 1)).map g } := by
    intro ε
    rw [setIgnoreOutsideForSending, hlast, Outcome.expect_some, Outcome.ok_bind,
      Outcome.mapM_of_forall fun i _ => hg i ε]
    rfl
  have hflagged : flagged s p =
      { p with ignoreOutside := false :: (List.range' 1 (s.levels - 1)).map g } := by
    rw [flagged, hrun]
  have hpos := s.myNaddr.topology.levels_pos
  rw [hflagged]
  refine ⟨hrun ε, rfl, ⟨rfl, rfl, rfl⟩, ?_, fun last hl i hi hil => ?_⟩
  · simp only [List.length_cons, List.length_map, List.length_range']
    exact Nat.sub_add_cancel hpos
  · obtain ⟨i, rfl⟩ : ∃ k, i = k + 1 := ⟨i - 1, by omega⟩
    rw [hlast, Option.some.injEq] at hl
    rw [List.getElem?_cons_succ, List.getElem?_map, List.getElem?_range' (by omega), Option.map_some,
      habove _ (by rw [hl]; omega)]

/-- The flags of every level below the topology's top start with `false`. -/
lemma MapInv.finalizeForSending_eq {s : QspnState F} (hs : MapInv s) {paths : List EtpPath}
    (hp : ∀ p ∈ paths, Sendable p) (ε : Type) :
    finalizeForSending (ε := ε) s paths = .ok (paths.map (flagged s)) :=
  Outcome.mapM_of_forall fun p h => (hs.setIgnoreOutside_eq (hp p h) ε).1

/-! ## Whole messages -/

/-- The message with the node's own address, chain and sizes. -/
def ownEtp (s : QspnState F) (paths : List EtpPath) (hops : List HCoord) : EtpMessage :=
  ⟨s.myNaddr, s.myFingerprints, s.myNodesInside, hops, paths⟩

lemma mapM_expect_getElem? {α ε : Type} {l : List α} {n : ℕ} (h : l.length = n) (site : String) :
    (List.range n).mapM (fun i => (Outcome.expect site l[i]? : Outcome ε α)) = .ok l := by
  rw [Outcome.mapM_eq_ok, List.forall₂_iff_get]
  refine ⟨by simp [h], fun i _ hi => ?_⟩
  simp only [List.get_eq_getElem, List.getElem_range, List.getElem?_eq_getElem hi,
    Outcome.expect_some]

namespace MapInv

variable {s : QspnState F} (hs : MapInv s)
include hs

lemma prepareNewEtp_eq (paths : List EtpPath) (hops : List HCoord) (ε : Type) :
    prepareNewEtp (ε := ε) s paths hops = .ok (ownEtp s paths hops) := by
  rw [prepareNewEtp, mapM_expect_getElem? hs.chain.length, Outcome.ok_bind,
    mapM_expect_getElem? hs.length_nodesInside, Outcome.ok_bind]
  rfl

/-- A path listed at a level is a stored path to a g-node of that level. -/
lemma mem_allPathsAt {l : ℕ} {np : NodePath} (h : np ∈ s.allPathsAt l) :
    ∃ d : HCoord, d.level = l ∧ np ∈ s.storedAt d := by
  unfold QspnState.allPathsAt at h
  cases hm : s.destinations[l]? with
  | none =>
      rw [hm] at h
      cases h
  | some m =>
      rw [hm] at h
      obtain ⟨dest, hdest, hnp⟩ := List.mem_flatMap.mp h
      obtain ⟨pos, hpos⟩ := KeyedMap.mem_values.mp hdest
      exact ⟨⟨l, pos⟩, rfl, QspnState.mem_storedAt.mpr ⟨dest, hs.destination_of_mem hm hpos, hnp⟩⟩

lemma sendable_wire {l : ℕ} {np : NodePath} (h : np ∈ s.allPathsAt l) (c : Cost) :
    Sendable (prepareForSending np c) := by
  obtain ⟨d, _, hnp⟩ := hs.mem_allPathsAt h
  exact (hs.pathInv hnp).sendable rfl

/-- **The full ETP**: every stored path, flagged. -/
lemma prepareFullEtp_eq (ε : Type) :
    prepareFullEtp (ε := ε) s =
      .ok (ownEtp s ((wirePaths s (List.range s.levels)).map (flagged s)) []) := by
  have hp : ∀ p ∈ wirePaths s (List.range s.levels), Sendable p := by
    intro p hp
    obtain ⟨np, hnp, rfl⟩ := List.mem_map.mp hp
    obtain ⟨l, _, hnp⟩ := List.mem_flatMap.mp hnp
    exact hs.sendable_wire hnp _
  rw [prepareFullEtp, hs.finalizeForSending_eq hp, Outcome.ok_bind, hs.prepareNewEtp_eq]

/-- **The reply to a requester** at `b`: the stored paths of the levels from `b` up that do not
pass through it. -/
lemma handleInboundGetFullEtp_eq [Float64 F] (hboot : s.bootstrap = .complete) {arc : ArcId}
    (harc : s.containsArc arc = true) {r : Naddr} {b : HCoord}
    (hb : s.myNaddr.hcoord r = .ok (some b)) :
    handleInboundGetFullEtp s arc r = .ok (ownEtp s
      (((((List.range' b.level (s.levels - b.level)).flatMap s.allPathsAt).filter
        fun np => decide (b ∉ np.path.hops)).map fun np =>
          prepareForSending np (s.arcCost np.arc)).map (flagged s)) []) := by
  have hcomplete : s.isBootstrapComplete = true := decide_eq_true hboot
  have hp : ∀ p ∈ (((List.range' b.level (s.levels - b.level)).flatMap s.allPathsAt).filter
      fun np => decide (b ∉ np.path.hops)).map fun np => prepareForSending np (s.arcCost np.arc),
      Sendable p := by
    intro p hp
    obtain ⟨np, hnp, rfl⟩ := List.mem_map.mp hp
    obtain ⟨l, _, hnp⟩ := List.mem_flatMap.mp (List.mem_filter.mp hnp).1
    exact hs.sendable_wire hnp _
  simp only [handleInboundGetFullEtp, hcomplete, harc, Bool.not_true, Bool.false_eq_true, if_false,
    hb, Outcome.mapErr_ok, Outcome.ok_bind, hs.finalizeForSending_eq hp, hs.prepareNewEtp_eq]

end MapInv

/-! ## What a receiver sees -/

/-- A receiver sees the paths of a message only through those that survive its revision. -/
lemma reviseEtp_congr {me : Naddr} {m : EtpMessage} {paths : List EtpPath} {arc : ArcId}
    (hlen : ∀ p ∈ m.paths, p.hops.length = p.arcs.length)
    (hlen' : ∀ p ∈ paths, p.hops.length = p.arcs.length)
    (h : ∀ v, me.hcoord m.nodeAddress = .ok (some v) →
      survivors me { m with paths } arc v = survivors me m arc v)
    (oldPeer : Option Naddr) (isFull : Bool) (existing : List NodePath) :
    reviseEtp me { m with paths } arc oldPeer isFull existing =
      reviseEtp me m arc oldPeer isFull existing := by
  have hgroup : ∀ (m' : EtpMessage) (v : HCoord), (∀ p ∈ m'.paths, p.hops.length = p.arcs.length) →
      (m'.paths.filter fun p => !(p.ignoreOutside[v.level]?.getD false)).mapM (groupPath v arc) =
        .ok ((m'.paths.filter fun p => !(p.ignoreOutside[v.level]?.getD false)).map
          (groupedPath v arc)) := by
    intro m' v hm'
    exact Outcome.mapM_of_forall fun p hp => groupPath_eq v arc (hm' p (List.mem_filter.mp hp).1)
  unfold reviseEtp
  simp only
  split_ifs
  · rfl
  · cases hv : me.hcoord m.nodeAddress with
    | error e => cases e <;> rfl
    | ok o =>
        cases o with
        | none => rfl
        | some v =>
            simp only [Outcome.mapErr_ok, Outcome.ok_bind]
            split_ifs
            · rfl
            · have hpaths := hgroup { m with paths } v hlen'
              have hsurv := h v hv
              unfold survivors at hsurv
              simp only at hpaths hsurv
              rw [hpaths, hgroup m v hlen, Outcome.ok_bind, Outcome.ok_bind, hsurv]
              rfl

/-- Two addresses of one topology diverge at the same level seen from either side. -/
lemma Naddr.hcoord_symm {a b : Naddr} {v w : HCoord} (hv : a.hcoord b = .ok (some v))
    (hw : b.hcoord a = .ok (some w)) : v.level = w.level := by
  obtain ⟨_, _, hvpos, hvne, hvup⟩ := Naddr.hcoord_eq_some.mp hv
  obtain ⟨_, _, hwpos, hwne, hwup⟩ := Naddr.hcoord_eq_some.mp hw
  rcases lt_trichotomy v.level w.level with hlt | heq | hgt
  · exact absurd ((hvup w.level hlt).symm.trans hwpos) hwne
  · exact heq
  · exact absurd ((hwup v.level hgt).symm.trans hvpos) hvne

/-- The grouping rule cannot hide a hop of the sender's level. -/
lemma mem_groupHops_of_level {v g : HCoord} {hops : List HCoord} (hg : g ∈ hops)
    (hlevel : v.level ≤ g.level) : g ∈ groupHops v hops := by
  refine List.mem_cons_of_mem v ?_
  rw [← List.takeWhile_append_dropWhile (p := fun h : HCoord => decide (h.level < v.level))
    (l := hops)] at hg
  rcases List.mem_append.mp hg with hg | hg
  · have := List.mem_takeWhile_imp hg
    simp only [decide_eq_true_eq] at this
    omega
  · exact hg

/-- A path is kept by a receiver at `r` that sees the sender as `v`. -/
def keptBy (r : Naddr) (v : HCoord) (arc : ArcId) (p : EtpPath) : Bool :=
  !(groupedPath v arc p).hops.any (onMe r) && !(p.ignoreOutside[v.level]?.getD false)

lemma survivors_eq_filter (r : Naddr) (m : EtpMessage) (arc : ArcId) (v : HCoord) :
    survivors r m arc v = (m.paths.filter (keptBy r v arc)).map (groupedPath v arc) := by
  rw [survivors, List.filter_map, List.filter_filter]
  rfl

namespace MapInv

variable {s : QspnState F} (hs : MapInv s)
include hs

/-- A receiver drops the paths of levels below the divergence: their flag there is set. -/
lemma not_keptBy_of_lt {r : Naddr} {v : HCoord} {l : ℕ} (hl : l < v.level) (hv : v.level < s.levels)
    {np : NodePath} (hnp : np ∈ s.allPathsAt l) (arc : ArcId) :
    keptBy r v arc (flagged s (prepareForSending np (s.arcCost np.arc))) = false := by
  obtain ⟨d, hd, hstored⟩ := hs.mem_allPathsAt hnp
  have hflags := (hs.setIgnoreOutside_eq (hs.sendable_wire hnp (s.arcCost np.arc)) Empty).2
  have hset := hflags.above d (hs.pathInv hstored).last v.level (by omega) hv
  rw [keptBy, hset]
  simp

/-- A receiver drops the paths that pass through its own coordinate. -/
lemma not_keptBy_of_mem {r : Naddr} {v b : HCoord} (hlevel : v.level = b.level)
    (hb : r.pos b.level = some b.pos) {l : ℕ} {np : NodePath} (hnp : np ∈ s.allPathsAt l)
    (hmem : b ∈ np.path.hops) (arc : ArcId) :
    keptBy r v arc (flagged s (prepareForSending np (s.arcCost np.arc))) = false := by
  have hroute := (hs.setIgnoreOutside_eq (hs.sendable_wire hnp (s.arcCost np.arc)) Empty).2.route
  have hhops : (flagged s (prepareForSending np (s.arcCost np.arc))).hops = np.path.hops :=
    congrArg Prod.fst hroute
  have hon : (groupedPath v arc
      (flagged s (prepareForSending np (s.arcCost np.arc)))).hops.any (onMe r) = true := by
    rw [groupedPath_hops, hhops, List.any_eq_true]
    exact ⟨b, mem_groupHops_of_level hmem hlevel.le, decide_eq_true hb⟩
  rw [keptBy, hon]
  rfl

/-- **What a receiver at `b` keeps of the full ETP is what it keeps of the filtered one.** -/
lemma filter_keptBy {r : Naddr} {v b : HCoord} (hlevel : v.level = b.level)
    (hlt : b.level < s.levels) (hb : r.pos b.level = some b.pos) (arc : ArcId) :
    (((List.range s.levels).flatMap s.allPathsAt).filter fun np =>
        keptBy r v arc (flagged s (prepareForSending np (s.arcCost np.arc)))) =
      (((List.range' b.level (s.levels - b.level)).flatMap s.allPathsAt).filter fun np =>
        decide (b ∉ np.path.hops)).filter fun np =>
          keptBy r v arc (flagged s (prepareForSending np (s.arcCost np.arc))) := by
  have hsplit : List.range s.levels =
      List.range b.level ++ List.range' b.level (s.levels - b.level) := by
    have happ := List.range'_append_1 (s := 0) (m := b.level) (n := s.levels - b.level)
    rw [Nat.zero_add, Nat.add_sub_cancel' hlt.le] at happ
    rw [List.range_eq_range', List.range_eq_range', happ]
  rw [hsplit, List.flatMap_append, List.filter_append, List.filter_filter]
  have hlow : ((List.range b.level).flatMap s.allPathsAt).filter (fun np =>
      keptBy r v arc (flagged s (prepareForSending np (s.arcCost np.arc)))) = [] := by
    rw [List.filter_eq_nil_iff]
    intro np hnp
    obtain ⟨l, hl, hnp⟩ := List.mem_flatMap.mp hnp
    rw [hs.not_keptBy_of_lt (by rw [hlevel]; exact List.mem_range.mp hl) (hlevel ▸ hlt) hnp arc]
    exact Bool.false_ne_true
  rw [hlow, List.nil_append]
  refine List.filter_congr fun np hnp => ?_
  obtain ⟨l, _, hnp⟩ := List.mem_flatMap.mp hnp
  by_cases hmem : b ∈ np.path.hops
  · rw [hs.not_keptBy_of_mem hlevel hb hnp hmem arc, Bool.false_and]
  · simp [hmem]

end MapInv

/-- **The two producers of a full ETP agree for the receiver.**  From a state satisfying the
invariant, a requester at another address of the topology revises the filtered reply and the
unfiltered broadcast to the same result, whatever its arc, the peer address it had recorded and
the paths it knows. -/
theorem revise_reply_eq_revise_full [Float64 F] {s : QspnState F} (hs : RepInv s)
    (hboot : s.bootstrap = .complete) {via : ArcId} (hvia : s.containsArc via = true) {r : Naddr}
    (htop : r.topology = s.myNaddr.topology) (hne : r ≠ s.myNaddr) :
    ∃ reply full, handleInboundGetFullEtp s via r = .ok reply ∧
      prepareFullEtp (ε := Empty) s = .ok full ∧
      ∀ arc oldPeer existing, reviseEtp r reply arc oldPeer true existing =
        reviseEtp r full arc oldPeer true existing := by
  obtain ⟨b, hb⟩ := Naddr.exists_hcoord_of_ne htop.symm hne.symm
  have hinv := hs.toMapInv
  refine ⟨_, _, hinv.handleInboundGetFullEtp_eq hboot hvia hb, hinv.prepareFullEtp_eq Empty,
    fun arc oldPeer existing => ?_⟩
  have hlen : ∀ l, ∀ np ∈ s.allPathsAt l,
      (flagged s (prepareForSending np (s.arcCost np.arc))).hops.length =
        (flagged s (prepareForSending np (s.arcCost np.arc))).arcs.length := by
    intro l np hnp
    have hsend := hinv.sendable_wire hnp (s.arcCost np.arc)
    have hroute := (hinv.setIgnoreOutside_eq hsend Empty).2.route
    rw [show (flagged s _).hops = _ from congrArg Prod.fst hroute,
      show (flagged s _).arcs = _ from congrArg Prod.snd hroute]
    exact hsend.length_arcs
  refine reviseEtp_congr (m := ownEtp s ((wirePaths s (List.range s.levels)).map (flagged s)) [])
    ?_ ?_ (fun v hv => ?_) oldPeer true existing
  · intro p hp
    obtain ⟨p₀, hp₀, rfl⟩ := List.mem_map.mp hp
    obtain ⟨np, hnp, rfl⟩ := List.mem_map.mp hp₀
    obtain ⟨l, _, hnp⟩ := List.mem_flatMap.mp hnp
    exact hlen l np hnp
  · intro p hp
    obtain ⟨p₀, hp₀, rfl⟩ := List.mem_map.mp hp
    obtain ⟨np, hnp, rfl⟩ := List.mem_map.mp hp₀
    obtain ⟨l, _, hnp⟩ := List.mem_flatMap.mp (List.mem_filter.mp hnp).1
    exact hlen l np hnp
  · obtain ⟨_, hblt, hbpos, _⟩ := Naddr.hcoord_eq_some.mp hb
    have hlevel : v.level = b.level := Naddr.hcoord_symm hv hb
    have hkept := hinv.filter_keptBy hlevel hblt hbpos arc
    simp only [survivors_eq_filter, ownEtp, wirePaths, List.filter_map, Function.comp_def]
    rw [hkept]

/-- The reply of the one-level node to its neighbour, against its full ETP. -/
theorem revise_reply_eq_revise_full_oneLevel :
    ∃ reply full, handleInboundGetFullEtp (oneLevelState (oneLevelRelayed (.finite 5))) ⟨1⟩
        (oneLevelNode 1) = .ok reply ∧
      prepareFullEtp (ε := Empty) (oneLevelState (oneLevelRelayed (.finite 5))) = .ok full ∧
      ∀ arc oldPeer existing, reviseEtp (oneLevelNode 1) reply arc oldPeer true existing =
        reviseEtp (oneLevelNode 1) full arc oldPeer true existing :=
  revise_reply_eq_revise_full oneLevelRelayed_repInv rfl rfl rfl (by decide)

end Netsukuku
