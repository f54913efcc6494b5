import Mathlib
import Netsukuku.Core.Contest
import Netsukuku.Qspn.Reachable

/-!
# Climbing the clusters

`update_clusters` climbs from level to level: the fingerprint and the size of the g-node above come
from those below and from the destinations of the level, which a hash map lists in any order.  The
sizes are sums and the claim that wins is a minimum, so neither depends on the order; who wins does
only where claims tie.

* `Fingerprint.champion_eq_winner` — the race of `construct` as a contest.
* `QspnState.siblings` — what the destinations of a level bring into it.
* `ClimbedTo` — every level is what the one below makes of it.
* `updateClusters_perm` — two climbs over the same destinations in different orders.
-/

namespace Netsukuku

open Contest

/-! ## The race of one level -/

namespace Fingerprint

variable {Id : Type} {siblings siblings' : List (Fingerprint Id)} {start : ℤ × Id × List ℤ}

/-- What a fingerprint enters the race with: its claim, its identity and its seed. -/
def entrant (f : Fingerprint Id) : ℤ × Id × List ℤ := (f.eldership, f.id, f.eldershipsSeed)

/-- A candidate deposes the champion. -/
def deposes (x w : ℤ × Id × List ℤ) : Bool := elderClaimOutranks x.1 w.1

/-- A real claim. -/
def isReal (x : ℤ × Id × List ℤ) : Bool := decide (x.1 ≠ -1)

lemma champion_eq_winner : champion siblings start = winner deposes start (siblings.map entrant) := by
  rw [winner, List.foldl_map]
  rfl

lemma not_deposes_of_null {x : ℤ × Id × List ℤ} (w : ℤ × Id × List ℤ) (h : isReal x = false) :
    deposes x w = false := by
  have hnull : x.1 = -1 := by simpa [isReal] using h
  simp [deposes, elderClaimOutranks, hnull]

/-- Among real claims the lower deposes the higher. -/
lemma deposes_of_real {x : ℤ × Id × List ℤ} (w : ℤ × Id × List ℤ) (h : isReal x = true) :
    deposes x w = decide (x.1 ≤ w.1) := by
  have hreal : x.1 ≠ -1 := by simpa [isReal] using h
  rw [deposes, elderClaimOutranks, if_neg hreal]

/-- Only real claims run. -/
lemma champion_eq_winner_real :
    champion siblings start = winner deposes start ((siblings.map entrant).filter isReal) := by
  rw [champion_eq_winner, winner_filter isReal fun x w h => not_deposes_of_null w h]

lemma champion_le : ∀ x ∈ start :: (siblings.map entrant).filter isReal,
    (champion siblings start).1 ≤ x.1 := by
  rw [champion_eq_winner_real]
  refine rank_winner_le (fun x hx w hbeats => ?_) fun x hx w hbeats => ?_
  · rw [deposes_of_real w (List.mem_filter.mp hx).2] at hbeats
    exact of_decide_eq_true hbeats
  · rw [deposes_of_real w (List.mem_filter.mp hx).2] at hbeats
    exact (not_le.mp (of_decide_eq_false hbeats)).le

variable (siblings start) in
lemma champion_mem : champion siblings start ∈ start :: (siblings.map entrant).filter isReal := by
  rw [champion_eq_winner_real]
  exact winner_mem

variable (siblings start) in
/-- **The claim that wins is the least**, whoever makes it. -/
lemma isLeast_champion : IsLeast
    {x : ℤ | x = start.1 ∨ x ≠ -1 ∧ x ∈ siblings.map eldership} (champion siblings start).1 := by
  constructor
  · rcases List.mem_cons.mp (champion_mem siblings start) with heq | hmem
    · exact .inl (congrArg Prod.fst heq)
    · obtain ⟨hmem, hreal⟩ := List.mem_filter.mp hmem
      obtain ⟨f, hf, heq⟩ := List.mem_map.mp hmem
      refine .inr ⟨by simpa [isReal] using hreal, List.mem_map.mpr ⟨f, hf, ?_⟩⟩
      exact congrArg Prod.fst heq
  · rintro x (rfl | ⟨hreal, hx⟩)
    · exact champion_le start List.mem_cons_self
    · obtain ⟨f, hf, rfl⟩ := List.mem_map.mp hx
      refine champion_le f.entrant (List.mem_cons_of_mem _ (List.mem_filter.mpr ⟨?_, ?_⟩))
      · exact List.mem_map_of_mem hf
      · exact decide_eq_true hreal

/-- Who starts with the null claim stays, whatever the others claim. -/
lemma champion_of_null (hnull : start.1 = -1) (hclaims : ∀ f ∈ siblings, -1 ≤ f.eldership) :
    champion siblings start = start := by
  rw [champion_eq_winner]
  refine winner_of_not_beats fun x hx => ?_
  obtain ⟨f, hf, rfl⟩ := List.mem_map.mp hx
  have hclaim := hclaims f hf
  show elderClaimOutranks f.eldership start.1 = false
  rw [hnull, elderClaimOutranks]
  split_ifs with heq
  · rfl
  · exact decide_eq_false (by omega)

/-- No two claims that compete are the same. -/
def NoTies (own : ℤ) (claims : List ℤ) : Prop :=
  own ≠ -1 → (own :: claims.filter fun x => decide (x ≠ -1)).Nodup

/-- **Without ties there is one champion**, in whatever order the others run. -/
lemma champion_perm (hperm : siblings.Perm siblings')
    (hclaims : ∀ f ∈ siblings, -1 ≤ f.eldership)
    (hties : NoTies start.1 (siblings.map eldership)) :
    champion siblings start = champion siblings' start := by
  by_cases hnull : start.1 = -1
  · rw [champion_of_null hnull hclaims,
      champion_of_null hnull fun f hf => hclaims f (hperm.mem_iff.mpr hf)]
  have hentrants := ((hperm.map entrant).filter isReal).cons start
  have hle : (champion siblings start).1 ≤ (champion siblings' start).1 :=
    champion_le _ (hentrants.mem_iff.mpr (champion_mem _ _))
  have hge : (champion siblings' start).1 ≤ (champion siblings start).1 :=
    champion_le _ (hentrants.mem_iff.mp (champion_mem _ _))
  have hnodup : ((start :: (siblings.map entrant).filter isReal).map Prod.fst).Nodup := by
    have := hties hnull
    rw [List.filter_map] at this
    rw [List.map_cons, List.filter_map, List.map_map]
    exact this
  exact List.inj_on_of_nodup_map hnodup (champion_mem _ _) (hentrants.mem_iff.mpr (champion_mem _ _))
    (le_antisymm hle hge)

/-- The claim a fingerprint races with. -/
def ownClaim (f : Fingerprint Id) (isNullEldership : Bool) : ℤ :=
  if isNullEldership then -1 else f.eldership

/-- What `construct` returned, taken apart. -/
lemma construct_eq_ok {f g : Fingerprint Id} {b : Bool} (h : f.construct siblings b = .ok g) :
    ∃ next rest, f.pendingElderships = next :: rest ∧
      g = ⟨(champion siblings (f.ownClaim b, f.id, f.eldershipsSeed)).2.1, f.level + 1,
        next.toNat, rest,
        (champion siblings (f.ownClaim b, f.id, f.eldershipsSeed)).1 ::
          (champion siblings (f.ownClaim b, f.id, f.eldershipsSeed)).2.2⟩ := by
  unfold construct at h
  cases hp : f.pendingElderships with
  | nil =>
      rw [hp] at h
      cases h
  | cons next rest =>
      rw [hp] at h
      exact ⟨next, rest, rfl, (Except.ok.inj h).symm⟩

end Fingerprint

variable {F : Type}

/-- One challenge ends with the challenger or with who was there. -/
lemma electFingerprint_eq_ok {w : Option Fp} {fp : Fp} {w' : Option Fp}
    (h : electFingerprint w fp = .ok w') : w' = some fp ∨ w' = w := by
  cases w with
  | none => exact .inl (Except.ok.inj h).symm
  | some w =>
      rw [electFingerprint] at h
      split_ifs at h
      · exact .inr (Except.ok.inj h).symm
      · split at h
        · exact .inl (Except.ok.inj h).symm
        · exact .inr (Except.ok.inj h).symm
        · exact .inr (Except.ok.inj h).symm
        · cases h

/-- Whoever wins is the fingerprint of a path. -/
lemma mem_of_winningFingerprint {paths : List NodePath} {w : Option Fp}
    (h : winningFingerprint paths = .ok w) :
    ∀ x, w = some x → ∃ np ∈ paths, np.path.fingerprint = x := by
  refine Outcome.foldlM_preserves
    (P := fun w => ∀ x, w = some x → ∃ np ∈ paths, np.path.fingerprint = x)
    (fun x hx => by cases hx) (fun w np w' hw hnp hrun => ?_) h
  rcases electFingerprint_eq_ok hrun with rfl | rfl
  · rintro x ⟨⟩
    exact ⟨np, hnp, rfl⟩
  · exact hw

/-- A destination evaluates to the fingerprint of one of its paths. -/
lemma Destination.evaluate_mem {dest : Destination} {arcCost : ArcId → Cost} {fp : Fp}
    {nn : UInt32} {i : ℕ} (h : dest.evaluate arcCost = .ok (fp, nn, i)) :
    ∃ np ∈ dest.paths, np.path.fingerprint = fp := by
  obtain ⟨_, -, h⟩ := Outcome.bind_eq_ok.mp h
  split_ifs at h
  · obtain ⟨best, hbest, h⟩ := Outcome.bind_eq_ok.mp h
    have hmem := Scan.firstMin_mem (Outcome.expect_eq_ok.mp hbest)
    cases h
    exact ⟨best.1, (List.mem_zipIdx' hmem).2 ▸ List.getElem_mem _, rfl⟩
  · obtain ⟨winner?, hwinner, h⟩ := Outcome.bind_eq_ok.mp h
    obtain ⟨winner, hsome, h⟩ := Outcome.bind_eq_ok.mp h
    obtain ⟨best, hbest, h⟩ := Outcome.bind_eq_ok.mp h
    cases h
    have hsome' := Outcome.expect_eq_ok.mp hsome
    exact mem_of_winningFingerprint hwinner fp hsome'

namespace QspnState

/-! ## One level -/

/-- Fingerprint and size of a destination, if it evaluates. -/
def evaluated (s : QspnState F) (d : Destination) : Option (Fp × UInt32) :=
  match d.evaluate s.arcCost with
  | .ok (fp, nn, _) => some (fp, nn)
  | .error _ => none

/-- What the destinations of a level bring into the race, in iteration order. -/
def siblings (s : QspnState F) (level : ℕ) : List (Fp × UInt32) :=
  ((s.destinations[level]?.map KeyedMap.values).getD []).filterMap s.evaluated

/-- The size a destination adds; below level 1 it is a single node. -/
def sizeOf (level : ℕ) (e : Fp × UInt32) : ℕ := if level = 0 then 1 else e.2.toNat

/-- The node's own position at the level is virtual. -/
def virtualAt (s : QspnState F) (level : ℕ) : Bool := (s.myNaddr.isVirtualAt level).getD false

/-- The g-node of level `level + 1` is what the one below makes of the level. -/
structure Climbed (s : QspnState F) (level : ℕ) (f g : Fp) (m n : UInt32) : Prop where
  below : s.myFingerprints[level]? = some f
  above : s.myFingerprints[level + 1]? = some g
  construct : f.construct ((s.siblings level).map Prod.fst) (s.virtualAt level) = .ok g
  sizeBelow : s.myNodesInside[level]? = some m
  sizeAbove : s.myNodesInside[level + 1]? = some n
  size : n = UInt32.ofNat
    (min (m.toNat + ((s.siblings level).map (sizeOf level)).sum) (2 ^ 32 - 1))

/-- The same for all levels below `k`. -/
def ClimbedTo (s : QspnState F) (k : ℕ) : Prop :=
  ∀ level < k, ∃ f g m n, s.Climbed level f g m n

variable {s s' t : QspnState F}

/-- What the sum over a level returned. -/
lemma foldlM_clusterSum {level : ℕ} {l : List Destination} {acc r : List Fp × ℕ}
    (h : l.foldlM (s.clusterSum level) acc = .ok r) :
    r.1 = acc.1 ++ (l.filterMap s.evaluated).map Prod.fst ∧
      r.2 = acc.2 + ((l.filterMap s.evaluated).map (sizeOf level)).sum := by
  induction l generalizing acc with
  | nil =>
      cases h
      simp
  | cons d l ih =>
      rw [List.foldlM_cons] at h
      obtain ⟨acc', hstep, h⟩ := Outcome.bind_eq_ok.mp h
      obtain ⟨⟨fp, nn, i⟩, heval, hstep⟩ := Outcome.bind_eq_ok.mp hstep
      obtain ⟨total, htotal, hstep⟩ := Outcome.bind_eq_ok.mp hstep
      cases hstep
      obtain ⟨hfps, hsum⟩ := ih h
      have hd : s.evaluated d = some (fp, nn) := by
        rw [evaluated, Outcome.mapErr_eq_ok.mp heval]
      have htotal' : total = acc.2 + sizeOf level (fp, nn) := Outcome.checkedAdd_eq_ok htotal
      rw [List.filterMap_cons_some hd]
      refine ⟨by simp [hfps], ?_⟩
      rw [hsum, htotal', List.map_cons, List.sum_cons, Nat.add_assoc]

/-- What one level of the climb returned. -/
lemma clusterLevel_eq_ok {level : ℕ} {events : List QspnEvent}
    (h : s.clusterLevel (level + 1) = .ok (s', events)) :
    ∃ f g m oldFp oldNn, s.myFingerprints[level]? = some f ∧
      f.construct ((s.siblings level).map Prod.fst) (s.virtualAt level) = .ok g ∧
      s.myNodesInside[level]? = some m ∧ s.myFingerprints[level + 1]? = some oldFp ∧
      s.myNodesInside[level + 1]? = some oldNn ∧
      s' = { s with
        myFingerprints := s.myFingerprints.set (level + 1) g
        myNodesInside := s.myNodesInside.set (level + 1) (UInt32.ofNat
          (min (m.toNat + ((s.siblings level).map (sizeOf level)).sum) (2 ^ 32 - 1))) } ∧
      events = (if g.identityEq oldFp then [] else [.changedFingerprint (level + 1)]) ++
        (if UInt32.ofNat (min (m.toNat + ((s.siblings level).map (sizeOf level)).sum)
          (2 ^ 32 - 1)) = oldNn then [] else [.changedNodesInside (level + 1)]) := by
  unfold clusterLevel at h
  obtain ⟨children, hchildren, h⟩ := Outcome.bind_eq_ok.mp h
  obtain ⟨⟨fpSet, nnTot⟩, hfold, h⟩ := Outcome.bind_eq_ok.mp h
  obtain ⟨f, hf, h⟩ := Outcome.bind_eq_ok.mp h
  obtain ⟨g, hg, h⟩ := Outcome.bind_eq_ok.mp h
  obtain ⟨oldFp, holdFp, h⟩ := Outcome.bind_eq_ok.mp h
  obtain ⟨m, hm, h⟩ := Outcome.bind_eq_ok.mp h
  obtain ⟨total, htotal, h⟩ := Outcome.bind_eq_ok.mp h
  obtain ⟨oldNn, holdNn, h⟩ := Outcome.bind_eq_ok.mp h
  rw [Outcome.index_eq_ok] at hchildren hf holdFp hm holdNn
  obtain ⟨hfps, hsum⟩ := foldlM_clusterSum hfold
  have hsiblings : s.siblings level = children.values.filterMap s.evaluated := by
    rw [siblings, show s.destinations[level]? = some children from hchildren]
    rfl
  have htotal' : total = m.toNat + nnTot := Outcome.checkedAdd_eq_ok htotal
  simp only [List.nil_append, Nat.zero_add] at hfps hsum
  rw [← hsiblings] at hfps hsum
  rw [htotal', hsum] at h
  cases h
  exact ⟨f, g, m, oldFp, oldNn, hf, hfps ▸ Outcome.mapErr_eq_ok.mp hg, hm, holdFp, holdNn, rfl, rfl⟩

/-! ## All levels -/

lemma siblings_of_sameMap (h : MapInv.SameMap s t) (level : ℕ) : t.siblings level = s.siblings level := by
  have hcost : t.arcCost = s.arcCost := by
    funext a
    rw [arcCost, h.arcs, arcCost]
  have heval : t.evaluated = s.evaluated := by
    funext d
    rw [evaluated, hcost, evaluated]
  rw [siblings, h.destinations, heval, siblings]

lemma virtualAt_of_sameMap (h : MapInv.SameMap s t) (level : ℕ) :
    t.virtualAt level = s.virtualAt level := by
  rw [virtualAt, h.myNaddr, virtualAt]

/-- Two states of one climb: the map is the same, and so is what the climb starts from. -/
structure SameStart (s s' : QspnState F) : Prop where
  map : MapInv.SameMap s s'
  fingerprint : s'.myFingerprints[0]? = s.myFingerprints[0]?
  size : s'.myNodesInside[0]? = s.myNodesInside[0]?

/-- One level of the climb. -/
lemma ClimbedTo.level {k : ℕ} {events : List QspnEvent} (h : s.ClimbedTo k)
    (hrun : s.clusterLevel (k + 1) = .ok (s', events)) : s'.ClimbedTo (k + 1) ∧ SameStart s s' := by
  obtain ⟨f, g, m, oldFp, oldNn, hf, hg, hm, holdFp, holdNn, rfl, -⟩ := clusterLevel_eq_ok hrun
  have hmap : MapInv.SameMap s { s with
      myFingerprints := s.myFingerprints.set (k + 1) g
      myNodesInside := s.myNodesInside.set (k + 1) (UInt32.ofNat
        (min (m.toNat + ((s.siblings k).map (sizeOf k)).sum) (2 ^ 32 - 1))) } :=
    ⟨rfl, rfl, rfl, rfl, rfl⟩
  have hfps : k + 1 < s.myFingerprints.length := (List.getElem?_eq_some_iff.mp holdFp).1
  have hnns : k + 1 < s.myNodesInside.length := (List.getElem?_eq_some_iff.mp holdNn).1
  refine ⟨fun level hlevel => ?_, hmap, ?_, ?_⟩
  · rcases Nat.lt_succ_iff_lt_or_eq.mp hlevel with hlt | rfl
    · -- the levels below are not touched
      obtain ⟨f', g', m', n', hc⟩ := h level hlt
      refine ⟨f', g', m', n', ?_, ?_, ?_, ?_, ?_, ?_⟩
      · rw [List.getElem?_set_ne (by omega)]
        exact hc.below
      · rw [List.getElem?_set_ne (by omega)]
        exact hc.above
      · rw [siblings_of_sameMap hmap, virtualAt_of_sameMap hmap]
        exact hc.construct
      · rw [List.getElem?_set_ne (by omega)]
        exact hc.sizeBelow
      · rw [List.getElem?_set_ne (by omega)]
        exact hc.sizeAbove
      · rw [siblings_of_sameMap hmap]
        exact hc.size
    · refine ⟨f, g, m, _, ?_, List.getElem?_set_self hfps, ?_, ?_, List.getElem?_set_self hnns, ?_⟩
      · rw [List.getElem?_set_ne (by omega)]
        exact hf
      · rw [siblings_of_sameMap hmap, virtualAt_of_sameMap hmap]
        exact hg
      · rw [List.getElem?_set_ne (by omega)]
        exact hm
      · rw [siblings_of_sameMap hmap]
  · exact List.getElem?_set_ne (Nat.succ_ne_zero k)
  · exact List.getElem?_set_ne (Nat.succ_ne_zero k)

lemma SameStart.trans {s₁ s₂ : QspnState F} (h : SameStart s s₁) (h' : SameStart s₁ s₂) :
    SameStart s s₂ :=
  ⟨h.map.trans h'.map, h'.fingerprint.trans h.fingerprint, h'.size.trans h.size⟩

/-- The loop climbs level by level. -/
lemma ClimbedTo.loop {n : ℕ} : ∀ {k : ℕ} {s s' : QspnState F} {bs : List (List QspnEvent)},
    s.ClimbedTo k → Outcome.loop clusterStep s (List.range' (k + 1) n) = (s', .ok bs) →
      s'.ClimbedTo (k + n) ∧ SameStart s s' := by
  induction n with
  | zero =>
      intro k s s' bs h hrun
      cases hrun
      exact ⟨h, ⟨rfl, rfl, rfl, rfl, rfl⟩, rfl, rfl⟩
  | succ n ih =>
      intro k s s' bs h hrun
      rw [List.range'_succ] at hrun
      obtain ⟨s₁, events, bs', hstep, hrest, -⟩ := Outcome.loop_cons_eq_ok hrun
      have hlevel : s.clusterLevel (k + 1) = .ok (s₁, events) := by
        unfold clusterStep at hstep
        split at hstep
        · cases hstep
        · next heq =>
            cases hstep
            exact heq
      obtain ⟨hclimbed, hstart⟩ := h.level hlevel
      obtain ⟨hclimbed', hstart'⟩ := ih hclimbed hrest
      rw [show k + (n + 1) = k + 1 + n by omega]
      exact ⟨hclimbed', hstart.trans hstart'⟩

/-- **A climb that returned leaves every level made of the one below.** -/
lemma climbed_of_updateClusters {events : List QspnEvent}
    (h : s.updateClusters = (s', .ok events)) : s'.ClimbedTo s.levels ∧ SameStart s s' := by
  rw [updateClusters] at h
  rcases hloop : Outcome.loop clusterStep s (List.range' 1 s.levels) with ⟨s₁, e | bs⟩
  · rw [hloop] at h
    cases h
  · rw [hloop] at h
    cases h
    have hnone : s.ClimbedTo 0 := fun level hlevel => absurd hlevel (Nat.not_lt_zero level)
    simpa using hnone.loop hloop

/-- Climbing again finds every level as it is. -/
lemma Climbed.fixed (hs : MapInv s) {level : ℕ} {f g : Fp} {m n : UInt32}
    (h : s.Climbed level f g m n) (hlevel : level < s.levels) :
    s.clusterLevel (level + 1) = .ok (s, []) := by
  obtain ⟨s₁, events, hrun, -, -⟩ := hs.clusterLevel_ok (Nat.succ_pos level) hlevel
  obtain ⟨f', g', m', oldFp, oldNn, hf, hg, hm, holdFp, holdNn, rfl, rfl⟩ := clusterLevel_eq_ok hrun
  obtain rfl := Option.some.inj (h.below.symm.trans hf)
  obtain rfl := Except.ok.inj (h.construct.symm.trans hg)
  obtain rfl := Option.some.inj (h.above.symm.trans holdFp)
  obtain rfl := Option.some.inj (h.sizeBelow.symm.trans hm)
  obtain rfl := Option.some.inj (h.sizeAbove.symm.trans holdNn)
  obtain ⟨hlt, hget⟩ := List.getElem?_eq_some_iff.mp holdFp
  obtain ⟨hlt', hget'⟩ := List.getElem?_eq_some_iff.mp holdNn
  have hfps : s.myFingerprints.set (level + 1) g = s.myFingerprints := by
    rw [← hget, List.set_getElem_self]
  have hnns : s.myNodesInside.set (level + 1) n = s.myNodesInside := by
    rw [← hget', List.set_getElem_self]
  rw [hrun, ← h.size, hfps, hnns, Fingerprint.identityEq_self, if_pos rfl, if_pos rfl]
  rfl

/-- **A second climb changes nothing** and has nothing to tell. -/
lemma ClimbedTo.updateClusters (hs : MapInv s) (h : s.ClimbedTo s.levels) :
    s.updateClusters = (s, .ok []) := by
  have hloop : ∀ l : List ℕ, (∀ i ∈ l, s.clusterStep i = (s, .ok [])) →
      Outcome.loop clusterStep s l = (s, .ok (l.map fun _ => [])) := by
    intro l
    induction l with
    | nil => exact fun _ => rfl
    | cons i l ih =>
        intro hl
        rw [Outcome.loop, hl i List.mem_cons_self]
        dsimp only
        rw [ih fun j hj => hl j (List.mem_cons_of_mem i hj)]
        rfl
  have hsteps : ∀ i ∈ List.range' 1 s.levels, s.clusterStep i = (s, .ok []) := by
    intro i hi
    rw [List.mem_range'_1] at hi
    obtain ⟨level, rfl⟩ : ∃ level, i = level + 1 := ⟨i - 1, by omega⟩
    obtain ⟨f, g, m, n, hc⟩ := h level (by omega)
    rw [clusterStep, hc.fixed hs (by omega)]
  have hflat : ∀ l : List ℕ, (l.map fun _ => ([] : List QspnEvent)).flatten = [] := by
    intro l
    induction l with
    | nil => rfl
    | cons i l ih => exact ih
  rw [QspnState.updateClusters, hloop _ hsteps]
  exact congrArg (fun events => (s, Except.ok events)) (hflat _)

/-! ## Two orders -/

/-- The same state, whose destination maps are listed in another order. -/
structure Reordered (s t : QspnState F) : Prop where
  myNaddr : t.myNaddr = s.myNaddr
  myFingerprints : t.myFingerprints = s.myFingerprints
  myNodesInside : t.myNodesInside = s.myNodesInside
  arcs : t.arcs = s.arcs
  config : t.config = s.config
  bootstrap : t.bootstrap = s.bootstrap
  destinations : List.Forall₂ (fun m m' => m.entries.Perm m'.entries) s.destinations t.destinations

lemma Reordered.levels (h : Reordered s t) : t.levels = s.levels := by
  rw [QspnState.levels, h.myNaddr, QspnState.levels]

lemma Reordered.destination (h : Reordered s t) (level : ℕ) (pos : UInt32) :
    t.destination level pos = s.destination level pos := by
  have hlevel := (List.forall₂_iff_get.mp h.destinations)
  rw [QspnState.destination, QspnState.destination]
  by_cases hlt : level < s.destinations.length
  · have hlt' : level < t.destinations.length := hlevel.1 ▸ hlt
    rw [List.getElem?_eq_getElem hlt, List.getElem?_eq_getElem hlt', Option.bind_some,
      Option.bind_some]
    have hperm : s.destinations[level].entries.Perm t.destinations[level].entries :=
      hlevel.2 level hlt hlt'
    exact KeyedMap.get?_congr (fun _ => hperm.symm.mem_iff) pos
  · have hge := not_lt.mp hlt
    rw [List.getElem?_eq_none hge, List.getElem?_eq_none (le_of_eq_of_le hlevel.1.symm hge)]

lemma Reordered.mapInv (h : Reordered s t) (hs : MapInv s) : MapInv t where
  length_destinations := by
    rw [← (List.forall₂_iff_get.mp h.destinations).1, h.levels, hs.length_destinations]
  dest d dest hd := by
    rw [h.levels, h.config]
    rw [h.destination] at hd
    exact hs.dest d dest hd
  chain := by
    rw [h.levels, h.myFingerprints]
    exact hs.chain
  length_nodesInside := by rw [h.levels, h.myNodesInside, hs.length_nodesInside]
  peer arc peer hp := by
    rw [peerNaddr, h.arcs] at hp
    rw [h.myNaddr]
    exact hs.peer arc peer hp

/-- The same siblings, in another order. -/
lemma Reordered.siblings (h : Reordered s t) (level : ℕ) :
    (s.siblings level).Perm (t.siblings level) := by
  have hcost : t.arcCost = s.arcCost := by
    funext a
    rw [arcCost, h.arcs, arcCost]
  have heval : t.evaluated = s.evaluated := by
    funext d
    rw [evaluated, hcost, evaluated]
  have hlevel := (List.forall₂_iff_get.mp h.destinations)
  rw [QspnState.siblings, QspnState.siblings, heval]
  refine List.Perm.filterMap _ ?_
  by_cases hlt : level < s.destinations.length
  · have hlt' : level < t.destinations.length := hlevel.1 ▸ hlt
    rw [List.getElem?_eq_getElem hlt, List.getElem?_eq_getElem hlt']
    exact (hlevel.2 level hlt hlt').map Prod.snd
  · have hge := not_lt.mp hlt
    rw [List.getElem?_eq_none hge, List.getElem?_eq_none (le_of_eq_of_le hlevel.1.symm hge)]

/-- The claims that run against the node's own at a level. -/
def siblingClaims (s : QspnState F) (level : ℕ) : List ℤ :=
  (s.siblings level).map fun e => e.1.eldership

/-- Every stored claim is a `u32` or the null claim: the type holds no other. -/
def ClaimsValid (s : QspnState F) : Prop :=
  ∀ d, ∀ np ∈ s.storedAt d, -1 ≤ np.path.fingerprint.eldership

/-- A destination evaluates to the fingerprint of one of its paths. -/
lemma evaluated_mem (hs : MapInv s) {level : ℕ} {e : Fp × UInt32} (he : e ∈ s.siblings level) :
    ∃ d, ∃ np ∈ s.storedAt d, np.path.fingerprint = e.1 := by
  obtain ⟨dest, hdest, heval⟩ := List.mem_filterMap.mp he
  cases hm : s.destinations[level]? with
  | none =>
      rw [hm] at hdest
      exact absurd hdest List.not_mem_nil
  | some m =>
      rw [hm] at hdest
      obtain ⟨pos, hpos⟩ := KeyedMap.mem_values.mp hdest
      have hd := hs.destination_of_mem hm hpos
      have hinv := hs.dest ⟨level, pos⟩ dest hd
      unfold evaluated at heval
      split at heval
      · next fp nn i hrun =>
          cases heval
          obtain ⟨np, hnp, hfp⟩ := Destination.evaluate_mem hrun
          exact ⟨⟨level, pos⟩, np, mem_storedAt.mpr ⟨dest, hd, hnp⟩, hfp⟩
      · cases heval

/-- Two fingerprints that differ at most in who won below: level, claim and pending claims are
the same. -/
def SameClaims (f g : Fp) : Prop :=
  f.level = g.level ∧ f.eldership = g.eldership ∧ f.pendingElderships = g.pendingElderships

/-- Two climbs over the same destinations in different orders, level by level: the sizes agree,
and the fingerprints agree in everything but who won below. -/
lemma sameClaims_of_climbed {s' t' : QspnState F} (hst : Reordered s t)
    (hs' : SameStart s s') (ht' : SameStart t t') (hcs : s'.ClimbedTo s.levels)
    (hct : t'.ClimbedTo s.levels) :
    ∀ level < s.levels, ∀ f g f' g' m n m' n', s'.Climbed level f g m n →
      t'.Climbed level f' g' m' n' →
      (SameClaims f f' ∧ m = m') ∧ SameClaims g g' ∧ n = n' := by
  have hsize : ∀ level, ((s'.siblings level).map (sizeOf level)).sum
      = ((t'.siblings level).map (sizeOf level)).sum := by
    intro level
    rw [siblings_of_sameMap hs'.map, siblings_of_sameMap ht'.map]
    exact ((hst.siblings level).map _).sum_eq
  have habove : ∀ {level f g f' g' m n m' n'}, s'.Climbed level f g m n →
      t'.Climbed level f' g' m' n' → SameClaims f f' ∧ m = m' → SameClaims g g' ∧ n = n' := by
    rintro level f g f' g' m n m' n' hc hc' ⟨⟨hlevel, hclaim, hpending⟩, rfl⟩
    obtain ⟨next, rest, hp, rfl⟩ := Fingerprint.construct_eq_ok hc.construct
    obtain ⟨next', rest', hp', rfl⟩ := Fingerprint.construct_eq_ok hc'.construct
    obtain ⟨rfl, rfl⟩ := List.cons.inj (hp.symm.trans (hpending.trans hp'))
    refine ⟨⟨congrArg (· + 1) hlevel, rfl, rfl⟩, ?_⟩
    rw [hc.size, hc'.size, hsize]
  intro level
  induction level with
  | zero =>
      intro _ f g f' g' m n m' n' hc hc'
      have hf : f = f' := by
        have := hc.below
        rw [hs'.fingerprint, ← hst.myFingerprints, ← ht'.fingerprint, hc'.below] at this
        exact (Option.some.inj this).symm
      have hm : m = m' := by
        have := hc.sizeBelow
        rw [hs'.size, ← hst.myNodesInside, ← ht'.size, hc'.sizeBelow] at this
        exact (Option.some.inj this).symm
      have hbelow : SameClaims f f' ∧ m = m' := ⟨⟨by rw [hf], by rw [hf], by rw [hf]⟩, hm⟩
      exact ⟨hbelow, habove hc hc' hbelow⟩
  | succ level ih =>
      intro hlt f g f' g' m n m' n' hc hc'
      have hlt' : level < s.levels := (Nat.lt_succ_self level).trans hlt
      obtain ⟨f₀, g₀, m₀, n₀, hc₀⟩ := hcs level hlt'
      obtain ⟨f₀', g₀', m₀', n₀', hc₀'⟩ := hct level hlt'
      obtain ⟨-, hbelow⟩ := ih hlt' _ _ _ _ _ _ _ _ hc₀ hc₀'
      -- what is above one level is below the next
      obtain rfl := Option.some.inj (hc₀.above.symm.trans hc.below)
      obtain rfl := Option.some.inj (hc₀'.above.symm.trans hc'.below)
      obtain rfl := Option.some.inj (hc₀.sizeAbove.symm.trans hc.sizeBelow)
      obtain rfl := Option.some.inj (hc₀'.sizeAbove.symm.trans hc'.sizeBelow)
      exact ⟨hbelow, habove hc hc' hbelow⟩

/-- The siblings' claims are a `u32` or the null claim, as those stored. -/
lemma ClaimsValid.siblings (hclaims : s.ClaimsValid) (hs : MapInv s) {level : ℕ} :
    ∀ f ∈ (s.siblings level).map Prod.fst, -1 ≤ f.eldership := by
  intro f hf
  obtain ⟨e, he, rfl⟩ := List.mem_map.mp hf
  obtain ⟨d, np, hnp, heq⟩ := evaluated_mem hs he
  rw [← heq]
  exact hclaims d np hnp

/-- The claim on top of the seed, by the node's own claim and those of its siblings. -/
lemma head_of_construct {level : ℕ} {f g : Fp} (hclaims : s.ClaimsValid) (hs : MapInv s)
    (h : f.construct ((s.siblings level).map Prod.fst) (s.virtualAt level) = .ok g) :
    ∃ c, g.eldershipsSeed.head? = some c ∧ (s.virtualAt level = true → c = -1) ∧
      (s.virtualAt level = false → f.eldership ≠ -1 →
        IsLeast {x : ℤ | x = f.eldership ∨ x ≠ -1 ∧ x ∈ s.siblingClaims level} c) := by
  obtain ⟨next, rest, -, rfl⟩ := Fingerprint.construct_eq_ok h
  refine ⟨_, rfl, fun hvirtual => ?_, fun hvirtual _ => ?_⟩
  · rw [Fingerprint.champion_of_null (by simp [Fingerprint.ownClaim, hvirtual])
      (hclaims.siblings hs)]
    simp [Fingerprint.ownClaim, hvirtual]
  · have hleast := Fingerprint.isLeast_champion ((s.siblings level).map Prod.fst)
      (f.ownClaim (s.virtualAt level), f.id, f.eldershipsSeed)
    have hown : f.ownClaim (s.virtualAt level) = f.eldership := by
      simp [Fingerprint.ownClaim, hvirtual]
    rw [hown, List.map_map] at hleast
    rw [hown]
    exact hleast

/-- The same claim wins in both orders. -/
lemma head_eq_of_construct {level : ℕ} {f g f' g' : Fp} (hst : Reordered s t)
    (hsame : f.eldership = f'.eldership)
    (h : f.construct ((s.siblings level).map Prod.fst) (s.virtualAt level) = .ok g)
    (h' : f'.construct ((t.siblings level).map Prod.fst) (t.virtualAt level) = .ok g') :
    g.eldershipsSeed.head? = g'.eldershipsSeed.head? := by
  obtain ⟨next, rest, -, rfl⟩ := Fingerprint.construct_eq_ok h
  obtain ⟨next', rest', -, rfl⟩ := Fingerprint.construct_eq_ok h'
  have hvirtual : t.virtualAt level = s.virtualAt level := by
    rw [virtualAt, hst.myNaddr, virtualAt]
  have hown : f'.ownClaim (t.virtualAt level) = f.ownClaim (s.virtualAt level) := by
    rw [Fingerprint.ownClaim, Fingerprint.ownClaim, hvirtual, hsame]
  have hperm := ((hst.siblings level).map Prod.fst).map Fingerprint.eldership
  have hleast := Fingerprint.isLeast_champion ((s.siblings level).map Prod.fst)
    (f.ownClaim (s.virtualAt level), f.id, f.eldershipsSeed)
  have hleast' := Fingerprint.isLeast_champion ((t.siblings level).map Prod.fst)
    (f'.ownClaim (t.virtualAt level), f'.id, f'.eldershipsSeed)
  simp only [hown, ← hperm.mem_iff] at hleast'
  rw [hown]
  exact congrArg some (hleast.unique hleast')

/-- **The climb does not depend on the order of the map.**  In any two orders of the destinations
of each level it ends with the same sizes, and at every level with the same claim on top: the null
claim if the node's own position below is virtual, and otherwise the least of those made there.  If
no two of them tie it ends with the same fingerprints.  A second climb changes nothing. -/
theorem updateClusters_perm (hs : RepInv s) (hclaims : s.ClaimsValid) (hst : Reordered s t) :
    ∃ s' t' es et, s.updateClusters = (s', .ok es) ∧ t.updateClusters = (t', .ok et) ∧
      s'.myNodesInside = t'.myNodesInside ∧
      (∀ level < s.levels, ∃ own f g c, s'.myFingerprints[level]? = some own ∧
        s'.myFingerprints[level + 1]? = some f ∧ t'.myFingerprints[level + 1]? = some g ∧
        f.eldershipsSeed.head? = some c ∧ g.eldershipsSeed.head? = some c ∧
        (0 < level → 0 ≤ own.eldership) ∧ (s.virtualAt level = true → c = -1) ∧
        (s.virtualAt level = false → own.eldership ≠ -1 →
          IsLeast {x : ℤ | x = own.eldership ∨ x ≠ -1 ∧ x ∈ s.siblingClaims level} c)) ∧
      ((∀ level < s.levels, ∀ own, s'.myFingerprints[level]? = some own →
        Fingerprint.NoTies (own.ownClaim (s.virtualAt level)) (s.siblingClaims level)) →
        s'.myFingerprints = t'.myFingerprints) ∧
      s'.updateClusters = (s', .ok []) := by
  have hsmap := hs.toMapInv
  obtain ⟨s', es, hrun, hs', -⟩ := hsmap.updateClusters_ok
  obtain ⟨t', et, hrun', ht', -⟩ := (hst.mapInv hsmap).updateClusters_ok
  obtain ⟨hcs, hstart⟩ := climbed_of_updateClusters hrun
  obtain ⟨hct, hstart'⟩ := climbed_of_updateClusters hrun'
  rw [hst.levels] at hct
  have hlevels : s'.levels = s.levels := by
    rw [QspnState.levels, hstart.map.myNaddr, QspnState.levels]
  have hlevels' : t'.levels = s.levels := by
    rw [QspnState.levels, hstart'.map.myNaddr, hst.myNaddr, QspnState.levels]
  have hsame := sameClaims_of_climbed hst hstart hstart' hcs hct
  have hconstruct : ∀ {level f g m n}, s'.Climbed level f g m n →
      f.construct ((s.siblings level).map Prod.fst) (s.virtualAt level) = .ok g := by
    intro level f g m n hc
    rw [← siblings_of_sameMap hstart.map, ← virtualAt_of_sameMap hstart.map]
    exact hc.construct
  have hconstruct' : ∀ {level f g m n}, t'.Climbed level f g m n →
      f.construct ((t.siblings level).map Prod.fst) (t.virtualAt level) = .ok g := by
    intro level f g m n hc
    rw [← siblings_of_sameMap hstart'.map, ← virtualAt_of_sameMap hstart'.map]
    exact hc.construct
  refine ⟨s', t', es, et, hrun, hrun', ?_, fun level hlevel => ?_, fun hties => ?_,
    (hlevels ▸ hcs).updateClusters hs'⟩
  · refine List.ext_getElem? fun i => ?_
    cases i with
    | zero => rw [hstart.size, hstart'.size, hst.myNodesInside]
    | succ level =>
        by_cases hlevel : level < s.levels
        · obtain ⟨f, g, m, n, hc⟩ := hcs level hlevel
          obtain ⟨f', g', m', n', hc'⟩ := hct level hlevel
          rw [hc.sizeAbove, hc'.sizeAbove, (hsame level hlevel _ _ _ _ _ _ _ _ hc hc').2.2]
        · rw [List.getElem?_eq_none (by rw [hs'.length_nodesInside]; omega),
            List.getElem?_eq_none (by rw [ht'.length_nodesInside]; omega)]
  · obtain ⟨f, g, m, n, hc⟩ := hcs level hlevel
    obtain ⟨f', g', m', n', hc'⟩ := hct level hlevel
    obtain ⟨⟨⟨-, hclaim, -⟩, -⟩, -⟩ := hsame level hlevel _ _ _ _ _ _ _ _ hc hc'
    obtain ⟨c, hhead, hvirtual, hleast⟩ := head_of_construct hclaims hsmap (hconstruct hc)
    have hheads := head_eq_of_construct hst hclaim (hconstruct hc) (hconstruct' hc')
    refine ⟨f, g, g', c, hc.below, hc.above, hc'.above, hhead, hheads ▸ hhead, fun hpos => ?_,
      hvirtual, hleast⟩
    -- above level 0 the claim is one the level below has consumed
    obtain ⟨level, rfl⟩ : ∃ k, level = k + 1 := ⟨level - 1, by omega⟩
    obtain ⟨f₀, g₀, m₀, n₀, hc₀⟩ := hcs level (by omega)
    obtain rfl := Option.some.inj (hc₀.above.symm.trans hc.below)
    obtain ⟨next, rest, -, rfl⟩ := Fingerprint.construct_eq_ok hc₀.construct
    exact Int.natCast_nonneg _
  · have hall : ∀ level ≤ s.levels, s'.myFingerprints[level]? = t'.myFingerprints[level]? := by
      intro level
      induction level with
      | zero => exact fun _ => by rw [hstart.fingerprint, hstart'.fingerprint, hst.myFingerprints]
      | succ level ih =>
          intro hlevel
          obtain ⟨f, g, m, n, hc⟩ := hcs level hlevel
          obtain ⟨f', g', m', n', hc'⟩ := hct level hlevel
          have hbelow := ih (Nat.le_of_succ_le hlevel)
          rw [hc.below, hc'.below] at hbelow
          obtain rfl := Option.some.inj hbelow
          have hvirtual : t.virtualAt level = s.virtualAt level := by
            rw [virtualAt, hst.myNaddr, virtualAt]
          have hnone := hties level hlevel f hc.below
          have hg := hconstruct hc
          have hg' := hconstruct' hc'
          rw [hvirtual] at hg'
          obtain ⟨next, rest, hp, rfl⟩ := Fingerprint.construct_eq_ok hg
          obtain ⟨next', rest', hp', rfl⟩ := Fingerprint.construct_eq_ok hg'
          obtain ⟨rfl, rfl⟩ := List.cons.inj (hp.symm.trans hp')
          rw [hc.above, hc'.above, Fingerprint.champion_perm
            ((hst.siblings level).map Prod.fst) (hclaims.siblings hsmap)
            (by rw [List.map_map]; exact hnone)]
    refine List.ext_getElem? fun level => ?_
    by_cases hlevel : level ≤ s.levels
    · exact hall level hlevel
    · rw [List.getElem?_eq_none (by rw [hs'.chain.length]; omega),
        List.getElem?_eq_none (by rw [ht'.chain.length]; omega)]

/-- A path to the node at position `p`, which claims `eldership`. -/
def claimingPath (p eldership : UInt32) : NodePath :=
  NodePath.new ⟨1⟩
    ⟨[⟨0, p⟩], [⟨1⟩], .finite 5, Fingerprint.new [p.toUInt8] eldership [0], 1, [false]⟩

lemma pathInv_claimingPath (p eldership : UInt32) :
    PathInv 1 ⟨0, p⟩ (claimingPath p eldership) where
  last := rfl
  length_arcs := rfl
  head_arc := rfl
  inLevels := by simp [claimingPath, NodePath.new]
  fingerprint_level := rfl

lemma nodup_positions {p q : UInt32} (h : p ≠ q) (d e : Destination) :
    ([(p, d), (q, e)].map Prod.fst).Nodup := by simpa using h

lemma one_ne_three : (1 : UInt32) ≠ 3 := by decide

/-- The node at position 0, whose claim is 9, with a path to `p` and then one to `q`. -/
def claimsInOrder (p q x y : UInt32) (h : p ≠ q) : QspnState ℚ where
  myNaddr := oneLevelNode 0
  myFingerprints := [Fingerprint.new [0] 9 [0], ⟨[0], 1, 0, [], [9]⟩]
  myNodesInside := [1, 1]
  arcs := (oneLevelState (claimingPath p x)).arcs
  destinations := [⟨[(p, ⟨⟨0, p⟩, [claimingPath p x]⟩), (q, ⟨⟨0, q⟩, [claimingPath q y]⟩)],
    nodup_positions h _ _⟩]
  config := .default
  bootstrap := .complete

section InOrder

variable {p q x y : UInt32} {h : p ≠ q}

lemma claimsInOrder_destination {d : HCoord} {dest : Destination}
    (hd : (claimsInOrder p q x y h).destination d.level d.pos = some dest) :
    ∃ z, dest = ⟨d, [claimingPath d.pos z]⟩ ∧ d.level = 0 := by
  obtain ⟨l, pos⟩ := d
  obtain ⟨m, hm, hget⟩ := Option.bind_eq_some_iff.mp hd
  have hmem := KeyedMap.mem_entries_iff.mpr hget
  rcases l with _ | l
  · cases hm
    obtain ⟨rfl, rfl⟩ | ⟨rfl, rfl⟩ :
        (pos = p ∧ dest = _) ∨ (pos = q ∧ dest = _) := by simpa using hmem
    · exact ⟨x, rfl, rfl⟩
    · exact ⟨y, rfl, rfl⟩
  · cases hm

lemma claimsInOrder_repInv : RepInv (claimsInOrder p q x y h) := by
  have hlevels : (claimsInOrder p q x y h).levels = 1 := rfl
  refine ⟨⟨rfl, fun d dest hd => ?_, ⟨rfl, fun l fp hl => ?_, fun l fp hl => ?_⟩, rfl,
    fun arc peer hp => ?_⟩, fun d np hnp => ?_⟩
  · obtain ⟨z, rfl, hzero⟩ := claimsInOrder_destination hd
    obtain ⟨l, pos⟩ := d
    obtain rfl : l = 0 := hzero
    refine ⟨rfl, by simp, ?_, ?_, by simp, ?_⟩
    · rw [hlevels]
      simpa using pathInv_claimingPath pos z
    · simp [claimingPath, NodePath.new]
    · show 1 ≤ mandatoryPathFactor * 5
      decide
  · rcases l with _ | _ | l
    all_goals
      cases hl
      try rfl
  · rw [hlevels]
    rcases l with _ | _ | l
    all_goals
      cases hl
      try simp [Fingerprint.new]
  · obtain ⟨e, he, hpeer⟩ := Option.bind_eq_some_iff.mp hp
    have hmem := KeyedMap.mem_entries_iff.mpr he
    obtain ⟨rfl, rfl⟩ : arc = ⟨1⟩ ∧ e = _ := by
      simpa [claimsInOrder, oneLevelState] using hmem
    cases hpeer
    rfl
  · obtain ⟨dest, hd, hnp⟩ := QspnState.mem_storedAt.mp hnp
    obtain ⟨z, rfl, -⟩ := claimsInOrder_destination hd
    rw [List.mem_singleton.mp hnp]
    rfl

lemma claimsInOrder_claimsValid : (claimsInOrder p q x y h).ClaimsValid := by
  intro d np hnp
  obtain ⟨dest, hd, hnp⟩ := mem_storedAt.mp hnp
  obtain ⟨z, rfl, -⟩ := claimsInOrder_destination hd
  rw [List.mem_singleton.mp hnp]
  exact le_trans (by decide) (Int.natCast_nonneg z.toNat)

lemma reordered_claimsInOrder :
    Reordered (claimsInOrder p q x y h) (claimsInOrder q p y x h.symm) :=
  ⟨rfl, rfl, rfl, rfl, rfl, rfl, .cons (List.Perm.swap _ _ _) .nil⟩

end InOrder

/-- Positions 1 and 3 claim 4 and 7 against the node's 9: in both orders 4 is on top. -/
theorem updateClusters_perm_claims :
    ∃ s' t' es et,
      (claimsInOrder 1 3 4 7 one_ne_three).updateClusters = (s', .ok es) ∧
      (claimsInOrder 3 1 7 4 one_ne_three.symm).updateClusters = (t', .ok et) ∧
      s'.myFingerprints = t'.myFingerprints ∧ s'.myNodesInside = t'.myNodesInside ∧
      (s'.myFingerprints[1]?.bind fun f => f.eldershipsSeed.head?) = some 4 ∧
      s'.updateClusters = (s', .ok []) := by
  obtain ⟨s', t', es, et, hrun, hrun', hsizes, hheads, hties, hagain⟩ :=
    updateClusters_perm (claimsInOrder_repInv) claimsInOrder_claimsValid
      (reordered_claimsInOrder (h := one_ne_three))
  have hown : s'.myFingerprints[0]? = some (Fingerprint.new [0] 9 [0]) :=
    (climbed_of_updateClusters hrun).2.fingerprint
  have hclaims : (claimsInOrder 1 3 4 7 one_ne_three).siblingClaims 0 = [4, 7] := rfl
  have hvirtual : (claimsInOrder 1 3 4 7 one_ne_three).virtualAt 0 = false := rfl
  refine ⟨s', t', es, et, hrun, hrun', hties fun level hlevel own h => ?_, hsizes, ?_, hagain⟩
  · obtain rfl : level = 0 := Nat.lt_one_iff.mp hlevel
    obtain rfl := Option.some.inj (hown.symm.trans h)
    rw [hclaims, hvirtual]
    exact fun _ => by decide
  · obtain ⟨own, f, g, c, ho, hf, -, hhead, -, -, -, hleast⟩ := hheads 0 Nat.zero_lt_one
    obtain rfl := Option.some.inj (hown.symm.trans ho)
    have hc := hleast hvirtual (by decide)
    rw [hclaims] at hc
    rw [hf, Option.bind_some, hhead]
    exact congrArg some (hc.unique ⟨Or.inr (by decide), fun x hx => by
      obtain rfl | ⟨-, hx⟩ := hx
      · decide
      · obtain rfl | rfl : x = 4 ∨ x = 7 := by simpa using hx
        all_goals decide⟩)

end QspnState
end Netsukuku
