import Mathlib
import Netsukuku.Qspn.Handlers

/-!
# One route per exit gateway

Seen from outside its g-node of level `i`, a node's route to somewhere starts at the first hop of
level `i` or higher.  Among the routes that leave through the same hop, entered by the same arc,
only one way to that hop is worth telling: the cheapest stored one.

The flag of a level compares a path with the stored ones only if its last hop is not below the
level.  That this is so of every path with an entry takes hops that climb, which no operation on
the state checks: the gate checks it of what comes in, and the grouping rule keeps it.

* `EtpPath.entry`, `EtpPath.uptoEntry` — that hop, its arc, and the way to it.
* `Reachable.storedAscending` — in every reachable state the stored paths climb.
* `samePrefix_eq`, `ignoreOutsideAt_eq` — what the flag of a level compares.
* `prepareFullEtp_pruned` — which paths of a full ETP are told outside a level.
-/

namespace Netsukuku

variable {F : Type}

namespace EtpPath

/-- The first hop of level `i` or higher, and the arc it is entered by. -/
def entry (i : ℕ) (p : EtpPath) : Option (HCoord × ArcId) := do
  let j ← p.hops.findIdx? fun h => decide (i ≤ h.level)
  let h ← p.hops[j]?
  let a ← p.arcs[j]?
  some (h, a)

/-- The way to that hop. -/
def uptoEntry (i : ℕ) (p : EtpPath) : List HCoord × List ArcId :=
  match p.hops.findIdx? fun h => decide (i ≤ h.level) with
  | some j => (p.hops.take (j + 1), p.arcs.take (j + 1))
  | none => p.route

lemma entry_eq_some {i : ℕ} {p : EtpPath} {h : HCoord} {a : ArcId} :
    p.entry i = some (h, a) ↔ ∃ j, p.hops.findIdx? (fun h => decide (i ≤ h.level)) = some j ∧
      p.hops[j]? = some h ∧ p.arcs[j]? = some a := by
  simp only [entry, Option.bind_eq_bind, Option.bind_eq_some_iff, Option.some.injEq,
    Prod.mk.injEq]
  constructor
  · rintro ⟨j, hj, h', hh, a', ha, rfl, rfl⟩
    exact ⟨j, hj, hh, ha⟩
  · rintro ⟨j, hj, hh, ha⟩
    exact ⟨j, hj, h, hh, a, ha, rfl, rfl⟩

lemma le_level_of_entry {i : ℕ} {p : EtpPath} {h : HCoord} {a : ArcId}
    (he : p.entry i = some (h, a)) : i ≤ h.level := by
  obtain ⟨j, hj, hhop, -⟩ := entry_eq_some.mp he
  obtain ⟨hlt, hle, -⟩ := List.findIdx?_eq_some_iff_getElem.mp hj
  rw [List.getElem?_eq_getElem hlt, Option.some.injEq] at hhop
  exact hhop ▸ of_decide_eq_true hle

end EtpPath

/-- The hops below level `i` in front of the entry. -/
lemma length_takeWhile_of_findIdx? {i j : ℕ} : ∀ {hops : List HCoord},
    hops.findIdx? (fun h => decide (i ≤ h.level)) = some j →
      (hops.takeWhile fun h => decide (h.level < i)).length = j
  | [], hj => by simp at hj
  | h :: hops, hj => by
      rw [List.findIdx?_cons] at hj
      by_cases hi : i ≤ h.level
      · simp only [hi, decide_true, if_true] at hj
        rw [List.takeWhile_cons_of_neg (by simpa using hi)]
        exact Option.some.inj hj
      · simp only [hi, decide_false, Bool.false_eq_true, if_false] at hj
        obtain ⟨k, hk, rfl⟩ := Option.map_eq_some_iff.mp hj
        rw [List.takeWhile_cons_of_pos (by simpa using hi), List.length_cons,
          length_takeWhile_of_findIdx? hk]

/-! ## Stored paths climb -/

/-- The hops of every stored path climb. -/
def StoredAscending (s : QspnState F) : Prop := ∀ d, ∀ np ∈ s.storedAt d, Ascending np.path.hops

/-- The rule of a node whose stored paths climb. -/
def ascendingRule : Rule where
  Path b := (b.1.1 ≠ [] ∧ b.1.1.length = b.1.2.length) ∧ Ascending b.1.1
  Trail _ := True
  Peer _ := True
  sendable _ hp := ⟨hp.1.1, hp.1.2⟩
  trail_nil := trivial

/-- Every accepted message is revised to paths that climb: the gate checks the hops it came with,
and the grouping rule puts the sender's coordinate below the hops it keeps. -/
lemma accepts_ascending (me : Naddr) (m : EtpMessage) : Accepts me ascendingRule m := by
  refine accepts_of_cases (fun _ => trivial) (fun _ _ _ => trivial) (fun _ _ _ hp _ arc _ => ?_)
    fun {_ v} _ _ _ _ _ => ⟨⟨List.cons_ne_nil v [], rfl⟩, List.pairwise_singleton _ v⟩
  exact ⟨⟨List.cons_ne_nil _ _, length_groupedPath hp.length_arcs⟩,
    ascending_groupHops hp.hops_ok.ascending⟩

section Runs

variable {me : Naddr} {ρ : Rule}

/-- Recording and revising messages keeps the condition. -/
lemma Revised.nodeInv (hρ : ∀ m, Accepts me ρ m) {s s' : QspnState F} {q : List NodePath}
    (h : Revised s s' q) (hs : NodeInv me ρ s) :
    NodeInv me ρ s' ∧ CandidatesOk s'.levels q ∧ ∀ np ∈ q, ρ.Path np.path.body := by
  induction h with
  | nil => exact ⟨hs, by simp [CandidatesOk], by simp⟩
  | @revised s₁ q arc m isFull r _ _ hin hrev ih =>
      obtain ⟨h₁, hq, hP⟩ := ih
      obtain ⟨h₂, hr⟩ := h₁.reviseOver (hρ m) hin arc isFull
      obtain ⟨hr, hrP, -⟩ := hr r hrev
      have hlevels : (s₁.reviseOver arc m isFull).1.levels = s₁.levels := by
        simp [QspnState.reviseOver_fst, QspnState.levels]
      refine ⟨h₂, fun np hnp => ?_, fun np hnp => ?_⟩
      · rw [hlevels]
        exact (List.mem_append.mp hnp).elim (hq np) (hr np)
      · exact (List.mem_append.mp hnp).elim (hP np) (hrP np)
  | @rejected s₁ q arc m isFull e _ _ hin _ ih =>
      obtain ⟨h₁, hq, hP⟩ := ih
      have hlevels : (s₁.reviseOver arc m isFull).1.levels = s₁.levels := by
        simp [QspnState.reviseOver_fst, QspnState.levels]
      exact ⟨(h₁.reviseOver (hρ m) hin arc isFull).1, hlevels ▸ hq, hP⟩

variable [Float64 F]

/-- One operation keeps the condition. -/
lemma Step.nodeInv (hρ : ∀ m, Accepts me ρ m) {s s' : QspnState F} (hstep : Step s s')
    (h : NodeInv me ρ s) : NodeInv me ρ s' := by
  cases hstep with
  | addArc id cost => exact h.addArc id cost
  | setArcCost arc cost => exact h.setArcCost arc cost
  | removeArc arc => exact h.removeArc arc
  | exitNetwork lvl => exact h.exitNetwork lvl
  | updateClusters => exact h.updateClusters
  | record hrev => exact (hrev.nodeInv hρ h).1
  | ingest order aChanged hrev =>
      obtain ⟨h₁, hq, hP⟩ := hrev.nodeInv hρ h
      obtain ⟨s'', out, hrun, h'', -⟩ := h₁.updateMap order hq hP aChanged
      rw [hrun]
      exact h''

/-- A run keeps the condition. -/
lemma Reachable.nodeInv (hρ : ∀ m, Accepts me ρ m) {s₀ s : QspnState F} (hrun : Reachable s₀ s)
    (h₀ : NodeInv me ρ s₀) : NodeInv me ρ s := by
  induction hrun with
  | refl => exact h₀
  | tail _ hstep ih => exact hstep.nodeInv hρ ih

/-- **In every state reached from a new one the stored paths climb.** -/
theorem Reachable.storedAscending {n : Naddr} {id : List UInt8} {eldership : UInt32}
    {pending : List UInt32} {config : QspnConfig F} {s₀ s : QspnState F}
    (hnew : QspnState.new n (Fingerprint.new id eldership pending) config = .ok s₀)
    (hrun : Reachable s₀ s) : StoredAscending s := fun d np hnp =>
  ((hrun.nodeInv (accepts_ascending n) (nodeInv_new hnew)).stored d np hnp).2

end Runs

/-- The last hop of a path that climbs is at least as high as any other. -/
lemma Ascending.le_getLast {hops : List HCoord} (hasc : Ascending hops) {last h : HCoord}
    (hlast : hops.getLast? = some last) (hh : h ∈ hops) : h.level ≤ last.level := by
  obtain ⟨front, rfl⟩ := List.getLast?_eq_some_iff.mp hlast
  rcases List.mem_append.mp hh with hh | hh
  · exact (List.pairwise_append.mp hasc).2.2 h hh last (List.mem_singleton_self last)
  · rw [List.mem_singleton.mp hh]

/-! ## What a flag compares -/

/-- The comparison of prefixes, where both paths are long enough. -/
lemma samePrefix_eq {ε : Type} (best p : EtpPath) :
    ∀ {k : ℕ}, k ≤ best.hops.length → k ≤ best.arcs.length → k ≤ p.hops.length →
      k ≤ p.arcs.length → samePrefix (ε := ε) best p k =
        .ok (decide ((best.hops.take k, best.arcs.take k) = (p.hops.take k, p.arcs.take k)))
  | 0, _, _, _, _ => by simp [samePrefix]
  | k + 1, h₁, h₂, h₃, h₄ => by
      have h₁' : k < best.hops.length := h₁
      have h₂' : k < best.arcs.length := h₂
      have h₃' : k < p.hops.length := h₃
      have h₄' : k < p.arcs.length := h₄
      rw [samePrefix, samePrefix_eq best p h₁'.le h₂'.le h₃'.le h₄'.le, Outcome.ok_bind]
      have htake : ∀ {α : Type} {l l' : List α} (h : k < l.length) (h' : k < l'.length),
          l.take (k + 1) = l'.take (k + 1) ↔ l.take k = l'.take k ∧ l[k] = l'[k] := by
        intro α l l' h h'
        rw [List.take_succ_eq_append_getElem h, List.take_succ_eq_append_getElem h']
        constructor
        · intro heq
          obtain ⟨hfront, hlast⟩ := List.append_inj' heq rfl
          exact ⟨hfront, List.head_eq_of_cons_eq hlast⟩
        · rintro ⟨hfront, hlast⟩
          rw [hfront, hlast]
      simp only [Prod.mk.injEq, htake h₁' h₃', htake h₂' h₄']
      by_cases hsame : best.hops.take k = p.hops.take k ∧ best.arcs.take k = p.arcs.take k
      · simp [hsame, Outcome.index_of_lt h₁', Outcome.index_of_lt h₂', Outcome.index_of_lt h₃',
          Outcome.index_of_lt h₄']
      · rw [decide_eq_false hsame, if_neg Bool.false_ne_true]
        simp only [Except.ok.injEq, Bool.false_eq, decide_eq_false_iff_not]
        exact fun h => hsame ⟨h.1.1, h.2.1⟩

/-- The first cheapest stored path to `h` that ends in `a`. -/
def cheapestTo (s : QspnState F) (h : HCoord) (a : ArcId) : Option NodePath :=
  Scan.firstMin (fun q => q.totalCost (s.arcCost q.arc))
    ((s.storedAt h).filter fun q => decide (q.path.arcs.getLast? = some a))

lemma preferredExit_eq {s : QspnState F} {h : HCoord} {d : Destination} (a : ArcId)
    (hd : s.destination h.level h.pos = some d) : preferredExit s d a = cheapestTo s h a := by
  rw [preferredExit, cheapestTo, QspnState.storedAt, hd]
  rfl

/-- A list by what is in front of its last element. -/
lemma eq_take_append_of_getLast? {α : Type} {l : List α} {j : ℕ} {a : α} (hlen : l.length = j + 1)
    (hlast : l.getLast? = some a) : l = l.take j ++ [a] := by
  have hne : l ≠ [] := by
    rintro rfl
    cases hlen
  have hdrop : l.dropLast = l.take j := by rw [List.dropLast_eq_take, hlen, Nat.add_sub_cancel]
  rw [List.getLast?_eq_getLast_of_ne_nil hne, Option.some.injEq] at hlast
  rw [← hdrop, ← hlast, List.dropLast_append_getLast]

/-- **What the flag of a level says** of a path that enters `h` by `a`, if there is a stored path to
`h` that ends in `a`: whether its way to `h` is another than the first cheapest of them. -/
lemma ignoreOutsideAt_eq {ε : Type} {s : QspnState F} (hs : MapInv s) {p : EtpPath}
    {i lastLevel : ℕ} {h : HCoord} {a : ArcId} {best : NodePath} (hlast : i ≤ lastLevel)
    (hentry : p.entry i = some (h, a)) (hbest : cheapestTo s h a = some best) :
    ignoreOutsideAt (ε := ε) s p lastLevel i
      = .ok (!decide (best.path.route = p.uptoEntry i)) := by
  obtain ⟨j, hj, hhop, harc⟩ := EtpPath.entry_eq_some.mp hentry
  obtain ⟨hstored, hends⟩ := List.mem_filter.mp (Scan.firstMin_mem hbest)
  obtain ⟨d, hd, hmem⟩ := QspnState.mem_storedAt.mp hstored
  have hinv := (hs.dest h d hd).path best hmem
  have hends' : best.path.arcs.getLast? = some a := of_decide_eq_true hends
  have hjlt : j < p.hops.length := (List.getElem?_eq_some_iff.mp hhop).1
  have hjlt' : j < p.arcs.length := (List.getElem?_eq_some_iff.mp harc).1
  have hupto : p.uptoEntry i = (p.hops.take (j + 1), p.arcs.take (j + 1)) := by
    rw [EtpPath.uptoEntry, hj]
  have htake : p.hops.take (j + 1) = p.hops.take j ++ [h] := by
    rw [List.take_add_one, hhop]
    rfl
  have htake' : p.arcs.take (j + 1) = p.arcs.take j ++ [a] := by
    rw [List.take_add_one, harc]
    rfl
  rw [ignoreOutsideAt, if_neg (not_lt.mpr hlast), hj, Outcome.expect_some, Outcome.ok_bind,
    Outcome.index_eq_ok.mpr hhop, Outcome.ok_bind, hd]
  dsimp only
  rw [Outcome.index_eq_ok.mpr harc, Outcome.ok_bind, preferredExit_eq a hd, hbest]
  dsimp only
  split_ifs with hlen
  · rw [samePrefix_eq best.path p (by omega) (by rw [← hinv.length_arcs]; omega) hjlt.le hjlt'.le,
      Outcome.ok_bind, hupto, htake, htake']
    have hhops := eq_take_append_of_getLast? hlen hinv.last
    have harcs := eq_take_append_of_getLast? (hinv.length_arcs.symm.trans hlen) hends'
    have hiff : best.path.route = (p.hops.take j ++ [h], p.arcs.take j ++ [a]) ↔
        (best.path.hops.take j, best.path.arcs.take j) = (p.hops.take j, p.arcs.take j) := by
      rw [EtpPath.route, Prod.mk.injEq, Prod.mk.injEq]
      constructor
      · rintro ⟨hh, ha⟩
        rw [hh, ha]
        have hleft : ∀ {α : Type} {l : List α} (x : α), j < l.length →
            (l.take j ++ [x]).take j = l.take j := by
          intro α l x hl
          exact List.take_left' (by rw [List.length_take]; omega)
        exact ⟨hleft h hjlt, hleft a hjlt'⟩
      · rintro ⟨hh, ha⟩
        rw [hhops, harcs, hh, ha]
        exact ⟨rfl, rfl⟩
    simp only [hiff]
  · have hne : best.path.route ≠ p.uptoEntry i := by
      intro heq
      refine hlen ?_
      rw [hupto] at heq
      rw [show best.path.hops = _ from congrArg Prod.fst heq, List.length_take]
      omega
    rw [decide_eq_false hne]
    rfl

/-- The flag of a level above 0 is what was decided for it. -/
lemma getElem?_flagged {s : QspnState F} (hs : MapInv s) {p : EtpPath} (hp : Sendable p) {i : ℕ}
    (hpos : 1 ≤ i) (hi : i < s.levels) :
    ∃ last b, p.hops.getLast? = some last ∧
      ignoreOutsideAt (ε := Empty) s p last.level i = .ok b ∧
      (flagged s p).ignoreOutside[i]? = some b := by
  have hrun := (hs.setIgnoreOutside_eq hp Empty).1
  obtain ⟨last, hlast, hrun⟩ := Outcome.bind_eq_ok.mp hrun
  obtain ⟨flags, hflags, hrun⟩ := Outcome.bind_eq_ok.mp hrun
  obtain ⟨hlen, hget⟩ := List.forall₂_iff_get.mp (Outcome.mapM_eq_ok.mp hflags)
  obtain ⟨k, rfl⟩ : ∃ k, i = k + 1 := ⟨i - 1, by omega⟩
  have hk : k < (List.range' 1 (s.levels - 1)).length := by
    rw [List.length_range']
    omega
  have hk' : k < flags.length := hlen ▸ hk
  refine ⟨last, flags[k], Outcome.expect_eq_ok.mp hlast, ?_, ?_⟩
  · have hat := hget k hk hk'
    simp only [List.get_eq_getElem, List.getElem_range', one_mul] at hat
    rw [Nat.add_comm k 1]
    exact hat
  · rw [← Except.ok.inj hrun]
    exact List.getElem?_eq_getElem hk'

/-! ## The paths of a full ETP -/

namespace MapInv

variable {s : QspnState F} (hs : MapInv s)
include hs

/-- No route is stored twice at a level. -/
lemma nodup_allPathsAt (l : ℕ) : ((s.allPathsAt l).map fun np => np.path.route).Nodup := by
  unfold QspnState.allPathsAt
  cases hm : s.destinations[l]? with
  | none => exact List.nodup_nil
  | some m =>
      dsimp only
      rw [List.map_flatMap, KeyedMap.values, List.flatMap_map]
      have hstored : ∀ e ∈ m.entries, DestInv s.levels s.config.maxPaths ⟨l, e.1⟩ e.2 :=
        fun e he => hs.dest ⟨l, e.1⟩ e.2 (hs.destination_of_mem hm he)
      refine List.nodup_flatMap.mpr ⟨fun e he => (hstored e he).routes_nodup, ?_⟩
      -- routes to different positions end differently
      have hkeys : m.entries.Pairwise fun e e' => e.1 ≠ e'.1 := List.pairwise_map.mp m.nodup
      refine hkeys.imp_of_mem fun {e e'} he he' hne => ?_
      intro r hr hr'
      obtain ⟨np, hnp, rfl⟩ := List.mem_map.mp hr
      obtain ⟨np', hnp', heq⟩ := List.mem_map.mp hr'
      have hlast := ((hstored e he).path np hnp).last
      have hlast' := ((hstored e' he').path np' hnp').last
      rw [show np'.path.hops = np.path.hops from congrArg Prod.fst heq, hlast] at hlast'
      exact hne (congrArg HCoord.pos (Option.some.inj hlast'))

/-- No route is stored twice. -/
lemma nodup_wirePaths : ((wirePaths s (List.range s.levels)).map EtpPath.route).Nodup := by
  have hroutes : (wirePaths s (List.range s.levels)).map EtpPath.route =
      (List.range s.levels).flatMap fun l => (s.allPathsAt l).map fun np => np.path.route := by
    rw [wirePaths, List.map_map, ← List.map_flatMap]
    rfl
  rw [hroutes]
  refine List.nodup_flatMap.mpr ⟨fun l _ => hs.nodup_allPathsAt l, ?_⟩
  refine List.nodup_range.imp fun {l l'} hne => ?_
  intro r hr hr'
  obtain ⟨np, hnp, rfl⟩ := List.mem_map.mp hr
  obtain ⟨np', hnp', heq⟩ := List.mem_map.mp hr'
  obtain ⟨d, hd, hstored⟩ := hs.mem_allPathsAt hnp
  obtain ⟨d', hd', hstored'⟩ := hs.mem_allPathsAt hnp'
  have hlast' := (hs.pathInv hstored').last
  rw [show np'.path.hops = np.path.hops from congrArg Prod.fst heq,
    (hs.pathInv hstored).last] at hlast'
  exact hne (hd.symm.trans ((congrArg HCoord.level (Option.some.inj hlast')).trans hd'))

end MapInv

/-- Whoever drops the hops below level `i` still tells apart two paths with one way to the entry. -/
lemma route_eq_of_grouped {i : ℕ} {p q : EtpPath} {v : HCoord} {arc : ArcId} {e : HCoord × ArcId}
    (hv : v.level = i) (hp : p.entry i = some e) (hq : q.entry i = some e)
    (hupto : p.uptoEntry i = q.uptoEntry i)
    (h : (groupedPath v arc p).route = (groupedPath v arc q).route) : p.route = q.route := by
  subst hv
  obtain ⟨j, hj, hhop, harc⟩ := EtpPath.entry_eq_some.mp hp
  obtain ⟨k, hk, hhop', harc'⟩ := EtpPath.entry_eq_some.mp hq
  have hjlt : j < p.hops.length := (List.getElem?_eq_some_iff.mp hhop).1
  have hklt : k < q.hops.length := (List.getElem?_eq_some_iff.mp hhop').1
  rw [EtpPath.uptoEntry, EtpPath.uptoEntry, hj, hk] at hupto
  obtain ⟨hhops, harcs⟩ := Prod.mk.inj hupto
  have hjk : j = k := by
    have := congrArg List.length hhops
    rw [List.length_take, List.length_take] at this
    omega
  subst hjk
  have hdrop : ∀ {l : List HCoord}, l.findIdx? (fun h => decide (v.level ≤ h.level)) = some j →
      l.dropWhile (fun h => decide (h.level < v.level)) = l.drop j := by
    intro l hl
    have happend := List.takeWhile_append_dropWhile
      (p := fun h : HCoord => decide (h.level < v.level)) (l := l)
    conv_rhs => rw [← happend, ← length_takeWhile_of_findIdx? hl]
    exact List.drop_left.symm
  have hroute : v :: p.hops.drop j = v :: q.hops.drop j ∧
      arc :: p.arcs.drop j = arc :: q.arcs.drop j := by
    rw [EtpPath.route, EtpPath.route, groupedPath, groupedPath, groupHops, groupHops, hdrop hj,
      hdrop hk, length_takeWhile_of_findIdx? hj, length_takeWhile_of_findIdx? hk] at h
    exact Prod.mk.inj h
  have hjoin : ∀ {α : Type} {l l' : List α}, l.take (j + 1) = l'.take (j + 1) →
      l.drop j = l'.drop j → l = l' := by
    intro α l l' htake hrest
    have hfront : l.take j = l'.take j := by
      have := congrArg (List.take j) htake
      rwa [List.take_take, List.take_take, Nat.min_eq_left (Nat.le_succ j)] at this
    rw [← List.take_append_drop j l, ← List.take_append_drop j l', hfront, hrest]
  exact Prod.ext (hjoin hhops (List.cons.inj hroute.1).2) (hjoin harcs (List.cons.inj hroute.2).2)

/-- The paths of a message that are told outside level `i` and enter `e`. -/
def toldThrough (i : ℕ) (e : HCoord × ArcId) (m : EtpMessage) : List EtpPath :=
  m.paths.filter fun p => decide (p.entry i = some e) && decide (p.ignoreOutside[i]? = some false)

/-- **Outward, one route per exit gateway.**  At every level above 0, of the paths of a full ETP
that enter `h` by `a` those are told outside whose way to `h` is the first cheapest stored one that
ends in `a`.  So a receiver that drops the hops below the level can tell them apart.  A path to
somewhere below the level is not told outside. -/
theorem prepareFullEtp_pruned {s : QspnState F} (hs : RepInv s) (hasc : StoredAscending s) :
    ∃ m, prepareFullEtp (ε := Empty) s = .ok m ∧ ∀ i, 1 ≤ i → i < s.levels →
      (∀ h a, (∃ q ∈ s.storedAt h, q.path.arcs.getLast? = some a) →
        ∃ best, cheapestTo s h a = some best ∧
          (∀ p ∈ m.paths, p.entry i = some (h, a) →
            (p.ignoreOutside[i]? = some false ↔ p.uptoEntry i = best.path.route)) ∧
          ∀ (v : HCoord) (arc : ArcId), v.level = i →
            ((toldThrough i (h, a) m).map fun p => (groupedPath v arc p).route).Nodup) ∧
      ∀ p ∈ m.paths, ∀ last, p.hops.getLast? = some last → last.level < i →
        p.ignoreOutside[i]? = some true := by
  have hinv := hs.toMapInv
  refine ⟨_, hinv.prepareFullEtp_eq Empty, fun i hpos hi => ⟨fun h a hends => ?_, ?_⟩⟩
  · have hsend : ∀ {p}, p ∈ wirePaths s (List.range s.levels) → Sendable p := by
      intro p hp
      obtain ⟨np, hnp, rfl⟩ := List.mem_map.mp hp
      obtain ⟨l, -, hnp⟩ := List.mem_flatMap.mp hnp
      exact hinv.sendable_wire hnp _
    have hclimbs : ∀ {p}, p ∈ wirePaths s (List.range s.levels) → Ascending p.hops := by
      intro p hp
      obtain ⟨np, hnp, rfl⟩ := List.mem_map.mp hp
      obtain ⟨l, -, hnp⟩ := List.mem_flatMap.mp hnp
      obtain ⟨d, -, hnp⟩ := hinv.mem_allPathsAt hnp
      exact hasc d np hnp
    have hroute : ∀ {p}, p ∈ wirePaths s (List.range s.levels) →
        (flagged s p).hops = p.hops ∧ (flagged s p).arcs = p.arcs := fun hp =>
      have h := (hinv.setIgnoreOutside_eq (hsend hp) Empty).2.route
      ⟨congrArg Prod.fst h, congrArg Prod.snd h⟩
    obtain ⟨best, hbest⟩ : ∃ best, cheapestTo s h a = some best := by
      obtain ⟨q, hq, hlast⟩ := hends
      refine Scan.exists_firstMin _ (List.ne_nil_of_mem (List.mem_filter.mpr ⟨hq, ?_⟩))
      exact decide_eq_true hlast
    have hflag : ∀ p ∈ (wirePaths s (List.range s.levels)).map (flagged s),
        p.entry i = some (h, a) →
          (p.ignoreOutside[i]? = some false ↔ p.uptoEntry i = best.path.route) := by
      intro p hp hentry
      obtain ⟨p₀, hp₀, rfl⟩ := List.mem_map.mp hp
      obtain ⟨hhops, harcs⟩ := hroute hp₀
      have hentry₀ : p₀.entry i = some (h, a) := by
        rw [EtpPath.entry, hhops, harcs] at hentry
        exact hentry
      have hupto : (flagged s p₀).uptoEntry i = p₀.uptoEntry i := by
        rw [EtpPath.uptoEntry, hhops, harcs, EtpPath.route, hhops, harcs]
        rfl
      obtain ⟨last, b, hlast, hrun, hget⟩ := getElem?_flagged hinv (hsend hp₀) hpos hi
      have hle : i ≤ last.level := by
        -- the entry is a hop of level `i` or higher, and the last hop is not lower
        obtain ⟨j, hj, hhop, -⟩ := EtpPath.entry_eq_some.mp hentry₀
        exact (EtpPath.le_level_of_entry hentry₀).trans
          ((hclimbs hp₀).le_getLast hlast (List.mem_of_getElem? hhop))
      rw [ignoreOutsideAt_eq hinv hle hentry₀ hbest] at hrun
      rw [hget, ← Except.ok.inj hrun, hupto, Option.some.injEq, Bool.not_eq_false',
        decide_eq_true_eq]
      exact eq_comm
    refine ⟨best, hbest, hflag, fun v arc hv => ?_⟩
    have hnodup :
        (((wirePaths s (List.range s.levels)).map (flagged s)).map EtpPath.route).Nodup := by
      have hroutes : ((wirePaths s (List.range s.levels)).map (flagged s)).map EtpPath.route =
          (wirePaths s (List.range s.levels)).map EtpPath.route := by
        rw [List.map_map]
        refine List.map_congr_left fun p hp => ?_
        exact Prod.ext (hroute hp).1 (hroute hp).2
      rw [hroutes]
      exact hinv.nodup_wirePaths
    have hfilter := (hnodup.of_map EtpPath.route).filter (fun p =>
      decide (p.entry i = some (h, a)) && decide (p.ignoreOutside[i]? = some false))
    refine hfilter.map_on fun p hp q hq heq => ?_
    obtain ⟨hp, hpf⟩ := List.mem_filter.mp hp
    obtain ⟨hq, hqf⟩ := List.mem_filter.mp hq
    simp only [Bool.and_eq_true, decide_eq_true_eq] at hpf hqf
    have hupto := ((hflag p hp hpf.1).mp hpf.2).trans ((hflag q hq hqf.1).mp hqf.2).symm
    exact List.inj_on_of_nodup_map hnodup hp hq (route_eq_of_grouped hv hpf.1 hqf.1 hupto heq)
  · intro p hp last hlast hlt
    obtain ⟨p₀, hp₀, rfl⟩ := List.mem_map.mp hp
    obtain ⟨np, hnp, rfl⟩ := List.mem_map.mp hp₀
    obtain ⟨l, -, hnp⟩ := List.mem_flatMap.mp hnp
    have hflags := (hinv.setIgnoreOutside_eq (hinv.sendable_wire hnp (s.arcCost np.arc)) Empty).2
    rw [show (flagged s _).hops = _ from congrArg Prod.fst hflags.route] at hlast
    exact hflags.above last hlast i hlt hi

/-! ## Two ways to one gateway -/

/-- What the node at position `p` tells: one path, out of the g-node through `⟨1, 1⟩`. -/
def exitEtp (p : UInt32) (hops : List HCoord) (arcs : List ArcId) (pruned : Bool) : EtpMessage :=
  ⟨twoLevelNode p, twoLevelChain 1, [1, 1, 1], [],
    [⟨hops, arcs, .finite 5, ⟨[3], 1, 0, [0], [0]⟩, 1, [false, pruned]⟩]⟩

/-- The neighbour at position 1 is at the gateway arc, the one at position 2 goes through it. -/
lemma exists_twoExits : ∃ s : QspnState ℚ, Reachable twoLevelState s ∧ s.levels = 2 ∧
    ((s.storedAt ⟨1, 1⟩).map fun q => (q.path.route, q.path.arcs.getLast?)) =
      [(([⟨0, 1⟩, ⟨1, 1⟩], [⟨1⟩, ⟨7⟩]), some ⟨7⟩),
        (([⟨0, 2⟩, ⟨0, 1⟩, ⟨1, 1⟩], [⟨2⟩, ⟨8⟩, ⟨7⟩]), some ⟨7⟩)] := by
  refine ⟨_, ((Relation.ReflTransGen.refl.tail (.addArc _ ⟨1⟩ (.finite 10))).tail
    (.addArc _ ⟨2⟩ (.finite 10))).tail (.ingest .asInserted none
      (@Revised.revised _ _ _ _ ⟨2⟩ (exitEtp 2 [⟨0, 1⟩, ⟨1, 1⟩] [⟨8⟩, ⟨7⟩] true) true _
        (@Revised.revised _ _ _ _ ⟨1⟩ (exitEtp 1 [⟨1, 1⟩] [⟨7⟩] false) true _ .nil
          rfl rfl rfl) rfl rfl rfl)), by decide +kernel, by decide +kernel⟩

theorem prepareFullEtp_pruned_twoExits : ∃ (s : QspnState ℚ) (m : EtpMessage) (best : NodePath),
    (s.storedAt ⟨1, 1⟩).length = 2 ∧ prepareFullEtp (ε := Empty) s = .ok m ∧
      cheapestTo s ⟨1, 1⟩ ⟨7⟩ = some best ∧
      ∀ p ∈ m.paths, p.entry 1 = some (⟨1, 1⟩, ⟨7⟩) →
        (p.ignoreOutside[1]? = some false ↔ p.uptoEntry 1 = best.path.route) := by
  obtain ⟨s, hrun, hlevels, hstored⟩ := exists_twoExits
  have hnew : QspnState.new (twoLevelNode 0) (Fingerprint.new [0] 0 [0, 0]) tolerantConfig =
      .ok twoLevelState := rfl
  have hends : ∃ q ∈ s.storedAt ⟨1, 1⟩, q.path.arcs.getLast? = some ⟨7⟩ := by
    have hmem : ((([⟨0, 1⟩, ⟨1, 1⟩], [⟨1⟩, ⟨7⟩]), some ⟨7⟩) :
        (List HCoord × List ArcId) × Option ArcId) ∈ (s.storedAt ⟨1, 1⟩).map fun q =>
          (q.path.route, q.path.arcs.getLast?) := by
      rw [hstored]
      exact List.mem_cons_self
    obtain ⟨q, hq, heq⟩ := List.mem_map.mp hmem
    exact ⟨q, hq, congrArg Prod.snd heq⟩
  obtain ⟨m, hm, h⟩ := prepareFullEtp_pruned (hrun.repInv (repInv_of_new hnew).1)
    (hrun.storedAscending hnew)
  obtain ⟨best, hbest, hflags, -⟩ := (h 1 le_rfl (by omega)).1 ⟨1, 1⟩ ⟨7⟩ hends
  refine ⟨s, m, best, ?_, hm, hbest, hflags⟩
  have := congrArg List.length hstored
  simpa using this

end Netsukuku
