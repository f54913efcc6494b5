import Mathlib
import Netsukuku.Qspn.Merge

/-!
# Implicit withdrawal

A full ETP withdraws by its silence.  The revision turns every stored path of the arc that the
message does not repeat into a dead candidate of the same route, and the merge has to let that
candidate win: a path kept from the old map, and every path admitted from the candidates, must
have a live candidate of its route.

* `groupedRoute` — the route a receiver gives to a path of the message.
* `live_candidate_or_untouched` — what a plan stores is backed by a live candidate, or no
  candidate had its route.
* `mem_revised_live` — a live candidate is a repeated path or the way to the sender.
* `stored_via_arc_repeated` — after a full ETP, nothing but what it repeated is left on its arc.
-/

namespace Netsukuku

variable {F : Type}

/-! ## Routes as the receiver groups them -/

/-- The sender in front, then the hops at or above its level with their arcs. -/
def groupedRoute (v : HCoord) (arc : ArcId) (p : EtpPath) : List HCoord × List ArcId :=
  let kept := (p.hops.zip p.arcs).filter fun e => decide (v.level ≤ e.1.level)
  (v :: kept.map Prod.fst, arc :: kept.map Prod.snd)

/-- Hops at or above a level all stay, with all their arcs. -/
lemma filter_zip_eq_self {k : ℕ} {hops : List HCoord} {arcs : List ArcId}
    (h : ∀ g ∈ hops, k ≤ g.level) :
    (hops.zip arcs).filter (fun e => decide (k ≤ e.1.level)) = hops.zip arcs := by
  rw [List.filter_eq_self]
  intro e he
  exact decide_eq_true (h e.1 (List.of_mem_zip he).1)

/-- Along an ascending trail, dropping the inner hops and their arcs is a filter of the pairs. -/
lemma zip_dropWhile {k : ℕ} :
    ∀ {hops : List HCoord} {arcs : List ArcId}, Ascending hops → hops.length = arcs.length →
      ((hops.zip arcs).filter fun e => decide (k ≤ e.1.level)) =
        (hops.dropWhile fun h => decide (h.level < k)).zip
          (arcs.drop (hops.takeWhile fun h => decide (h.level < k)).length)
  | [], arcs, _, _ => by simp
  | h :: hops, [], _, hlen => by cases hlen
  | h :: hops, a :: arcs, hasc, hlen => by
      obtain ⟨hle, hasc'⟩ := List.pairwise_cons.mp hasc
      have hlen' : hops.length = arcs.length := by simpa using hlen
      by_cases hlt : h.level < k
      · have hk : ¬ k ≤ h.level := not_le.mpr hlt
        simp only [List.zip_cons_cons, List.filter_cons, hk, decide_false, Bool.false_eq_true,
          if_false, List.dropWhile_cons, List.takeWhile_cons, hlt, decide_true, if_true,
          List.length_cons, List.drop_succ_cons]
        exact zip_dropWhile hasc' hlen'
      · have hall : ∀ g ∈ h :: hops, k ≤ g.level := by
          intro g hg
          rcases List.mem_cons.mp hg with rfl | hg
          · exact not_lt.mp hlt
          · exact (not_lt.mp hlt).trans (hle g hg)
        rw [filter_zip_eq_self hall]
        simp [hlt]

/-- The grouping rule gives an accepted path its grouped route. -/
lemma route_groupedPath {v : HCoord} {arc : ArcId} {p : EtpPath} (hasc : Ascending p.hops)
    (hlen : p.hops.length = p.arcs.length) : (groupedPath v arc p).route = groupedRoute v arc p := by
  have hl : (groupedPath v arc p).hops.length = (groupedPath v arc p).arcs.length :=
    length_groupedPath hlen
  simp only [groupedPath, groupHops, List.length_cons, Nat.add_right_cancel_iff] at hl
  simp only [groupedRoute, zip_dropWhile hasc hlen]
  rw [List.map_fst_zip hl.le, List.map_snd_zip hl.ge]
  rfl

/-! ## What a plan stores -/

section Plans

variable [Float64 F] {s : QspnState F} {qd : List NodePath} {d : HCoord}
  {aChanged : Option ArcId} {zSet : List (List HCoord)} {arcCost : ArcId → Cost} {plan : Plan}

lemma cost_of_not_varies {tol : F} {p1 p2 : EtpPath} (h : ¬ variesFrom tol p1 p2 = true) :
    p2.cost = p1.cost := by
  simp only [variesFrom, importantVariation, Bool.or_eq_true, not_or, decide_eq_true_eq,
    not_not] at h
  exact h.1.2.symm

/-- What the merge makes of a live stored path: itself, met by no candidate, or a path of its
route whose cost a candidate carries. -/
lemma mergedWith_backed (tol : F) (qd : List NodePath) (p1 : NodePath) :
    (mergedWith tol qd p1 = p1 ∧ ∀ c ∈ qd, c.path.route ≠ p1.path.route) ∨
      ∃ c ∈ qd, c.path.route = p1.path.route ∧ c.path.cost = (mergedWith tol qd p1).path.cost := by
  unfold mergedWith
  cases hf : qd.find? fun p => p.hopsArcsEqual p1.path with
  | none =>
      refine Or.inl ⟨rfl, fun c hc hroute => ?_⟩
      exact List.find?_eq_none.mp hf c hc (NodePath.hopsArcsEqual_iff.mpr hroute)
  | some p2 =>
      refine Or.inr ⟨p2, List.mem_of_find?_eq_some hf, route_of_find? hf, ?_⟩
      simp only
      split_ifs with hv
      · rfl
      · exact cost_of_not_varies hv

/-- **What a plan stores is backed by a live candidate of its route**, or it was stored before and
no candidate had its route. -/
theorem live_candidate_or_untouched
    (hnd : ((s.storedAt d).map fun np => np.path.route).Nodup)
    (h : planDestination s qd d aChanged zSet arcCost = .ok plan) {np : NodePath}
    (hnp : np ∈ plan.od) :
    (∃ c ∈ qd, c.path.route = np.path.route ∧ c.path.cost ≠ .dead) ∨
      np.path.route ∈ (s.storedAt d).map (fun p => p.path.route) ∧
        ∀ c ∈ qd, c.path.route ≠ np.path.route := by
  obtain ⟨od, hod, hcore⟩ := planDestination_core h
  obtain ⟨np₀, hnp₀, hc⟩ := exists_mem_of_map_core hcore hnp
  obtain ⟨hfrom, hcost, _⟩ := admitted_spec hod
  rw [← NodePath.path_eq_of_core hc]
  have hlive := hcost np₀ hnp₀
  rcases List.mem_append.mp (hfrom np₀ hnp₀) with hmem | hmem
  · rw [mergeKnown_od hnd] at hmem
    obtain ⟨p1, hp1, rfl⟩ := List.mem_map.mp hmem
    rw [route_mergedWith]
    rcases mergedWith_backed s.config.nodesInsideTolerance qd p1 with ⟨_, hnone⟩ | ⟨c, hcq, hr, hcc⟩
    · exact Or.inr ⟨List.mem_map_of_mem (f := fun p : NodePath => p.path.route) hp1, hnone⟩
    · exact Or.inl ⟨c, hcq, hr, hcc ▸ hlive⟩
  · exact Or.inl ⟨np₀, mem_mergeKnown_rest hmem, rfl, hlive⟩

end Plans

/-! ## What a revision leaves alive -/

/-- A live candidate of a full ETP is a path the message repeats or the way to its sender. -/
lemma mem_revised_live {me : Naddr} {m : EtpMessage} {arc : ArcId} {oldPeer : Option Naddr}
    {existing : List NodePath} {r : RevisedEtp} {v : HCoord}
    (hw : WellFormed me.topology m) (hv : me.hcoord m.nodeAddress = .ok (some v))
    (hrev : reviseEtp me m arc oldPeer true existing = .ok r) {c : NodePath} (hc : c ∈ r.paths)
    (hlive : c.path.cost ≠ .dead) :
    c.path.route = ([v], [arc]) ∨
      ∃ p ∈ m.paths, p.cost ≠ .dead ∧ c.path.route = groupedRoute v arc p := by
  obtain ⟨hfps, hnns, v', fp, nn, moved, hv', _, _, _, _, hmoved, rfl⟩ :=
    (reviseEtp_eq_ok fun p hp => (hw.paths_ok p hp).length_arcs).mp hrev
  obtain rfl : v' = v := by
    rw [hv] at hv'
    exact (Option.some.inj (Except.ok.inj hv')).symm
  rcases List.mem_append.mp hc with hc | hc
  · rw [withdrawals, if_pos rfl] at hc
    obtain ⟨np, _, rfl⟩ := List.mem_map.mp hc
    exact absurd rfl hlive
  · obtain ⟨p, hp, rfl⟩ := List.mem_map.mp hc
    rcases List.mem_append.mp hp with hp | hp
    · obtain ⟨p₀, hp₀, _, rfl, _⟩ := mem_survivors.mp hp
      have hok := hw.paths_ok p₀ hp₀
      exact Or.inr ⟨p₀, hp₀, hlive, route_groupedPath hok.hops_ok.ascending hok.length_arcs⟩
    · rcases List.mem_cons.mp hp with rfl | hp
      · exact Or.inl rfl
      · obtain ⟨moved', hmoved', hform⟩ : ∃ moved', movedAway me m arc oldPeer v' = .ok moved' ∧ _ :=
          movedAway_ok hfps hnns
        rw [hmoved] at hmoved'
        cases hmoved'
        obtain ⟨oldV, fp', nn', _, _, rfl⟩ := hform p hp
        exact absurd rfl hlive

/-- Every known path of the arc has a candidate of its route, live or dead. -/
lemma exists_candidate_of_existing {me : Naddr} {m : EtpMessage} {arc : ArcId}
    {oldPeer : Option Naddr} {existing : List NodePath} {r : RevisedEtp}
    (hw : WellFormed me.topology m)
    (hrev : reviseEtp me m arc oldPeer true existing = .ok r) {np : NodePath}
    (hnp : np ∈ existing) : ∃ c ∈ r.paths, c.path.route = np.path.route := by
  obtain ⟨_, _, v, fp, nn, moved, _, _, _, _, _, _, rfl⟩ :=
    (reviseEtp_eq_ok fun p hp => (hw.paths_ok p hp).length_arcs).mp hrev
  simp only [withdrawals, if_true]
  by_cases hrep : ((survivors me m arc v ++
      intrinsicPath me.topology.levels v arc fp nn :: moved).any fun p => np.hopsArcsEqual p) = true
  · obtain ⟨p, hp, heq⟩ := List.any_eq_true.mp hrep
    refine ⟨NodePath.new arc p, List.mem_append_right _ (List.mem_map_of_mem hp), ?_⟩
    exact (NodePath.hopsArcsEqual_iff.mp heq).symm
  · refine ⟨NodePath.new arc (deadPath np.path), List.mem_append_left _
      (List.mem_map_of_mem (List.mem_filter.mpr ⟨hnp, ?_⟩)), rfl⟩
    simpa using hrep

namespace QspnState

/-- Every stored path that starts with the arc is listed. -/
lemma mem_pathsViaArc0_of_storedAt {s : QspnState F} {d : HCoord} {arc : ArcId} {np : NodePath}
    (hnp : np ∈ s.storedAt d) (harc : np.path.arcs.head? = some arc) : np ∈ s.pathsViaArc0 arc := by
  obtain ⟨dest, hdest, hnp⟩ := mem_storedAt.mp hnp
  obtain ⟨m, hm, hget⟩ := Option.bind_eq_some_iff.mp hdest
  refine List.mem_filter.mpr ⟨List.mem_flatMap.mpr ⟨m, List.mem_of_getElem? hm,
    List.mem_flatMap.mpr ⟨dest, ?_, hnp⟩⟩, decide_eq_true harc⟩
  exact KeyedMap.mem_values.mpr ⟨d.pos, KeyedMap.mem_entries_iff.mpr hget⟩

end QspnState

section Whole

variable [Float64 F]

/-- **Implicit withdrawal is complete.**  After a full ETP accepted over a current arc has been
revised and merged, every stored path that leaves over the arc is the way to the sender or the
grouped image of a live path of the message. -/
theorem stored_via_arc_repeated {s : QspnState F} (hs : RepInv s) {arc : ArcId}
    (harc : s.containsArc arc = true) {m : EtpMessage}
    (hin : checkIncomingMessage m s.myNaddr = true) {r : RevisedEtp}
    (hrev : (s.reviseOver arc m true).2 = .ok r) (order : MapOrder) (aChanged : Option ArcId) :
    ∃ v s' out, s.myNaddr.hcoord m.nodeAddress = .ok (some v) ∧
      updateMap order (s.reviseOver arc m true).1 r.paths aChanged = (s', .ok out) ∧
      ∀ d, ∀ np ∈ s'.storedAt d, np.path.arcs.head? = some arc →
        np.path.route = ([v], [arc]) ∨
          ∃ p ∈ m.paths, p.cost ≠ .dead ∧ np.path.route = groupedRoute v arc p := by
  obtain ⟨htop, hne, hw⟩ := checkIncomingMessage_iff.mp hin
  obtain ⟨v, hv⟩ := Naddr.exists_hcoord_of_ne htop.symm hne.symm
  obtain ⟨h₁, hq, harcs⟩ := (Revised.nil.revised harc hin hrev).repInv hs
  rw [List.nil_append] at hq harcs
  obtain ⟨s', out, hrun, hs'⟩ := h₁.updateMap order hq harcs aChanged
  refine ⟨v, s', out, hv, hrun, fun d np hnp hhead => ?_⟩
  obtain ⟨zSet, keys, _, _, hkeys, _, hother, hturns⟩ := updateMap_turns hrun
  rw [QspnState.reviseOver_snd] at hrev
  simp only [if_true] at hrev
  have hstored : ∀ d, (s.reviseOver arc m true).1.storedAt d = s.storedAt d :=
    fun d => QspnState.recordPeerNaddr_storedAt s arc m.nodeAddress d
  -- a path of the arc stored before the call has a candidate of its route
  have hmet : ∀ np₀ ∈ s.storedAt d, np₀.path.arcs.head? = some arc →
      ∃ c ∈ r.paths, c.path.route = np₀.path.route := by
    intro np₀ hnp₀ hhead₀
    exact exists_candidate_of_existing hw hrev
      (QspnState.mem_pathsViaArc0_of_storedAt hnp₀ hhead₀)
  have hlast : ∀ c ∈ r.paths, c.path.route = np.path.route → c ∈ candidatesFor r.paths d := by
    intro c hc hroute
    have hhops : c.path.hops = np.path.hops := congrArg Prod.fst hroute
    refine List.mem_filter.mpr ⟨hc, decide_eq_true ?_⟩
    rw [hhops, (hs'.pathInv hnp).last]
  have hd : d ∈ keys := by
    by_contra hd
    rw [hother d hd, hstored] at hnp
    obtain ⟨c, hc, hroute⟩ := hmet np hnp hhead
    obtain ⟨hc, hcd⟩ := List.mem_filter.mp (hlast c hc hroute)
    exact hd ((hkeys d).mpr ⟨c, hc, of_decide_eq_true hcd⟩)
  obtain ⟨t, ht, rfl⟩ := exists_turn order aChanged zSet (s.reviseOver arc m true).1.arcCost r.paths
    (s.reviseOver arc m true).1 hd
  obtain ⟨_, hbefore, plan, hplan, hafter⟩ := hturns t ht
  rw [hafter] at hnp
  rw [hstored] at hbefore
  have hnd : ((t.1.storedAt t.2).map fun np => np.path.route).Nodup := by
    rw [hbefore]
    exact hs.routes_nodup t.2
  rcases live_candidate_or_untouched hnd hplan hnp with ⟨c, hc, hroute, hlive⟩ | ⟨hmem, hnone⟩
  · rw [← hroute]
    exact mem_revised_live hw hv hrev (List.mem_filter.mp hc).1 hlive
  · -- a path no candidate met does not leave over this arc
    exfalso
    rw [hbefore] at hmem
    obtain ⟨p1, hp1, hroute⟩ := List.mem_map.mp hmem
    have hhead₁ : p1.path.arcs.head? = some arc := by
      rw [show p1.path.arcs = np.path.arcs from congrArg Prod.snd hroute, hhead]
    obtain ⟨c, hc, hcr⟩ := hmet p1 hp1 hhead₁
    exact hnone c (hlast c hc (hcr.trans hroute)) (hcr.trans hroute)

end Whole

/-- A full ETP without paths leaves only the way to its sender. -/
theorem stored_via_arc_repeated_silence :
    ∃ r, ((oneLevelState (oneLevelRelayed (.finite 5))).reviseOver ⟨1⟩ (oneLevelEtp []) true).2 =
        .ok r ∧
      ∃ s' out, updateMap .asInserted
          ((oneLevelState (oneLevelRelayed (.finite 5))).reviseOver ⟨1⟩ (oneLevelEtp []) true).1
          r.paths none = (s', .ok out) ∧
        ∀ d, ∀ np ∈ s'.storedAt d, np.path.arcs.head? = some ⟨1⟩ →
          np.path.route = ([⟨0, 1⟩], [⟨1⟩]) := by
  have hrev : ((oneLevelState (oneLevelRelayed (.finite 5))).reviseOver ⟨1⟩ (oneLevelEtp [])
      true).2 = .ok ⟨[⟨0, 1⟩], [NodePath.new ⟨1⟩ (deadPath (oneLevelRelayed (.finite 5)).path),
        NodePath.new ⟨1⟩ (intrinsicPath 1 ⟨0, 1⟩ ⟨1⟩ (Fingerprint.new [1] 0 [0]) 1)]⟩ := by
    rfl
  obtain ⟨v, s', out, hv, hrun, h⟩ :=
    stored_via_arc_repeated oneLevelRelayed_repInv rfl (by decide) hrev .asInserted none
  refine ⟨_, hrev, s', out, hrun, fun d np hnp harc => ?_⟩
  obtain rfl : v = ⟨0, 1⟩ := by
    have hcoord : (oneLevelState (oneLevelRelayed (.finite 5))).myNaddr.hcoord
        (oneLevelEtp []).nodeAddress = .ok (some ⟨0, 1⟩) := by rfl
    rw [hcoord] at hv
    exact (Option.some.inj (Except.ok.inj hv)).symm
  rcases h d np hnp harc with hroute | ⟨p, hp, _⟩
  · exact hroute
  · cases hp

end Netsukuku
