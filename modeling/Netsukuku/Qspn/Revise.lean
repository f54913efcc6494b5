import Mathlib
import Netsukuku.Qspn.Validate

/-!
# Revising a received ETP

`revise_etp` turns a message that arrived over an arc into candidates for the map.  Seen from the
receiver the sender is one g-node `v`; the *grouping rule* drops the part of each trail that lies
inside it and puts `v` in front, the *acyclic rule* drops what comes back to the receiver.  A full
ETP withdraws, by its silence, every stored path of the arc it does not repeat.

* `groupHops`, `groupPath` — the grouping rule on the message's trail and on a path.
* `groupedPath` — the same on a path with as many arcs as hops, where it cannot fail.
* `reviseEtp_eq_ok` — everything a successful revision says about its result.
* `reviseEtp_ne_panic` — on an accepted message, revision returns or reports an error.
-/

namespace Netsukuku

/-- A revised message: the trail to forward and the candidates for the map. -/
structure RevisedEtp where
  hops : List HCoord
  paths : List NodePath
  deriving DecidableEq

/-- The coordinate is one of the receiver's own. -/
def onMe (me : Naddr) (g : HCoord) : Bool := decide (me.pos g.level = some g.pos)

/-- The grouping rule: drop the leading hops inside `v`, then put `v` in front. -/
def groupHops (v : HCoord) (hops : List HCoord) : List HCoord :=
  v :: hops.dropWhile fun h => decide (h.level < v.level)

/-- The grouping loop of one path: each hop dropped takes an arc with it. -/
def dropInner (v : HCoord) : List HCoord → List ArcId →
    Outcome QspnError (List HCoord × List ArcId)
  | [], arcs => .ok ([], arcs)
  | h :: hops, arcs =>
      if h.level < v.level then
        match arcs with
        | [] => .error (.panic "removal index (is 0) should be < len (is 0)")
        | _ :: arcs => dropInner v hops arcs
      else .ok (h :: hops, arcs)

/-- The grouping rule on one path. -/
def groupPath (v : HCoord) (arc : ArcId) (p : EtpPath) : Outcome QspnError EtpPath := do
  let (hops, arcs) ← dropInner v p.hops p.arcs
  .ok { p with hops := v :: hops, arcs := arc :: arcs }

/-- The path straight to the sender. -/
def intrinsicPath (levels : ℕ) (v : HCoord) (arc : ArcId) (fp : Fp) (nn : UInt32) : EtpPath where
  hops := [v]
  arcs := [arc]
  cost := .null
  fingerprint := fp
  nodesInside := nn
  ignoreOutside := List.replicate levels false

/-- The withdrawal of a stored path. -/
def deadPath (p : EtpPath) : EtpPath := { p with cost := .dead }

/-- The coordinate the peer's previous address occupied, if it is not the current one. -/
def oldCoord (me : Naddr) (oldPeer : Option Naddr) (v : HCoord) : Option HCoord := do
  let old ← oldPeer
  let oldV ← (me.hcoord old).toOption.join
  if oldV = v then none else some oldV

/-- The withdrawal of the coordinate the peer used to occupy. -/
def movedAway (me : Naddr) (m : EtpMessage) (arc : ArcId) (oldPeer : Option Naddr) (v : HCoord) :
    Outcome QspnError (List EtpPath) :=
  match oldCoord me oldPeer v with
  | none => .ok []
  | some oldV => do
      let fp ← Outcome.index m.fingerprints oldV.level
      let nn ← Outcome.index m.nodesInside oldV.level
      .ok [deadPath (intrinsicPath me.topology.levels oldV arc fp nn)]

/-- The implicit withdrawal of a full ETP: a stored path of the arc that the message does not
repeat becomes a dead candidate. -/
def withdrawals (arc : ArcId) (isFull : Bool) (existing : List NodePath) (paths : List EtpPath) :
    List NodePath :=
  if isFull then
    (existing.filter fun np => !paths.any fun p => np.hopsArcsEqual p).map fun np =>
      NodePath.new arc (deadPath np.path)
  else []

/-- `revise_etp`. -/
def reviseEtp (me : Naddr) (m : EtpMessage) (arc : ArcId) (oldPeer : Option Naddr)
    (isFull : Bool) (existing : List NodePath) : Outcome QspnError RevisedEtp := do
  let levels := me.topology.levels
  if m.fingerprints.length ≠ levels + 1 ∨ m.nodesInside.length ≠ levels + 1 then
    Outcome.fail (.malformedEtp "fingerprints/nodes_inside length must be levels + 1")
  else
    match ← (me.hcoord m.nodeAddress).mapErr QspnError.common with
    | none => Outcome.fail .etpFromSelf
    | some v =>
        let hops := groupHops v m.hops
        if hops.any (onMe me) then Outcome.fail .acyclic
        else
          let kept := m.paths.filter fun p => !(p.ignoreOutside[v.level]?.getD false)
          let grouped ← kept.mapM (groupPath v arc)
          let acyclic := grouped.filter fun p => !p.hops.any (onMe me)
          let senderFp ← Outcome.index m.fingerprints v.level
          if senderFp.level ≠ v.level then
            Outcome.fail (.malformedEtp "sender fingerprint level must equal divergence level")
          else
            let senderNn ← Outcome.index m.nodesInside v.level
            let moved ← movedAway me m arc oldPeer v
            let paths := acyclic ++ intrinsicPath levels v arc senderFp senderNn :: moved
            .ok ⟨hops, withdrawals arc isFull existing paths ++ paths.map (NodePath.new arc)⟩

/-! ## The grouping rule -/

/-- The grouping rule where it cannot fail. -/
def groupedPath (v : HCoord) (arc : ArcId) (p : EtpPath) : EtpPath :=
  { p with
    hops := groupHops v p.hops
    arcs := arc :: p.arcs.drop (p.hops.takeWhile fun h => decide (h.level < v.level)).length }

lemma dropInner_eq (v : HCoord) :
    ∀ {hops : List HCoord} {arcs : List ArcId}, hops.length = arcs.length →
      dropInner v hops arcs = .ok (hops.dropWhile fun h => decide (h.level < v.level),
        arcs.drop (hops.takeWhile fun h => decide (h.level < v.level)).length)
  | [], arcs, _ => rfl
  | h :: hops, arcs, hlen => by
      cases arcs with
      | nil => cases hlen
      | cons a arcs =>
          have hlen' : hops.length = arcs.length := by simpa using hlen
          by_cases hlt : h.level < v.level
          · simp only [dropInner, hlt, if_true, dropInner_eq v hlen', List.dropWhile_cons,
              List.takeWhile_cons, decide_true, List.length_cons, List.drop_succ_cons]
          · simp [dropInner, hlt]

lemma groupPath_eq (v : HCoord) (arc : ArcId) {p : EtpPath} (h : p.hops.length = p.arcs.length) :
    groupPath v arc p = .ok (groupedPath v arc p) := by
  rw [groupPath, dropInner_eq v h]
  rfl

@[simp] lemma groupedPath_cost (v : HCoord) (arc : ArcId) (p : EtpPath) :
    (groupedPath v arc p).cost = p.cost := rfl

@[simp] lemma groupedPath_fingerprint (v : HCoord) (arc : ArcId) (p : EtpPath) :
    (groupedPath v arc p).fingerprint = p.fingerprint := rfl

@[simp] lemma groupedPath_hops (v : HCoord) (arc : ArcId) (p : EtpPath) :
    (groupedPath v arc p).hops = groupHops v p.hops := rfl

lemma mem_groupHops {v g : HCoord} {hops : List HCoord} (h : g ∈ groupHops v hops) :
    g = v ∨ g ∈ hops := by
  rcases List.mem_cons.mp h with h | h
  · exact Or.inl h
  · exact Or.inr ((List.dropWhile_sublist _).subset h)

/-- On an ascending trail the grouping rule keeps exactly the hops at or above `v`'s level. -/
lemma dropWhile_eq_filter {k : ℕ} :
    ∀ {hops : List HCoord}, Ascending hops →
      hops.dropWhile (fun h => decide (h.level < k)) = hops.filter fun h => decide (k ≤ h.level)
  | [], _ => rfl
  | h :: hops, hasc => by
      obtain ⟨hle, hasc⟩ := List.pairwise_cons.mp hasc
      by_cases hlt : h.level < k
      · rw [List.dropWhile_cons_of_pos (by simpa using hlt),
          List.filter_cons_of_neg (by simpa using hlt), dropWhile_eq_filter hasc]
      · have hall : ∀ g ∈ h :: hops, decide (k ≤ g.level) = true := by
          intro g hg
          rcases List.mem_cons.mp hg with rfl | hg
          · simpa using hlt
          · have := hle g hg
            simp only [decide_eq_true_eq]
            omega
        rw [List.dropWhile_cons_of_neg (by simpa using hlt), List.filter_eq_self.mpr hall]

lemma ascending_groupHops {v : HCoord} {hops : List HCoord} (h : Ascending hops) :
    Ascending (groupHops v hops) := by
  refine List.pairwise_cons.mpr ⟨fun g hg => ?_, h.sublist (List.dropWhile_sublist _)⟩
  rw [dropWhile_eq_filter h] at hg
  simpa using (List.mem_filter.mp hg).2

lemma length_groupedPath {v : HCoord} {arc : ArcId} {p : EtpPath}
    (h : p.hops.length = p.arcs.length) :
    (groupedPath v arc p).hops.length = (groupedPath v arc p).arcs.length := by
  have hsplit := List.takeWhile_append_dropWhile (p := fun h : HCoord => decide (h.level < v.level))
    (l := p.hops)
  have hlen := congrArg List.length hsplit
  rw [List.length_append] at hlen
  simp only [groupedPath, groupHops, List.length_cons, List.length_drop]
  omega

/-- The grouping rule keeps the destination of a path that reaches `v`'s level. -/
lemma getLast_groupHops {v : HCoord} {hops : List HCoord} (hne : hops ≠ [])
    (hlev : v.level ≤ (hops.getLast hne).level) :
    (groupHops v hops).getLast (List.cons_ne_nil _ _) = hops.getLast hne := by
  have hd : hops.dropWhile (fun h => decide (h.level < v.level)) ≠ [] := by
    intro h
    have := List.dropWhile_eq_nil_iff.mp h _ (List.getLast_mem hne)
    simp only [decide_eq_true_eq] at this
    omega
  simp only [groupHops, List.getLast_cons hd]
  exact (List.dropWhile_suffix _).getLast hd

/-! ## What a revision returns -/

/-- The paths of `m` that a receiver who sees the sender as `v` keeps: valid outside, regrouped,
and not coming back to it. -/
def survivors (me : Naddr) (m : EtpMessage) (arc : ArcId) (v : HCoord) : List EtpPath :=
  ((m.paths.filter fun p => !(p.ignoreOutside[v.level]?.getD false)).map (groupedPath v arc)).filter
    fun p => !p.hops.any (onMe me)

lemma mem_survivors {me : Naddr} {m : EtpMessage} {arc : ArcId} {v : HCoord} {p : EtpPath} :
    p ∈ survivors me m arc v ↔
      ∃ p₀ ∈ m.paths, p₀.ignoreOutside[v.level]?.getD false = false ∧ groupedPath v arc p₀ = p ∧
        ∀ g ∈ p.hops, me.pos g.level ≠ some g.pos := by
  simp only [survivors, List.mem_filter, List.mem_map, Bool.not_eq_true', onMe,
    List.any_eq_false, decide_eq_true_eq]
  constructor
  · rintro ⟨⟨p₀, ⟨hp₀, hign⟩, rfl⟩, hcyc⟩
    exact ⟨p₀, hp₀, hign, rfl, hcyc⟩
  · rintro ⟨p₀, hp₀, hign, rfl, hcyc⟩
    exact ⟨⟨p₀, ⟨hp₀, hign⟩, rfl⟩, hcyc⟩

/-- **Inversion of a successful revision** of a message whose paths have as many arcs as hops. -/
theorem reviseEtp_eq_ok {me : Naddr} {m : EtpMessage} {arc : ArcId} {oldPeer : Option Naddr}
    {isFull : Bool} {existing : List NodePath} {r : RevisedEtp}
    (hlen : ∀ p ∈ m.paths, p.hops.length = p.arcs.length) :
    reviseEtp me m arc oldPeer isFull existing = .ok r ↔
      m.fingerprints.length = me.topology.levels + 1 ∧
      m.nodesInside.length = me.topology.levels + 1 ∧
      ∃ v fp nn moved, me.hcoord m.nodeAddress = .ok (some v) ∧
        (∀ g ∈ groupHops v m.hops, me.pos g.level ≠ some g.pos) ∧
        m.fingerprints[v.level]? = some fp ∧ fp.level = v.level ∧
        m.nodesInside[v.level]? = some nn ∧
        movedAway me m arc oldPeer v = .ok moved ∧
        r = ⟨groupHops v m.hops,
          let paths := survivors me m arc v ++
            intrinsicPath me.topology.levels v arc fp nn :: moved
          withdrawals arc isFull existing paths ++ paths.map (NodePath.new arc)⟩ := by
  have hgroup : ∀ v, (m.paths.filter fun p => !(p.ignoreOutside[v.level]?.getD false)).mapM
      (groupPath v arc) = .ok ((m.paths.filter fun p =>
        !(p.ignoreOutside[v.level]?.getD false)).map (groupedPath v arc)) := by
    intro v
    exact Outcome.mapM_of_forall fun p hp => groupPath_eq v arc (hlen p (List.mem_filter.mp hp).1)
  unfold reviseEtp
  simp only
  split_ifs with hlens
  · refine iff_of_false (by simp [Outcome.fail]) ?_
    rintro ⟨h₁, h₂, _⟩
    exact hlens.elim (fun h => h h₁) fun h => h h₂
  · rw [not_or, not_not, not_not] at hlens
    simp only [hlens, true_and]
    rw [Outcome.bind_eq_ok]
    constructor
    · rintro ⟨o, ho, h⟩
      rw [Outcome.mapErr_eq_ok] at ho
      cases o with
      | none => cases h
      | some v =>
          simp only [hgroup, Outcome.ok_bind] at h
          split_ifs at h with hcyc
          · cases h
          · obtain ⟨fp, hfp, h⟩ := Outcome.bind_eq_ok.mp h
            split_ifs at h with hfl
            · cases h
            · obtain ⟨nn, hnn, h⟩ := Outcome.bind_eq_ok.mp h
              obtain ⟨moved, hmoved, h⟩ := Outcome.bind_eq_ok.mp h
              refine ⟨v, fp, nn, moved, ho, ?_, Outcome.index_eq_ok.mp hfp, not_not.mp hfl,
                Outcome.index_eq_ok.mp hnn, hmoved, (Except.ok.inj h).symm⟩
              simpa [onMe] using hcyc
    · rintro ⟨v, fp, nn, moved, ho, hcyc, hfp, hfl, hnn, hmoved, rfl⟩
      refine ⟨some v, Outcome.mapErr_eq_ok.mpr ho, ?_⟩
      have hcyc' : ¬ (groupHops v m.hops).any (onMe me) = true := by simpa [onMe] using hcyc
      simp only [hgroup, Outcome.ok_bind, if_neg hcyc', Outcome.index_eq_ok.mpr hfp, hfl,
        ne_eq, not_true_eq_false, if_false, Outcome.index_eq_ok.mpr hnn, hmoved]
      rfl

/-- The coordinate a peer used to occupy lies in the topology and is not its current one. -/
lemma oldCoord_eq_some {me : Naddr} {oldPeer : Option Naddr} {v oldV : HCoord}
    (h : oldCoord me oldPeer v = some oldV) :
    oldV ≠ v ∧ ∃ old, oldPeer = some old ∧ me.hcoord old = .ok (some oldV) := by
  cases oldPeer with
  | none => cases h
  | some old =>
      simp only [oldCoord, Option.bind_eq_bind, Option.bind_some] at h
      cases hh : me.hcoord old with
      | error e => rw [hh] at h; cases h
      | ok o =>
          rw [hh] at h
          cases o with
          | none => cases h
          | some w =>
              simp only [Except.toOption, Option.join_some, Option.bind_some] at h
              split_ifs at h with hw
              cases h
              exact ⟨hw, old, rfl, hh⟩

/-- The withdrawal of a coordinate the peer left never fails, and is a dead one-hop path. -/
lemma movedAway_ok {me : Naddr} {m : EtpMessage} {arc : ArcId} {oldPeer : Option Naddr}
    {v : HCoord} (hfp : m.fingerprints.length = me.topology.levels + 1)
    (hnn : m.nodesInside.length = me.topology.levels + 1) :
    ∃ moved, movedAway me m arc oldPeer v = .ok moved ∧ ∀ p ∈ moved, ∃ oldV fp nn,
      oldCoord me oldPeer v = some oldV ∧ m.fingerprints[oldV.level]? = some fp ∧
        p = deadPath (intrinsicPath me.topology.levels oldV arc fp nn) := by
  unfold movedAway
  cases h : oldCoord me oldPeer v with
  | none => exact ⟨[], rfl, by simp⟩
  | some oldV =>
      obtain ⟨_, old, _, hold⟩ := oldCoord_eq_some h
      have hlev := (Naddr.hcoord_eq_some.mp hold).2.1
      have hf : oldV.level < m.fingerprints.length := by omega
      have hn : oldV.level < m.nodesInside.length := by omega
      simp only [Outcome.index_of_lt hf, Outcome.index_of_lt hn, Outcome.ok_bind]
      refine ⟨_, rfl, fun p hp => ⟨oldV, m.fingerprints[oldV.level], m.nodesInside[oldV.level],
        rfl, List.getElem?_eq_getElem hf, ?_⟩⟩
      simpa using hp

/-- **Revision of an accepted message returns or reports an error**; it never panics. -/
theorem reviseEtp_ne_panic {me : Naddr} {m : EtpMessage} (h : checkIncomingMessage m me = true)
    (arc : ArcId) (oldPeer : Option Naddr) (isFull : Bool) (existing : List NodePath) :
    (∃ r, reviseEtp me m arc oldPeer isFull existing = .ok r) ∨
      ∃ e, reviseEtp me m arc oldPeer isFull existing = .error (.err e) := by
  obtain ⟨ht, hne, hw⟩ := checkIncomingMessage_iff.mp h
  have hlen : ∀ p ∈ m.paths, p.hops.length = p.arcs.length := fun p hp =>
    (hw.paths_ok p hp).length_arcs
  obtain ⟨v, hv⟩ := Naddr.exists_hcoord_of_ne ht.symm hne.symm
  have hlev := (Naddr.hcoord_eq_some.mp hv).2.1
  by_cases hnn : m.nodesInside.length = me.topology.levels + 1
  · by_cases hcyc : ∀ g ∈ groupHops v m.hops, me.pos g.level ≠ some g.pos
    · have hf : v.level < m.fingerprints.length := by rw [hw.length_fingerprints]; omega
      have hn : v.level < m.nodesInside.length := by omega
      obtain ⟨moved, hmoved, _⟩ : ∃ moved, movedAway me m arc oldPeer v = .ok moved ∧ _ :=
        movedAway_ok hw.length_fingerprints hnn
      have hfp := List.getElem?_eq_getElem hf
      exact Or.inl ⟨_, (reviseEtp_eq_ok hlen).mpr ⟨hw.length_fingerprints, hnn, v, _, _, moved, hv,
        hcyc, hfp, hw.fingerprint_level _ _ hfp, List.getElem?_eq_getElem hn, hmoved, rfl⟩⟩
    · have hany : (groupHops v m.hops).any (onMe me) = true := by
        push Not at hcyc
        simpa [onMe] using hcyc
      refine Or.inr ⟨.acyclic, ?_⟩
      unfold reviseEtp
      rw [if_neg (by simp [hw.length_fingerprints, hnn]), hv, Outcome.mapErr_ok, Outcome.ok_bind]
      exact if_pos hany
  · exact Or.inr ⟨.malformedEtp "fingerprints/nodes_inside length must be levels + 1",
      by simp [reviseEtp, hnn, Outcome.fail]⟩

end Netsukuku
