import Mathlib
import Netsukuku.Qspn.Clusters
import Netsukuku.Qspn.Shown
import Netsukuku.Qspn.Splits

/-!
# Two estimates of a g-node's size

A node counts its g-nodes twice.  `update_clusters` adds, level by level, the size each destination
has by the cheapest path that carries the winning fingerprint; neighbours are told these sizes.
`estimate_n_nodes` adds up the published snapshot, where a destination has the size of its first
path: the cheapest of the winning *branch*, which also holds paths of another identity whose seeds
tie with the winner's.  A merge is decided by the second.

* `estimateNNodes` — the sum over the snapshot, down to level 0.
* `Founded` — a node that created its network, past its bootstrap, as it is in every reachable
  state (`Founded.reachable`).
* `heldPath`, `shownPath` — the path each side takes the size of a destination from.
* `stray` — the cheapest path of the branch is of another identity.
* `estimate_agrees_iff` — the estimates agree when the strays weigh the same on both sides.
-/

namespace Netsukuku

variable {F : Type}

/-! ## The sum over the snapshot -/

/-- One entry of the level: what a merge candidate's network holds is passed over. -/
def countEntry (isForeign : Option (HCoord → Bool)) (level counted : ℕ) (e : RouteEntry) :
    Outcome Empty ℕ :=
  if (isForeign.map fun f => f e.destination).getD false then .ok counted
  else
    match e.paths.head? with
    | none => .ok counted
    | some path => Outcome.checkedAdd 64 counted (if level = 0 then 1 else path.nodesInside.toNat)

/-- `estimate_n_nodes`: the level's destinations and the node's own g-node below. -/
def estimateNNodes (snapshot : RouteSnapshot) (isForeign : Option (HCoord → Bool)) :
    ℕ → Outcome Empty ℕ
  | 0 => do
      let counted ← (snapshot[0]?.getD []).foldlM (countEntry isForeign 0) 0
      Outcome.checkedAdd 64 counted 1
  | level + 1 => do
      let counted ← (snapshot[level + 1]?.getD []).foldlM (countEntry isForeign (level + 1)) 0
      let mine ← estimateNNodes snapshot isForeign level
      Outcome.checkedAdd 64 counted mine

/-- What an entry adds. -/
def entrySize (level : ℕ) (e : RouteEntry) : ℕ :=
  match e.paths.head? with
  | none => 0
  | some path => if level = 0 then 1 else path.nodesInside.toNat

/-- What the entries of a level add. -/
def levelSize (snapshot : RouteSnapshot) (level : ℕ) : ℕ :=
  ((snapshot[level]?.getD []).map (entrySize level)).sum

/-- The node and all destinations up to a level. -/
def totalSize (snapshot : RouteSnapshot) : ℕ → ℕ
  | 0 => levelSize snapshot 0 + 1
  | level + 1 => levelSize snapshot (level + 1) + totalSize snapshot level

lemma countEntry_none (level counted : ℕ) (e : RouteEntry) :
    countEntry none level counted e =
      if e.paths = [] then .ok counted else Outcome.checkedAdd 64 counted (entrySize level e) := by
  rw [countEntry, entrySize]
  cases e.paths with
  | nil => simp
  | cons path rest => simp

lemma entrySize_of_nil {level : ℕ} {e : RouteEntry} (h : e.paths = []) : entrySize level e = 0 := by
  rw [entrySize, h]
  rfl

/-- What the loop returned is the sum. -/
lemma foldlM_countEntry {level counted total : ℕ} {l : List RouteEntry}
    (h : l.foldlM (countEntry none level) counted = .ok total) :
    total = counted + (l.map (entrySize level)).sum := by
  induction l generalizing counted with
  | nil =>
      cases h
      simp
  | cons e l ih =>
      rw [List.foldlM_cons] at h
      obtain ⟨counted', hstep, h⟩ := Outcome.bind_eq_ok.mp h
      have hcounted : counted' = counted + entrySize level e := by
        rw [countEntry_none] at hstep
        split_ifs at hstep with hnil
        · cases hstep
          rw [entrySize_of_nil hnil, Nat.add_zero]
        · exact Outcome.checkedAdd_eq_ok hstep
      rw [ih h, hcounted, List.map_cons, List.sum_cons, Nat.add_assoc]

/-- The loop returns as long as the sum fits. -/
lemma foldlM_countEntry_ok {level counted : ℕ} {l : List RouteEntry}
    (h : counted + (l.map (entrySize level)).sum < 2 ^ 64) :
    l.foldlM (countEntry none level) counted = .ok (counted + (l.map (entrySize level)).sum) := by
  induction l generalizing counted with
  | nil => simp
  | cons e l ih =>
      rw [List.map_cons, List.sum_cons, ← Nat.add_assoc] at h ⊢
      have hstep : countEntry none level counted e = .ok (counted + entrySize level e) := by
        rw [countEntry_none]
        split_ifs with hnil
        · rw [entrySize_of_nil hnil, Nat.add_zero]
        · exact Outcome.checkedAdd_of_lt (by omega)
      rw [List.foldlM_cons, hstep, Outcome.ok_bind, ih h]

/-- **The recursion adds up every level**, if the whole fits. -/
lemma estimateNNodes_eq_ok_iff {snapshot : RouteSnapshot} {level v : ℕ} (hv : v < 2 ^ 64) :
    estimateNNodes snapshot none level = .ok v ↔ totalSize snapshot level = v := by
  induction level generalizing v with
  | zero =>
      rw [estimateNNodes, totalSize, levelSize]
      constructor
      · intro h
        obtain ⟨counted, hcounted, h⟩ := Outcome.bind_eq_ok.mp h
        rw [Outcome.checkedAdd_eq_ok h, foldlM_countEntry hcounted, Nat.zero_add]
      · rintro rfl
        rw [foldlM_countEntry_ok (by omega), Outcome.ok_bind, Nat.zero_add]
        exact Outcome.checkedAdd_of_lt hv
  | succ level ih =>
      rw [estimateNNodes, totalSize, levelSize]
      constructor
      · intro h
        obtain ⟨counted, hcounted, h⟩ := Outcome.bind_eq_ok.mp h
        obtain ⟨mine, hmine, h⟩ := Outcome.bind_eq_ok.mp h
        have hsum := Outcome.checkedAdd_eq_ok h
        rw [hsum, foldlM_countEntry hcounted, (ih (by omega)).mp hmine, Nat.zero_add]
      · rintro rfl
        have hmine := (ih (v := totalSize snapshot level) (by omega)).mpr rfl
        rw [foldlM_countEntry_ok (by omega), Outcome.ok_bind, hmine, Outcome.ok_bind, Nat.zero_add]
        exact Outcome.checkedAdd_of_lt hv

/-- Two sums over a list differ by what they do where the summands may. -/
lemma sum_add_sum_filter {α : Type} {f g : α → ℕ} {p : α → Bool} {l : List α}
    (h : ∀ a ∈ l, p a = false → f a = g a) :
    (l.map f).sum + ((l.filter p).map g).sum = (l.map g).sum + ((l.filter p).map f).sum := by
  induction l with
  | nil => rfl
  | cons a l ih =>
      have ih := ih fun b hb => h b (List.mem_cons_of_mem a hb)
      simp only [List.map_cons, List.sum_cons]
      cases hp : p a with
      | true =>
          rw [List.filter_cons_of_pos hp]
          simp only [List.map_cons, List.sum_cons]
          omega
      | false =>
          have heq := h a List.mem_cons_self hp
          rw [List.filter_cons_of_neg (by simp [hp])]
          omega

/-! ## The two paths of a destination -/

namespace QspnState

/-- A node that created its network and is past its bootstrap; level 0 holds it alone. -/
structure Founded (s : QspnState F) : Prop extends RepInv s where
  complete : s.bootstrap = .complete
  own : s.myNodesInside[0]? = some 1

/-- Two states of one node, alone at level 0 and with the bootstrap it has. -/
def SameSelf (s s' : QspnState F) : Prop :=
  s'.bootstrap = s.bootstrap ∧ s'.myNodesInside[0]? = s.myNodesInside[0]?

lemma SameSelf.trans {s s₁ s₂ : QspnState F} (h : SameSelf s s₁) (h' : SameSelf s₁ s₂) :
    SameSelf s s₂ :=
  ⟨h'.1.trans h.1, h'.2.trans h.2⟩

lemma SameSelf.setArcCost (s : QspnState F) (arc : ArcId) (cost : Cost) :
    SameSelf s (s.setArcCost arc cost) := by
  rw [QspnState.setArcCost]
  cases s.arcs.get? arc <;> exact ⟨rfl, rfl⟩

lemma SameSelf.recordPeerNaddr (s : QspnState F) (arc : ArcId) (peer : Naddr) :
    SameSelf s (s.recordPeerNaddr arc peer).1 := by
  rw [QspnState.recordPeerNaddr]
  cases s.arcs.get? arc <;> exact ⟨rfl, rfl⟩

lemma SameSelf.removeArc (s : QspnState F) (arc : ArcId) : SameSelf s (s.removeArc arc).1 := by
  rw [QspnState.removeArc]
  split_ifs <;> exact ⟨rfl, rfl⟩

lemma SameSelf.removeArcs (s : QspnState F) (arcs : List ArcId) :
    SameSelf s (s.removeArcs arcs).1 :=
  QspnState.removeArcs_preserves (P := SameSelf s)
    (fun s₁ arc h => h.trans (.removeArc s₁ arc)) ⟨rfl, rfl⟩ arcs

lemma SameSelf.updateClusters {s s' : QspnState F} {events : List QspnEvent}
    (h : s.updateClusters = (s', .ok events)) : SameSelf s s' :=
  have hstart := (climbed_of_updateClusters h).2
  ⟨hstart.map.bootstrap, hstart.size⟩

lemma SameSelf.exitNetwork {s : QspnState F} (h : RepInv s) (lvl : ℕ) :
    SameSelf s (s.exitNetwork lvl).1 := by
  have h₁ := h.stripDestinations lvl
  obtain ⟨s₂, climbed, h₂, hinv₂, hsame₂⟩ := h₁.updateClusters_ok
  have h₃ := (h₁.sameMap hinv₂ hsame₂).removeArcs (s₂.arcsAtOrAbove lvl)
  obtain ⟨s₄, climbed', h₄, -, -⟩ := h₃.updateClusters_ok
  have hstrip : SameSelf s (s.stripDestinationsAtOrAbove lvl).1 := ⟨rfl, rfl⟩
  simp only [QspnState.exitNetwork, h₂, h₄]
  exact ((hstrip.trans (.updateClusters h₂)).trans (.removeArcs s₂ _)).trans (.updateClusters h₄)

lemma SameSelf.revised {s s' : QspnState F} {q : List NodePath} (h : Revised s s' q) :
    SameSelf s s' := by
  induction h with
  | nil => exact ⟨rfl, rfl⟩
  | @revised s₁ q arc m isFull r _ hc hin hrev ih => exact ih.trans (.recordPeerNaddr s₁ arc _)
  | @rejected s₁ q arc m isFull e _ hc hin hrev ih => exact ih.trans (.recordPeerNaddr s₁ arc _)

/-- **A node that created its network stays one** along every run of operations. -/
lemma Founded.reachable [Float64 F] {s₀ s : QspnState F} (h₀ : s₀.Founded)
    (hrun : Reachable s₀ s) : s.Founded := by
  induction hrun with
  | refl => exact h₀
  | @tail s s' _ hstep ih =>
      have hself : SameSelf s s' := by
        cases hstep with
        | addArc id cost => exact ⟨rfl, rfl⟩
        | setArcCost arc cost => exact .setArcCost s arc cost
        | removeArc arc => exact .removeArc s arc
        | exitNetwork lvl => exact .exitNetwork ih.toRepInv lvl
        | updateClusters =>
            obtain ⟨s', events, h, -, -⟩ := ih.updateClusters_ok
            rw [h]
            exact .updateClusters h
        | record hrev => exact .revised hrev
        | @ingest s₁ q order aChanged hrev =>
            obtain ⟨hframe, -⟩ := updateMap_storedFrom order s₁ q aChanged
            have hmap : SameSelf s₁ (updateMap order s₁ q aChanged).1 :=
              ⟨hframe.bootstrap, by rw [hframe.myNodesInside]⟩
            exact (SameSelf.revised hrev).trans hmap
      exact ⟨hstep.repInv ih.toRepInv, hself.1.trans ih.complete, hself.2.trans ih.own⟩

lemma Founded.new {n : Naddr} {id : List UInt8} {eldership : UInt32} {pending : List UInt32}
    {config : QspnConfig F} {s : QspnState F}
    (h : QspnState.new n (Fingerprint.new id eldership pending) config = .ok s) : s.Founded := by
  refine ⟨(repInv_of_new h).1, ?_, ?_⟩
  all_goals
    obtain ⟨above, -, hs⟩ := Outcome.bind_eq_ok.mp h
    cases hs
    rfl

/-- The fingerprint the stored paths of `d` elect. -/
def winnerOf (d : Destination) : Option Fp := (winningFingerprint d.paths).toOption.join

/-- The cheapest of some paths, the first of several. -/
def cheapest (s : QspnState F) (paths : List NodePath) : Option NodePath :=
  Scan.firstMin (fun np => np.totalCost (s.arcCost np.arc)) paths

/-- The cheapest path that carries the winner's identity. -/
def heldPath (s : QspnState F) (d : Destination) : Option NodePath :=
  (winnerOf d).bind fun winner =>
    s.cheapest (d.paths.filter fun np => np.path.fingerprint.identityEq winner)

/-- The cheapest path of the winner's branch: of its identity, or tied with it by the seeds where
both lead to more than one node. -/
def shownPath (s : QspnState F) (d : Destination) : Option NodePath :=
  (winnerOf d).bind fun winner => (s.heldPath d).bind fun held =>
    s.cheapest (d.paths.filter fun np =>
      np.path.fingerprint.sameBranch winner np.path.nodesInside held.path.nodesInside)

/-- The cheapest path of the branch has another identity than the winner. -/
def stray (s : QspnState F) (d : Destination) : Bool :=
  match winnerOf d, s.shownPath d with
  | some winner, some np => !np.path.fingerprint.identityEq winner
  | _, _ => false

/-- The size a path gives its destination. -/
def sizeBy (np : Option NodePath) : ℕ := (np.map fun np => np.path.nodesInside.toNat).getD 0

/-- The destinations of a level. -/
def destinationsAt (s : QspnState F) (level : ℕ) : List Destination :=
  (s.destinations[level]?.map KeyedMap.values).getD []

/-- The strays of a level. -/
def straysAt (s : QspnState F) (level : ℕ) : List Destination :=
  (s.destinationsAt level).filter s.stray

/-- No level of the climb saturates. -/
def Unsaturated (s : QspnState F) : Prop :=
  ∀ level < s.levels, ∀ m, s.myNodesInside[level]? = some m →
    m.toNat + ((s.siblings level).map (sizeOf level)).sum < 2 ^ 32

variable {s s' : QspnState F} {d : Destination} {level : ℕ}

/-- The cheapest among paths that are looked at with their indices. -/
lemma firstMin_zipIdx (p : NodePath → Bool) {best : NodePath × ℕ}
    (h : Scan.firstMin (fun e : NodePath × ℕ => e.1.totalCost (s.arcCost e.1.arc))
      (d.paths.zipIdx.filter fun e => p e.1) = some best) :
    s.cheapest (d.paths.filter p) = some best.1 := by
  have hfst : d.paths = d.paths.zipIdx.map Prod.fst := by
    rw [List.zipIdx_map_fst]
  rw [cheapest]
  conv_lhs => rw [hfst, List.filter_map, Scan.firstMin_map]
  simp only [Function.comp_def]
  rw [h]
  rfl

/-- **What `evaluate` returns above level 0** is the winner and the size by the held path. -/
lemma evaluate_eq (hd : d.coord.level ≠ 0) {fp : Fp} {nn : UInt32} {i : ℕ}
    (h : d.evaluate s.arcCost = .ok (fp, nn, i)) :
    winnerOf d = some fp ∧ ∃ held, s.heldPath d = some held ∧ held.path.nodesInside = nn := by
  obtain ⟨_, -, h⟩ := Outcome.bind_eq_ok.mp h
  rw [if_neg hd] at h
  obtain ⟨winner?, hwinner, h⟩ := Outcome.bind_eq_ok.mp h
  obtain ⟨winner, hsome, h⟩ := Outcome.bind_eq_ok.mp h
  obtain ⟨best, hbest, h⟩ := Outcome.bind_eq_ok.mp h
  have hwinnerOf : winnerOf d = some winner := by
    rw [winnerOf, hwinner, Outcome.expect_eq_ok.mp hsome]
    rfl
  cases h
  refine ⟨hwinnerOf, best.1, ?_, rfl⟩
  rw [heldPath, hwinnerOf, Option.bind_some]
  exact firstMin_zipIdx _ (Outcome.expect_eq_ok.mp hbest)

/-- A destination stands where its coordinates say. -/
lemma coord_of_mem (hs : MapInv s) (hd : d ∈ s.destinationsAt level) :
    d.coord.level = level ∧ s.destination d.coord.level d.coord.pos = some d := by
  rw [destinationsAt] at hd
  cases hm : s.destinations[level]? with
  | none =>
      rw [hm] at hd
      cases hd
  | some m =>
      rw [hm] at hd
      obtain ⟨pos, hpos⟩ := KeyedMap.mem_values.mp hd
      have hlook : s.destination level pos = some d := hs.destination_of_mem hm hpos
      have hcoord : d.coord = ⟨level, pos⟩ := (hs.dest ⟨level, pos⟩ d hlook).coord
      rw [hcoord]
      exact ⟨rfl, hlook⟩

/-- Above level 0 a destination has a winner, which a path holds. -/
lemma exists_held (hs : MapInv s) (hd : d ∈ s.destinationsAt level) (hlevel : level ≠ 0) :
    ∃ winner held i, winnerOf d = some winner ∧ s.heldPath d = some held ∧
      d.evaluate s.arcCost = .ok (winner, held.path.nodesInside, i) := by
  obtain ⟨hcoord, hlook⟩ := coord_of_mem hs hd
  obtain ⟨⟨winner, nn, i⟩, heval⟩ := hs.evaluate_ok hlook s.arcCost
  obtain ⟨hwinner, held, hheld, rfl⟩ := evaluate_eq (hcoord ▸ hlevel) heval
  exact ⟨winner, held, i, hwinner, hheld, heval⟩

/-- The winner's identity is the held path's. -/
lemma identityEq_of_heldPath {winner : Fp} {held : NodePath} (hwinner : winnerOf d = some winner)
    (hheld : s.heldPath d = some held) :
    held ∈ d.paths ∧ held.path.fingerprint.identityEq winner = true := by
  rw [heldPath, hwinner, Option.bind_some] at hheld
  exact List.mem_filter.mp (Scan.firstMin_mem hheld)

/-- Some path is shown with a winner. -/
lemma exists_shown {winner : Fp} {held : NodePath} (hwinner : winnerOf d = some winner)
    (hheld : s.heldPath d = some held) : ∃ np, s.shownPath d = some np := by
  rw [shownPath, hwinner, Option.bind_some, hheld, Option.bind_some]
  obtain ⟨hmem, hsame⟩ := identityEq_of_heldPath hwinner hheld
  refine Scan.exists_firstMin _ (List.ne_nil_of_mem (List.mem_filter.mpr ⟨hmem, ?_⟩))
  rw [Fingerprint.sameBranch, hsame, Bool.true_or]

/-- **Where no other identity comes first, both sides take the same path.** -/
lemma shownPath_eq_heldPath (h : s.stray d = false) (hheld : (s.heldPath d).isSome = true) :
    s.shownPath d = s.heldPath d := by
  obtain ⟨held, hheld⟩ := Option.isSome_iff_exists.mp hheld
  obtain ⟨winner, hwinner⟩ : ∃ winner, winnerOf d = some winner := by
    cases hw : winnerOf d with
    | none =>
        rw [heldPath, hw] at hheld
        cases hheld
    | some winner => exact ⟨winner, rfl⟩
  obtain ⟨np, hnp⟩ := exists_shown hwinner hheld
  have hsame : np.path.fingerprint.identityEq winner = true := by
    simpa [stray, hwinner, hnp] using h
  have hbranch := hnp
  rw [shownPath, hwinner, Option.bind_some, hheld, Option.bind_some, cheapest] at hbranch
  -- what carries the winner's identity is in its branch
  have hfirst := Scan.firstMin_filter (fun np => np.path.fingerprint.identityEq winner) hbranch hsame
  have hfilter : (d.paths.filter fun np => np.path.fingerprint.sameBranch winner
      np.path.nodesInside held.path.nodesInside).filter
        (fun np => np.path.fingerprint.identityEq winner) =
      d.paths.filter fun np => np.path.fingerprint.identityEq winner := by
    rw [List.filter_filter]
    refine List.filter_congr fun np _ => ?_
    cases hid : np.path.fingerprint.identityEq winner with
    | false => rfl
    | true => simp [Fingerprint.sameBranch, hid]
  rw [hnp, heldPath, hwinner, Option.bind_some, cheapest, ← hfilter, hfirst]

/-! ## The two sums of a level -/

/-- The size a destination has by a path of it; below level 1 it is a single node. -/
def weigh (level : ℕ) (np : Option NodePath) : ℕ := if level = 0 then 1 else sizeBy np

/-- What the climb adds at a level. -/
lemma sum_siblings (hs : MapInv s) (level : ℕ) :
    ((s.siblings level).map (sizeOf level)).sum =
      ((s.destinationsAt level).map fun d => weigh level (s.heldPath d)).sum := by
  have hall : ∀ l : List Destination, (∀ d ∈ l, d ∈ s.destinationsAt level) →
      ((l.filterMap s.evaluated).map (sizeOf level)).sum =
        (l.map fun d => weigh level (s.heldPath d)).sum := by
    intro l
    induction l with
    | nil => exact fun _ => rfl
    | cons d l ih =>
        intro hl
        have hd := hl d List.mem_cons_self
        obtain ⟨e, he, hsize⟩ : ∃ e, s.evaluated d = some e ∧
            sizeOf level e = weigh level (s.heldPath d) := by
          by_cases hlevel : level = 0
          · obtain ⟨-, hlook⟩ := coord_of_mem hs hd
            obtain ⟨⟨fp, nn, i⟩, heval⟩ := hs.evaluate_ok hlook s.arcCost
            refine ⟨(fp, nn), by rw [evaluated, heval], ?_⟩
            rw [sizeOf, if_pos hlevel, weigh, if_pos hlevel]
          · obtain ⟨winner, held, i, -, hheld, heval⟩ := exists_held hs hd hlevel
            refine ⟨(winner, held.path.nodesInside), by rw [evaluated, heval], ?_⟩
            rw [sizeOf, if_neg hlevel, weigh, if_neg hlevel, hheld]
            rfl
        rw [List.filterMap_cons_some he, List.map_cons, List.sum_cons, List.map_cons, List.sum_cons,
          hsize, ih fun d' hd' => hl d' (List.mem_cons_of_mem d hd')]
  exact hall _ fun d hd => hd

/-- The head of the sorted routes is the cheapest path's. -/
lemma head?_routes (s : QspnState F) (exposed : List NodePath) :
    ((exposed.map fun np => toRoutePath np (s.arcCost np.arc)).insertionSort
      fun a b => a.cost ≤ b.cost).head? =
        (s.cheapest exposed).map fun np => toRoutePath np (s.arcCost np.arc) := by
  rw [Scan.head?_insertionSort, Scan.firstMin_map, cheapest]
  rfl

/-- What the snapshot holds of a destination. -/
lemma snapshotEntry_eq (hs : MapInv s) (hd : d ∈ s.destinationsAt level) :
    ∃ e, s.snapshotEntry d = .ok (some e) ∧ entrySize level e = weigh level (s.shownPath d) := by
  obtain ⟨hcoord, hlook⟩ := coord_of_mem hs hd
  have hstored : d.paths ≠ [] := (hs.dest d.coord d hlook).paths_ne_nil
  have hentry : ∀ exposed, s.exposedPaths d.coord = .ok exposed → exposed ≠ [] →
      ∃ e, s.snapshotEntry d = .ok (some e) ∧ e.paths.head? =
        (s.cheapest exposed).map fun np => toRoutePath np (s.arcCost np.arc) := by
    intro exposed hexposed hne
    refine ⟨_, by rw [snapshotEntry, hexposed, Outcome.ok_bind, if_neg hne], ?_⟩
    exact s.head?_routes exposed
  by_cases hlevel : level = 0
  · have hexposed : s.exposedPaths d.coord = .ok d.paths := by
      rw [exposedPaths, hlook]
      simp only [if_neg hstored, if_pos (hcoord.trans hlevel)]
    obtain ⟨e, he, hhead⟩ := hentry _ hexposed hstored
    obtain ⟨np, hnp⟩ := Scan.exists_firstMin (fun np => np.totalCost (s.arcCost np.arc)) hstored
    refine ⟨e, he, ?_⟩
    rw [entrySize, hhead, cheapest, hnp, weigh, if_pos hlevel]
    exact if_pos hlevel
  · obtain ⟨winner, held, i, hwinner, hheld, heval⟩ := exists_held hs hd hlevel
    obtain ⟨np, hnp⟩ := exists_shown hwinner hheld
    have hexposed : s.exposedPaths d.coord = .ok (d.paths.filter fun np =>
        np.path.fingerprint.sameBranch winner np.path.nodesInside held.path.nodesInside) := by
      rw [exposedPaths, hlook]
      simp only [if_neg hstored, if_neg (hcoord ▸ hlevel : d.coord.level ≠ 0), heval]
      rfl
    have hcheapest : s.cheapest (d.paths.filter fun np => np.path.fingerprint.sameBranch winner
        np.path.nodesInside held.path.nodesInside) = some np := by
      rw [shownPath, hwinner, Option.bind_some, hheld, Option.bind_some] at hnp
      exact hnp
    obtain ⟨e, he, hhead⟩ := hentry _ hexposed (List.ne_nil_of_mem (Scan.firstMin_mem hcheapest))
    refine ⟨e, he, ?_⟩
    rw [entrySize, hhead, hcheapest, weigh, if_neg hlevel, hnp]
    exact if_neg hlevel

/-- What the snapshot adds at a level. -/
lemma levelSize_snapshot (hs : MapInv s) (hcomplete : s.bootstrap = .complete)
    {snapshot : RouteSnapshot} (hsnapshot : s.snapshot = .ok snapshot) (hlevel : level < s.levels) :
    levelSize snapshot level =
      ((s.destinationsAt level).map fun d => weigh level (s.shownPath d)).sum := by
  have hguest : s.guestGnodeLevel = s.levels := by
    rw [guestGnodeLevel, hcomplete]
  obtain ⟨m, hm⟩ : ∃ m, s.destinations[level]? = some m :=
    ⟨_, List.getElem?_eq_getElem (hs.length_destinations ▸ hlevel)⟩
  have hrun := Outcome.mapM_eq_ok.mp hsnapshot
  obtain ⟨entries, hentries, hget⟩ : ∃ entries, snapshot[level]? = some (entries.filterMap id) ∧
      m.values.mapM s.snapshotEntry = .ok entries := by
    obtain ⟨hlt, rfl⟩ := List.getElem?_eq_some_iff.mp hm
    have hlt' : level < snapshot.length := by
      rw [← hrun.length_eq, List.length_zipIdx]
      exact hlt
    have hrel := hrun.get (by rw [List.length_zipIdx]; exact hlt) hlt'
    simp only [List.get_eq_getElem, List.getElem_zipIdx, Nat.zero_add, hguest] at hrel
    rw [if_neg (not_le.mpr hlevel)] at hrel
    obtain ⟨entries, hentries, hrel⟩ := Outcome.bind_eq_ok.mp hrel
    refine ⟨entries, ?_, hentries⟩
    rw [List.getElem?_eq_getElem hlt', ← Except.ok.inj hrel]
  have hat : s.destinationsAt level = m.values := by
    rw [destinationsAt, hm]
    rfl
  have hsum : ∀ (l : List Destination) (os : List (Option RouteEntry)),
      (∀ d ∈ l, d ∈ s.destinationsAt level) → l.mapM s.snapshotEntry = .ok os →
        ((os.filterMap id).map (entrySize level)).sum =
          (l.map fun d => weigh level (s.shownPath d)).sum := by
    intro l
    induction l with
    | nil =>
        intro os _ hos
        cases hos
        rfl
    | cons d l ih =>
        intro os hl hos
        obtain ⟨e, he, hsize⟩ := snapshotEntry_eq hs (hl d List.mem_cons_self)
        rw [List.mapM_cons, he, Outcome.ok_bind] at hos
        obtain ⟨os', hos', hos⟩ := Outcome.bind_eq_ok.mp hos
        cases hos
        rw [List.filterMap_cons_some (rfl : id (some e) = some e), List.map_cons, List.sum_cons,
          hsize, List.map_cons,
          List.sum_cons, ih os' (fun d' hd' => hl d' (List.mem_cons_of_mem d hd')) hos']
  rw [levelSize, hentries, Option.getD_some, hat]
  exact hsum m.values entries (fun d hd => hat ▸ hd) hget

/-- The strays and their two paths depend on the map alone. -/
lemma strays_of_sameMap {t : QspnState F} (h : MapInv.SameMap s t) :
    t.straysAt = s.straysAt ∧ t.shownPath = s.shownPath ∧ t.heldPath = s.heldPath := by
  have hcost : t.arcCost = s.arcCost := by
    funext a
    rw [arcCost, h.arcs, arcCost]
  have hcheapest : t.cheapest = s.cheapest := by
    funext paths
    rw [cheapest, hcost, cheapest]
  have hheld : t.heldPath = s.heldPath := by
    funext d
    rw [heldPath, hcheapest, heldPath]
  have hshown : t.shownPath = s.shownPath := by
    funext d
    rw [shownPath, hcheapest, hheld, shownPath]
  have hstray : t.stray = s.stray := by
    funext d
    rw [stray, hshown, stray]
  refine ⟨?_, hshown, hheld⟩
  funext level
  rw [straysAt, destinationsAt, h.destinations, hstray, straysAt, destinationsAt]

/-! ## Agreement -/

/-- The two sums of a level agree when the sums over its strays do. -/
lemma levelSums_eq_iff (hs : MapInv s) (hlevel : level ≠ 0) :
    ((s.destinationsAt level).map fun d => weigh level (s.shownPath d)).sum =
        ((s.destinationsAt level).map fun d => weigh level (s.heldPath d)).sum ↔
      ((s.straysAt level).map fun d => sizeBy (s.shownPath d)).sum =
        ((s.straysAt level).map fun d => sizeBy (s.heldPath d)).sum := by
  have hsame : ∀ d ∈ s.destinationsAt level, s.stray d = false →
      sizeBy (s.shownPath d) = sizeBy (s.heldPath d) := by
    intro d hd hstray
    obtain ⟨winner, held, i, -, hheld, -⟩ := exists_held hs hd hlevel
    rw [shownPath_eq_heldPath hstray (by rw [hheld]; rfl)]
  have hsum := sum_add_sum_filter hsame
  simp only [weigh, if_neg hlevel]
  rw [straysAt]
  omega

/-- The size of the node's own g-node above a level, as the climb adds it up. -/
def heldTotal (s : QspnState F) : ℕ → ℕ
  | 0 => ((s.siblings 0).map (sizeOf 0)).sum + 1
  | level + 1 => ((s.siblings (level + 1)).map (sizeOf (level + 1))).sum + s.heldTotal level

/-- The sizes are the totals, where nothing saturates. -/
lemma size_eq_heldTotal (hown : s.myNodesInside[0]? = some 1) (hclimbed : s.ClimbedTo s.levels)
    (hsat : s.Unsaturated) (hlevel : level < s.levels) :
    ∃ n, s.myNodesInside[level + 1]? = some n ∧ n.toNat = s.heldTotal level := by
  have hstep : ∀ level < s.levels, ∀ m, s.myNodesInside[level]? = some m →
      ∃ n, s.myNodesInside[level + 1]? = some n ∧
        n.toNat = ((s.siblings level).map (sizeOf level)).sum + m.toNat := by
    intro level hlevel m hm
    obtain ⟨f, g, m', n, hc⟩ := hclimbed level hlevel
    obtain rfl := Option.some.inj (hm.symm.trans hc.sizeBelow)
    have hfit := hsat level hlevel m hm
    refine ⟨n, hc.sizeAbove, ?_⟩
    rw [hc.size, min_eq_left (by omega), UInt32.toNat_ofNat_of_lt' hfit, Nat.add_comm]
  induction level with
  | zero => exact hstep 0 hlevel 1 hown
  | succ level ih =>
      obtain ⟨m, hm, hsize⟩ := ih (by omega)
      obtain ⟨n, hn, hsize'⟩ := hstep (level + 1) hlevel m hm
      exact ⟨n, hn, by rw [hsize', hsize, heldTotal]⟩

end QspnState

open QspnState in
/-- **The two estimates agree exactly when the strays weigh the same.**  A destination whose
cheapest path of the winning branch carries the winner's identity has one size on both sides; of
the others, level by level, the sizes by that path and by the winner's own add up to the same. -/
theorem estimate_agrees_iff {s₀ : QspnState F} (h₀ : s₀.Founded) :
    ∃ s events snapshot, s₀.updateClusters = (s, .ok events) ∧ s.snapshot = .ok snapshot ∧
      (s.Unsaturated →
        ((∀ level < s.levels, ∃ n, s.myNodesInside[level + 1]? = some n ∧
          estimateNNodes snapshot none level = .ok n.toNat) ↔
        ∀ level < s₀.levels, 0 < level →
          ((s₀.straysAt level).map fun d => sizeBy (s₀.shownPath d)).sum =
            ((s₀.straysAt level).map fun d => sizeBy (s₀.heldPath d)).sum)) := by
  obtain ⟨s, events, hrun, hs, -⟩ := h₀.updateClusters_ok
  obtain ⟨hclimbed, hstart⟩ := climbed_of_updateClusters hrun
  obtain ⟨snapshot, hsnapshot⟩ := hs.snapshot_ok
  refine ⟨s, events, snapshot, hrun, hsnapshot, fun hsat => ?_⟩
  have hlevels : s.levels = s₀.levels := by rw [levels, hstart.map.myNaddr, levels]
  have hcomplete : s.bootstrap = .complete := hstart.map.bootstrap.trans h₀.complete
  rw [hlevels.symm] at hclimbed
  have hown : s.myNodesInside[0]? = some 1 := hstart.size.trans h₀.own
  obtain ⟨hstrays, hshown, hheld⟩ := strays_of_sameMap hstart.map
  rw [← hstrays, ← hshown, ← hheld, ← hlevels]
  have hlevel : ∀ level < s.levels,
      levelSize snapshot level = ((s.siblings level).map (sizeOf level)).sum ↔
        (0 < level → ((s.straysAt level).map fun d => sizeBy (s.shownPath d)).sum =
          ((s.straysAt level).map fun d => sizeBy (s.heldPath d)).sum) := by
    intro level hlevel
    rw [levelSize_snapshot hs hcomplete hsnapshot hlevel, sum_siblings hs level]
    by_cases h : level = 0
    · simp [h, QspnState.weigh]
    · rw [levelSums_eq_iff hs h]
      exact ⟨fun heq _ => heq, fun heq => heq (Nat.pos_of_ne_zero h)⟩
  have htotal : (∀ level < s.levels, totalSize snapshot level = s.heldTotal level) ↔
      ∀ level < s.levels,
        levelSize snapshot level = ((s.siblings level).map (sizeOf level)).sum := by
    constructor
    · intro h level hlevel
      have heq := h level hlevel
      cases level with
      | zero =>
          rw [totalSize, heldTotal] at heq
          omega
      | succ level =>
          have hbelow := h level (by omega)
          rw [totalSize, heldTotal] at heq
          omega
    · intro h level
      induction level with
      | zero =>
          intro hlevel
          rw [totalSize, heldTotal, h 0 hlevel]
      | succ level ih =>
          intro hlevel
          rw [totalSize, heldTotal, h _ hlevel, ih (by omega)]
  have hestimate : (∀ level < s.levels, ∃ n, s.myNodesInside[level + 1]? = some n ∧
      estimateNNodes snapshot none level = .ok n.toNat) ↔
        ∀ level < s.levels, totalSize snapshot level = s.heldTotal level := by
    refine forall₂_congr fun level hlevel => ?_
    obtain ⟨n, hn, hsize⟩ := size_eq_heldTotal hown hclimbed hsat hlevel
    rw [← hsize, ← estimateNNodes_eq_ok_iff (n.toNat_lt.trans (by norm_num))]
    simp [hn]
  rw [hestimate, htotal]
  exact forall₂_congr hlevel

/-! ## Three paths to one g-node -/

/-- Candidates over current arcs leave a founder one. -/
lemma QspnState.Founded.updateMap [Float64 F] {s : QspnState F} (h : s.Founded)
    (order : MapOrder) {q : List NodePath} (hq : CandidatesOk s.levels q)
    (harcs : ∀ np ∈ q, s.containsArc np.arc = true) (aChanged : Option ArcId) :
    (updateMap order s q aChanged).1.Founded := by
  obtain ⟨s', out, hrun, hs'⟩ := h.toRepInv.updateMap order hq harcs aChanged
  obtain ⟨hframe, -⟩ := updateMap_storedFrom order s q aChanged
  rw [hrun] at hframe ⊢
  exact ⟨hs', hframe.bootstrap.trans h.complete, by rw [hframe.myNodesInside, h.own]⟩

/-- The node with arcs to three neighbours. -/
def threeArcState : QspnState ℚ := twoArcState.addArc ⟨3⟩ (.finite 10)

/-- Two paths of one identity, the cheaper with older news of its seeds, and a third of an elder
that ties with the second. -/
def tied : List NodePath :=
  [.new ⟨1⟩ ⟨[⟨1, 1⟩], [⟨1⟩], .finite 1, ⟨[3], 1, 0, [0], [5]⟩, 2, [false, false]⟩,
    .new ⟨2⟩ ⟨[⟨1, 1⟩], [⟨2⟩], .finite 2, ⟨[3], 1, 0, [0], [3]⟩, 3, [false, false]⟩,
    .new ⟨3⟩ ⟨[⟨1, 1⟩], [⟨3⟩], .finite 3, ⟨[4], 1, 0, [0], [3]⟩, 4, [false, false]⟩]

/-- The node once it has stored them. -/
def tiedState : QspnState ℚ := (updateMap .asInserted threeArcState tied none).1

lemma tied_ok : CandidatesOk threeArcState.levels tied := by
  simp only [CandidatesOk, tied, List.forall_mem_cons]
  refine ⟨⟨⟨1, 1⟩, rfl, rfl, rfl, by decide, rfl⟩, ⟨⟨1, 1⟩, rfl, rfl, rfl, by decide, rfl⟩,
    ⟨⟨1, 1⟩, rfl, rfl, rfl, by decide, rfl⟩, by simp⟩

lemma twoArcState_founded : twoArcState.Founded := ⟨twoArcState_repInv, rfl, rfl⟩

lemma tiedState_founded : tiedState.Founded := by
  have harcs : threeArcState.Founded := ⟨twoArcState_repInv.addArc ⟨3⟩ _, rfl, rfl⟩
  exact harcs.updateMap .asInserted tied_ok (by decide +kernel) none

lemma QspnState.unsaturated_of_le {s : QspnState F} {a b : ℕ}
    (ha : ∀ m ∈ s.myNodesInside, m.toNat ≤ a)
    (hb : ∀ level < s.levels, ((s.siblings level).map (sizeOf level)).sum ≤ b)
    (h : a + b < 2 ^ 32) : s.Unsaturated := by
  intro level hlevel m hm
  have hm' := ha m (List.mem_of_getElem? hm)
  have hlevel' := hb level hlevel
  omega

/-- Neighbours of the node are told that its network has five nodes; its snapshot counts four. -/
theorem not_estimates_agree : ¬∀ (s₀ s : QspnState ℚ) (events : List QspnEvent)
    (snapshot : RouteSnapshot), s₀.Founded → s₀.updateClusters = (s, .ok events) →
      s.Unsaturated → s.snapshot = .ok snapshot → ∀ level < s.levels,
        ∃ n, s.myNodesInside[level + 1]? = some n ∧
          estimateNNodes snapshot none level = .ok n.toNat := by
  intro h
  obtain ⟨s, events, hrun, hs, -⟩ := tiedState_founded.updateClusters_ok
  obtain ⟨snapshot, hsnapshot⟩ := hs.snapshot_ok
  have hlevels : tiedState.updateClusters.1.levels = 2 := by decide +kernel
  have hsizes : tiedState.updateClusters.1.myNodesInside = [1, 1, 5] := by decide +kernel
  have hcounted : (tiedState.updateClusters.1.snapshot.toOption.bind fun snapshot =>
      (estimateNNodes snapshot none 1).toOption) = some 4 := by decide +kernel
  have hsmall : ∀ m ∈ tiedState.updateClusters.1.myNodesInside, m.toNat ≤ 5 := by
    rw [hsizes]
    simp
  have hadded : ∀ level < 2, ((tiedState.updateClusters.1.siblings level).map
      (QspnState.sizeOf level)).sum ≤ 4 := by decide +kernel
  rw [hrun] at hlevels hsizes hcounted hsmall hadded
  have hsat : s.Unsaturated := QspnState.unsaturated_of_le hsmall (fun level hlevel => by
    rw [hlevels] at hlevel
    exact hadded level hlevel) (by norm_num)
  obtain ⟨n, hn, hagree⟩ := h tiedState s events snapshot tiedState_founded hrun hsat hsnapshot 1
    (by rw [hlevels]; exact one_lt_two)
  rw [hsizes] at hn
  rw [hsnapshot] at hcounted
  simp only [Except.toOption, Option.bind_some, hagree] at hcounted
  cases hn
  cases hcounted

/-- Two rival paths, only one of which is shown. -/
theorem estimate_agrees_rivals : ∃ s events snapshot,
    rivalState.updateClusters = (s, .ok events) ∧ s.snapshot = .ok snapshot ∧
      ∀ level < s.levels, ∃ n, s.myNodesInside[level + 1]? = some n ∧
        estimateNNodes snapshot none level = .ok n.toNat := by
  have hfounded : rivalState.Founded :=
    twoArcState_founded.updateMap .asInserted rivals_ok (by decide +kernel) none
  have hlevels : rivalState.levels = 2 := by decide +kernel
  have hlevels' : rivalState.updateClusters.1.levels = 2 := by decide +kernel
  have hsizes : rivalState.updateClusters.1.myNodesInside = [1, 1, 2] := by decide +kernel
  have hsmall : ∀ m ∈ rivalState.updateClusters.1.myNodesInside, m.toNat ≤ 2 := by
    rw [hsizes]
    simp
  have hadded : ∀ level < 2, ((rivalState.updateClusters.1.siblings level).map
      (QspnState.sizeOf level)).sum ≤ 1 := by decide +kernel
  have hstrays : rivalState.straysAt 1 = [] := by decide +kernel
  obtain ⟨s, events, snapshot, hrun, hsnapshot, hiff⟩ := estimate_agrees_iff hfounded
  rw [hrun] at hlevels' hsmall hadded
  have hsat : s.Unsaturated := QspnState.unsaturated_of_le hsmall (fun level hlevel => by
    rw [hlevels'] at hlevel
    exact hadded level hlevel) (by norm_num)
  refine ⟨s, events, snapshot, hrun, hsnapshot, (hiff hsat).mpr fun level hlevel hpos => ?_⟩
  obtain rfl : level = 1 := by omega
  rw [hstrays]
  rfl

end Netsukuku
