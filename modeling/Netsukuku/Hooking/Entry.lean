import Mathlib
import Netsukuku.Hooking.Shift

/-!
# Taking an entry

The guest g-node of level `lvl` is told positions, and each of its members puts them on top of its
own positions below `lvl`.  That makes an address only if the positions are as many as the levels
from `lvl` up.  How many there are is decided by the host: it depends on the level at which its
coordinator made a reservation.

* `combineEntryNaddr` — the address of one member.
* `EntryApplies` — every member has one; `entryApplies_iff` — which positions make that so.
* `searchMigrationPath_applies_iff` — which answers lead to such positions.
-/

namespace Netsukuku

namespace Naddr

/-- An address is real if every position has room at its level. -/
lemma isReal_iff {n : Naddr} : n.IsReal ↔
    ∀ (i : ℕ) (p g : UInt32), n.positions[i]? = some p → n.topology.gsizes[i]? = some g →
      p.toNat < g.toNat := by
  constructor
  · intro h i p g hp hg
    obtain ⟨p', g', hp', hg', hlt⟩ := isVirtualAt_eq_false.mp (h i (lt_levels_of_pos hp))
    cases hp.symm.trans hp'
    cases hg.symm.trans hg'
    exact hlt
  · intro h i hi
    obtain ⟨p, hp⟩ := exists_pos hi
    obtain ⟨g, hg⟩ := Topology.exists_gsize hi
    exact isVirtualAt_eq_false.mpr ⟨p, g, hp, hg, h i p g hp hg⟩

/-- The scan of `Naddr::new` finds no position without room. -/
lemma find?_eq_none_iff {t : Topology} {ps : List UInt32} :
    ((ps.zip t.gsizes).zipIdx.find? fun e => e.1.2.toNat ≤ e.1.1.toNat) = none ↔
      ∀ (i : ℕ) (p g : UInt32), ps[i]? = some p → t.gsizes[i]? = some g →
        p.toNat < g.toNat := by
  simp only [List.find?_eq_none, decide_eq_true_eq, not_le, Prod.forall, List.mem_zipIdx_iff_getElem?,
    List.getElem?_zip_eq_some]
  exact ⟨fun h i p g hp hg => h p g i ⟨hp, hg⟩, fun h p g i hpg => h i p g hpg.1 hpg.2⟩

/-- The addresses `Naddr::new` makes are the real ones. -/
lemma new_eq_ok {t : Topology} {ps : List UInt32} {n : Naddr} :
    Naddr.new t ps = .ok n ↔ n.topology = t ∧ n.positions = ps ∧ n.IsReal := by
  obtain ⟨t', ps', hlen⟩ := n
  unfold Naddr.new
  constructor
  · intro h
    split_ifs at h with hlen'
    · split at h
      · cases h
      · rename_i hfind
        cases h
        exact ⟨rfl, rfl, isReal_iff.mpr (find?_eq_none_iff.mp hfind)⟩
    · cases h
  · rintro ⟨rfl, rfl, hreal⟩
    rw [dif_pos hlen, find?_eq_none_iff.mpr (isReal_iff.mp hreal)]

end Naddr

namespace Hooking

/-! ## The address of a member -/

/-- `combine_entry_naddr`. -/
def combineEntryNaddr (topology : Topology) (currentPositions : List UInt32)
    (guestGnodeLevel : ℕ) (entryPos : List UInt32) : Option Naddr :=
  if currentPositions.length < guestGnodeLevel then none
  else (Naddr.new topology (currentPositions.take guestGnodeLevel ++ entryPos)).toOption

lemma combineEntryNaddr_eq_some {t : Topology} {cur entryPos : List UInt32} {lvl : ℕ}
    {addr : Naddr} : combineEntryNaddr t cur lvl entryPos = some addr ↔
      lvl ≤ cur.length ∧ addr.topology = t ∧ addr.positions = cur.take lvl ++ entryPos ∧
        addr.IsReal := by
  unfold combineEntryNaddr
  split_ifs with h
  · simp only [false_iff, not_and]
    exact fun h' => absurd h' (not_le.mpr h)
  · rw [← Naddr.new_eq_ok, and_iff_right (not_lt.mp h)]
    cases Naddr.new t (cur.take lvl ++ entryPos) <;> simp [Except.toOption]

/-- **The entry can be applied**: every member gets a real address that keeps its positions below
`lvl`; all share the positions from `lvl` up, and members that differ below `lvl` still differ. -/
structure EntryApplies (t : Topology) (lvl : ℕ) (entryPos : List UInt32) : Prop where
  total : ∀ cur : Naddr, cur.topology = t → cur.IsReal →
    ∃ addr, combineEntryNaddr t cur.positions lvl entryPos = some addr ∧ addr.IsReal ∧
      ∀ i < lvl, addr.pos i = cur.pos i
  shared : ∀ cur cur' addr addr' : Naddr,
    cur.topology = t → cur.IsReal → cur'.topology = t → cur'.IsReal →
    combineEntryNaddr t cur.positions lvl entryPos = some addr →
    combineEntryNaddr t cur'.positions lvl entryPos = some addr' →
    ∀ i, lvl ≤ i → addr.pos i = addr'.pos i
  distinct : ∀ cur cur' addr addr' : Naddr,
    cur.topology = t → cur.IsReal → cur'.topology = t → cur'.IsReal →
    combineEntryNaddr t cur.positions lvl entryPos = some addr →
    combineEntryNaddr t cur'.positions lvl entryPos = some addr' →
    (∃ i < lvl, cur.pos i ≠ cur'.pos i) → addr ≠ addr'

/-- The positions of level `lvl` and up, all of them with room. -/
structure RealFrom (t : Topology) (lvl : ℕ) (pos : List UInt32) : Prop where
  length : lvl + pos.length = t.levels
  room : ∀ (i : ℕ) (p g : UInt32), pos[i]? = some p → t.gsizes[lvl + i]? = some g → p.toNat < g.toNat

/-- The address with position 0 at every level. -/
def zeroNaddr (t : Topology) : Naddr := ⟨t, List.replicate t.levels 0, List.length_replicate⟩

lemma isReal_zeroNaddr (t : Topology) : (zeroNaddr t).IsReal := by
  rw [Naddr.isReal_iff]
  intro i p g hp hg
  have hzero := List.eq_of_mem_replicate (List.mem_of_getElem? hp)
  rw [hzero]
  exact t.gsize_pos g (List.mem_of_getElem? hg)

section Member

variable {t : Topology} {lvl : ℕ} {entryPos : List UInt32} {cur addr : Naddr}

/-- What the address of a member is made of. -/
lemma pos_of_combine
    (h : combineEntryNaddr t cur.positions lvl entryPos = some addr) :
    (∀ i < lvl, addr.pos i = cur.pos i) ∧ ∀ i, lvl ≤ i → addr.pos i = entryPos[i - lvl]? := by
  obtain ⟨hle, -, hpos, -⟩ := combineEntryNaddr_eq_some.mp h
  have htake : (cur.positions.take lvl).length = lvl := by
    rw [List.length_take, Nat.min_eq_left hle]
  refine ⟨fun i hi => ?_, fun i hi => ?_⟩
  · rw [Naddr.pos, hpos, List.getElem?_append_left (by omega), List.getElem?_take, if_pos hi,
      Naddr.pos]
  · rw [Naddr.pos, hpos, List.getElem?_append_right (by omega), htake]

/-- The positions a member keeps are real, so the address is if the others are. -/
lemma exists_combine (hcur : cur.topology = t) (hreal : cur.IsReal)
    (h : RealFrom t lvl entryPos) :
    ∃ addr, combineEntryNaddr t cur.positions lvl entryPos = some addr := by
  have hlen : cur.positions.length = t.levels := hcur ▸ cur.length_positions
  have hle : lvl ≤ cur.positions.length := by
    have := h.length
    omega
  have htake : (cur.positions.take lvl).length = lvl := by
    rw [List.length_take, Nat.min_eq_left hle]
  refine ⟨⟨t, cur.positions.take lvl ++ entryPos, by rw [List.length_append, htake, h.length]⟩,
    combineEntryNaddr_eq_some.mpr ⟨hle, rfl, rfl, Naddr.isReal_iff.mpr fun i p g hp hg => ?_⟩⟩
  rcases Nat.lt_or_ge i lvl with hi | hi
  · rw [List.getElem?_append_left (by omega), List.getElem?_take, if_pos hi] at hp
    exact Naddr.isReal_iff.mp hreal i p g hp (hcur ▸ hg)
  · rw [List.getElem?_append_right (by omega), htake] at hp
    exact h.room (i - lvl) p g hp (by rwa [Nat.add_sub_cancel' hi])

end Member

/-- **Which positions can be applied**: those of `lvl` and up, no more and no fewer, with room. -/
theorem entryApplies_iff {t : Topology} {lvl : ℕ} {entryPos : List UInt32} :
    EntryApplies t lvl entryPos ↔ RealFrom t lvl entryPos := by
  constructor
  · intro h
    obtain ⟨addr, hcombine, hreal, -⟩ := h.total (zeroNaddr t) rfl (isReal_zeroNaddr t)
    obtain ⟨hle, htop, hpos, -⟩ := combineEntryNaddr_eq_some.mp hcombine
    have htake : ((zeroNaddr t).positions.take lvl).length = lvl := by
      rw [List.length_take, Nat.min_eq_left hle]
    refine ⟨?_, fun i p g hp hg => ?_⟩
    · rw [← htop, ← addr.length_positions, hpos, List.length_append, htake]
    · refine Naddr.isReal_iff.mp hreal (lvl + i) p g ?_ (htop ▸ hg)
      rw [hpos, List.getElem?_append_right (by omega), htake, Nat.add_sub_cancel_left]
      exact hp
  · intro h
    refine ⟨fun cur hcur hreal => ?_, ?_, ?_⟩
    · obtain ⟨addr, hcombine⟩ := exists_combine hcur hreal h
      obtain ⟨-, -, -, haddr⟩ := combineEntryNaddr_eq_some.mp hcombine
      exact ⟨addr, hcombine, haddr, (pos_of_combine hcombine).1⟩
    · intro cur cur' addr addr' _ _ _ _ hcombine hcombine' i hi
      rw [(pos_of_combine hcombine).2 i hi, (pos_of_combine hcombine').2 i hi]
    · rintro cur cur' addr addr' _ _ _ _ hcombine hcombine' ⟨i, hi, hne⟩ rfl
      refine hne ?_
      rw [← (pos_of_combine hcombine).1 i hi,
        ← (pos_of_combine hcombine').1 i hi]

/-! ## The positions a host gives -/

lemma realFrom_cons_iff {t : Topology} {lvl : ℕ} {p : UInt32} {pos : List UInt32} :
    RealFrom t lvl (p :: pos) ↔
      RealFrom t (lvl + 1) pos ∧ ∀ g, t.gsizes[lvl]? = some g → p.toNat < g.toNat := by
  constructor
  · intro h
    refine ⟨⟨?_, fun i q g hq hg => ?_⟩, fun g hg => h.room 0 p g rfl hg⟩
    · rw [← h.length, List.length_cons]
      omega
    · refine h.room (i + 1) q g hq ?_
      rwa [show lvl + (i + 1) = lvl + 1 + i by omega]
  · rintro ⟨h, hp⟩
    refine ⟨?_, ?_⟩
    · rw [← h.length, List.length_cons]
      omega
    · rintro (_ | i) q g hq hg
      · cases hq
        exact hp g hg
      · refine h.room i q g hq ?_
        rwa [show lvl + 1 + i = lvl + (i + 1) by omega]

section Host

variable {view : QspnView}

lemma gsize_eq {i : ℕ} {g : UInt32} (h : view.topology.gsizes[i]? = some g) :
    view.gsize i = g.toNat := by
  rw [QspnView.gsize, Topology.gsize, h, Option.map_some, Option.getD_some]

lemma room_iff {lvl : ℕ} (hlvl : lvl < view.levels) {p : UInt32} :
    (∀ g, view.topology.gsizes[lvl]? = some g → p.toNat < g.toNat) ↔
      p.toNat < view.gsize lvl := by
  obtain ⟨g, hg⟩ := Topology.exists_gsize hlvl
  rw [gsize_eq hg]
  constructor
  · exact fun h => h g hg
  · rintro h g' hg'
    cases hg.symm.trans hg'
    exact h

/-- The upper positions of a real address are real. -/
lemma realFrom_tuple (hreal : view.IsReal) {l k : ℕ} {pos : List UInt32}
    (h : pos = (makeTupleFromLevel l view).pos.drop k) :
    RealFrom view.topology (view.levels - pos.length) pos := by
  have hlen : pos.length = view.levels - l - k := by
    rw [h, List.length_drop, makeTupleFromLevel, List.length_map, List.length_range']
  refine ⟨?_, fun i p g hp hg => ?_⟩
  · show view.levels - pos.length + pos.length = view.levels
    omega
  · have hi : i < pos.length := (List.getElem?_eq_some_iff.mp hp).1
    have hrange : p = view.myPos (l + (k + i)) := by
      rw [h, List.getElem?_drop, makeTupleFromLevel, List.getElem?_map,
        List.getElem?_range' (by omega), Option.map_some, Nat.one_mul] at hp
      exact (Option.some.inj hp).symm
    rw [show view.levels - pos.length + i = l + (k + i) by omega] at hg
    rw [hrange, ← gsize_eq hg]
    exact hreal _ (by omega)

variable {F : Type} [Float64 F] {router : SearchRouter} {id : Int32} {first ok : ℕ}
  {sol : MigrationSolution}

/-- A reservation for the root was made by the first answer. -/
lemma Asked.of_root {g : TupleGNode} {step : SearchStepResult}
    (h : Asked view (Made F view router id first ok) (rootStep view first) g [] step) :
    router.sendSearchRequest 0 (getPathHops (rootStep view first)) view.levels id = some step ∧
      min first view.levels ≤ step.minHostLvl ∧
      g.pos.length = view.levels - step.minHostLvl := by
  obtain ⟨k, current, maxHostLvl, hmade, -, htrunc, hroot⟩ := h.request
  obtain ⟨rfl, rfl, rfl⟩ := hroot rfl
  obtain ⟨b, -, -, -, -, -, hans⟩ := hmade
  obtain ⟨-, hlen, -, -, hglen, -⟩ := TupleGNode.truncateToLevel_eq_some htrunc
  refine ⟨hans, ?_, hglen⟩
  have hroot : (rootStep view first).data.visitingGnode.pos.length = view.levels - first := by
    rw [rootStep, makeTupleFromLevel, List.length_map, List.length_range']
  have := h.min_le_final.trans h.final_le
  omega

/-- Whether the entry of a solution can be applied, by what the first answer was: it has to be of
the level above the guest; with a position of the host itself it also has to have found that at
this level, and a position that a g-node at the border leaves has to be real. -/
def EntryFits (view : QspnView) (router : SearchRouter) (id : Int32) (first lvl : ℕ)
    (sol : MigrationSolution) : Prop :=
  ∃ answer, router.sendSearchRequest 0 (getPathHops (rootStep view first)) view.levels id =
      some answer ∧ answer.minHostLvl = lvl + 1 ∧
    (sol.distance = 0 → answer.finalHostLvl = lvl + 1) ∧
    ∀ g ∈ (moversOf sol.leaf.chain).getLast?, ∀ b ∈ g.pos.head?, b.toNat < view.gsize lvl

variable {lvl : ℕ}

/-- A position in the host itself. -/
lemma realFrom_direct_iff (hreal : view.IsReal) (hlvl : lvl < view.levels) {final : ℕ}
    (hfinal : final ≤ view.levels) {p : UInt32} (hp : p.toNat < view.gsize (final - 1)) :
    RealFrom view.topology lvl (p :: (makeTupleFromLevel final view).pos) ↔ final = lvl + 1 := by
  have hlen : (makeTupleFromLevel final view).pos.length = view.levels - final := by
    rw [makeTupleFromLevel, List.length_map, List.length_range']
  have htuple := realFrom_tuple hreal (l := final) (k := 0) (List.drop_zero).symm
  constructor
  · intro h
    have := h.length
    rw [List.length_cons, hlen, ← QspnView.levels] at this
    omega
  · rintro rfl
    refine realFrom_cons_iff.mpr ⟨?_, (room_iff hlvl).mpr hp⟩
    rwa [hlen, Nat.sub_sub_self hfinal] at htuple

/-- A position that a g-node at the border leaves. -/
lemma realFrom_border_iff (hreal : view.IsReal) (hlvl : lvl < view.levels) {min l k : ℕ}
    (hmin : min ≤ view.levels) {pos : List UInt32}
    (hpos : pos = (makeTupleFromLevel l view).pos.drop k) (hlen : pos.length = view.levels - min)
    {p : UInt32} :
    RealFrom view.topology lvl (p :: pos) ↔ min = lvl + 1 ∧ p.toNat < view.gsize lvl := by
  have htuple := realFrom_tuple hreal hpos
  rw [hlen, Nat.sub_sub_self hmin] at htuple
  constructor
  · intro h
    have hlength := h.length
    rw [List.length_cons, hlen, ← QspnView.levels] at hlength
    exact ⟨by omega, (room_iff hlvl).mp (realFrom_cons_iff.mp h).2⟩
  · rintro ⟨rfl, hp⟩
    exact realFrom_cons_iff.mpr ⟨htuple, (room_iff hlvl).mpr hp⟩

/-- **The entry of a solution** can be applied exactly if the first answer fits the guest. -/
theorem resolveEntryData_applies_iff (hreal : view.IsReal) (hshape : Shaped view router)
    (hsol : SolutionOk view (Made F view router id first ok) (rootStep view first) sol)
    (hlvl : lvl < view.levels) (hfirst : lvl + 1 ≤ first) {entry : EntryData}
    (h : sol.resolveEntryData view = .ok entry) :
    EntryApplies view.topology lvl entry.pos ↔ EntryFits view router id first lvl sol := by
  rw [entryApplies_iff]
  rcases Nat.eq_zero_or_pos sol.distance with hd | hd
  · have hparents : sol.leaf.parents = [] := List.length_eq_zero_iff.mp hd
    have hleaf : sol.leaf.chain = [sol.leaf.data] := by rw [SolutionStep.chain, hparents]
    obtain ⟨step, hasked, hfinal, hpos, -⟩ := hsol.answer
    rw [hparents] at hasked
    obtain ⟨hans, hmin, -⟩ := hasked.of_root
    have hentry : entry.pos = sol.realNewPos :: (makeTupleFromLevel sol.finalHostLvl view).pos := by
      unfold MigrationSolution.resolveEntryData at h
      rw [hleaf] at h
      cases h
      rfl
    have hroom := (hshape _ _ _ _ _ hans).room hpos
    have hle := hasked.min_le_final
    have hmovers : moversOf sol.leaf.chain = [] := by
      have hchain := hsol.chain
      rw [hleaf] at hchain ⊢
      exact moversOf_root hchain
    rw [hfinal] at hroom
    rw [hentry, realFrom_direct_iff hreal hlvl (hfinal ▸ hasked.final_le) hroom]
    constructor
    · intro heq
      refine ⟨step, hans, by omega, fun _ => hfinal.trans heq, fun g hg => ?_⟩
      rw [hmovers] at hg
      cases hg
    · rintro ⟨answer, hanswer, -, heq, -⟩
      cases hans.symm.trans hanswer
      exact hfinal.symm.trans (heq hd)
  · obtain ⟨entry', last, second, step, border, hentry', hmover, hlink, hroot, hpos⟩ :=
      resolveEntryData_eq hsol.chain hd
    cases h.symm.trans hentry'
    obtain ⟨hans, -, hlen⟩ := hlink.asked.of_root
    have hle := hlink.asked.min_le_final.trans hlink.asked.final_le
    cases hroot with
    | root _ _ htuple =>
        obtain ⟨k, htuple⟩ := htuple
        rw [hpos, realFrom_border_iff hreal hlvl hle htuple hlen]
        constructor
        · rintro ⟨hmin, hborder⟩
          refine ⟨step, hans, hmin, fun hzero => absurd hzero hd.ne', fun g hg b hb => ?_⟩
          cases hmover.symm.trans hg
          rw [hlink.mover] at hb
          cases hb
          exact hborder
        · rintro ⟨answer, hanswer, hmin, -, hborder⟩
          cases hans.symm.trans hanswer
          refine ⟨hmin, hborder _ hmover border ?_⟩
          rw [hlink.mover]
          rfl

end Host

/-- What an entry that is returned comes from. -/
lemma searchMigrationPath_eq_ok {F : Type} [Float64 F] {fuel : ℕ} {view : QspnView}
    {router : SearchRouter} {id : Int32} {ids : ℕ → Int32} {lvl : ℕ} {released : List TupleGNode}
    {sent : List RequestPacket} {entry : EntryData}
    (h : searchMigrationPath F fuel view router id ids lvl = .ok (released, sent, entry))
    {solutions : List MigrationSolution} {sol : MigrationSolution}
    (hfind : findShortestMig F fuel view router id (lvl + 1) (lvl + view.epsilon lvl) =
      some solutions)
    (hlast : solutions.getLast? = some sol) :
    lvl < view.levels ∧ sol.resolveEntryData view = .ok entry := by
  have htail : ∀ (done : Sent) (targets : List TupleGNode),
      (if !done.ok then Outcome.fail HookingServerError.migrationPathExecuteFailure
        else do
          let e ← Outcome.unwrap "infallible" (sol.resolveEntryData view)
          .ok (targets, done.packets, e)) = .ok (released, sent, entry) →
        sol.resolveEntryData view = .ok entry := by
    intro done targets h
    split_ifs at h
    · cases h
    · obtain ⟨e, he, h⟩ := Outcome.bind_eq_ok.mp h
      cases h
      exact Outcome.unwrap_eq_ok.mp he
  unfold searchMigrationPath at h
  split_ifs at h with hboot hlvl
  · cases h
  · cases h
  · rw [hfind] at h
    simp only [hlast] at h
    refine ⟨not_le.mp hlvl, ?_⟩
    split_ifs at h with hd
    · rw [Outcome.ok_bind] at h
      exact htail _ _ h
    · obtain ⟨done, -, h⟩ := Outcome.bind_eq_ok.mp h
      exact htail done _ h

/-- **A negotiated entry can be applied** exactly if the host's own g-node of the level above the
guest made the first reservation, and either a real position was found there, or the search chose a
chain of migrations and the position its first g-node leaves is real. -/
theorem searchMigrationPath_applies_iff {F : Type} [Float64 F] {fuel : ℕ} {view : QspnView}
    {router : SearchRouter} {id : Int32} {ids : ℕ → Int32} {lvl : ℕ} {released : List TupleGNode}
    {sent : List RequestPacket} {entry : EntryData} (hreal : view.IsReal)
    (hans : Answers view router)
    (h : searchMigrationPath F fuel view router id ids lvl = .ok (released, sent, entry))
    {solutions : List MigrationSolution} {sol : MigrationSolution}
    (hfind : findShortestMig F fuel view router id (lvl + 1) (lvl + view.epsilon lvl) =
      some solutions)
    (hlast : solutions.getLast? = some sol) :
    EntryApplies view.topology lvl entry.pos ↔
      EntryFits view router id (max (lvl + 1) (view.subnetlevel + 1)) lvl sol := by
  obtain ⟨hlvl, hentry⟩ := searchMigrationPath_eq_ok h hfind hlast
  have hmem : sol ∈ solutions := List.mem_of_getLast? hlast
  exact resolveEntryData_applies_iff hreal hans.shaped
    (findShortestMig_ok hfind rfl rfl sol hmem) hlvl (le_max_left _ _) hentry

/-- The guest takes the place of the node that moves to the other host. -/
theorem searchMigrationPath_applies_hosts :
    EntryApplies (hostView 2 0 1 (by decide)).topology 0 [0, 0] := by
  have hreal : (hostView 2 0 1 (by decide)).IsReal := by
    unfold QspnView.IsReal
    decide
  have hrun : searchMigrationPath ℚ 3 (hostView 2 0 1 (by decide)) (hostsRouter 2 (by decide)) 0
      (fun _ => 7) 0 = .ok ([⟨[], []⟩], [prepareFor 7 ⟨[0, 0], [-1, 0]⟩,
        finishFor 7 (hostsSolution 2).leaf.data ⟨[1], [1]⟩ 1 3], ⟨1, [0, 0], [4, 0]⟩) := by
    decide +kernel
  refine (searchMigrationPath_applies_iff hreal (answers_hostsRouter 2 (by decide)) hrun
    findShortestMig_hosts rfl).mpr ⟨_, rfl, rfl, fun h => ?_, fun g hg b hb => ?_⟩
  · cases h
  · cases hg
    cases hb
    decide

/-- The same hosts, but the second one does not answer. -/
def loneRouter : SearchRouter where
  sendSearchRequest k hops maxHostLvl id :=
    if hops.length = 1 then (hostsRouter 2 (by decide)).sendSearchRequest k hops maxHostLvl id
    else none
  sendExploreRequest _ _ _ := none
  sendMigRequest _ _ := true

/-- The host is full and only its network has room for a further g-node.  The guest is told one
position, of level 1; it has two levels to fill, and no member can make an address. -/
theorem not_searchMigrationPath_applies :
    (hostView 2 0 1 (by decide)).IsReal ∧
      Answers (hostView 2 0 1 (by decide)) loneRouter ∧
      searchMigrationPath ℚ 3 (hostView 2 0 1 (by decide)) loneRouter 0 (fun _ => 7) 0 =
        .ok ([], [], ⟨1, [2], [5]⟩) ∧
      (∀ cur : Naddr, cur.topology = (hostView 2 0 1 (by decide)).topology →
        combineEntryNaddr (hostView 2 0 1 (by decide)).topology cur.positions 0 [2] = none) ∧
      ¬EntryApplies (hostView 2 0 1 (by decide)).topology 0 [2] := by
  have hnone : ∀ cur : List UInt32,
      combineEntryNaddr (hostView 2 0 1 (by decide)).topology cur 0 [2] = none := by
    intro cur
    rw [combineEntryNaddr, if_neg (Nat.not_lt_zero _), List.take_zero]
    rfl
  refine ⟨?_, ?_, by decide +kernel, fun cur _ => hnone _, fun h => ?_⟩
  · unfold QspnView.IsReal
    decide
  · intro k hops maxHostLvl id step hans
    have hans' : (hostsRouter 2 (by decide)).sendSearchRequest k hops maxHostLvl id =
        some step := by
      simp only [loneRouter] at hans
      split_ifs at hans
      exact hans
    exact answers_hostsRouter 2 (by decide) k hops maxHostLvl id step hans'
  · obtain ⟨addr, haddr, -⟩ := h.total (zeroNaddr _) rfl (isReal_zeroNaddr _)
    rw [hnone] at haddr
    cases haddr

end Hooking

end Netsukuku
