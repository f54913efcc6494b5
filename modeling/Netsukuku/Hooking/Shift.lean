import Mathlib
import Netsukuku.Hooking.Border
import Netsukuku.Hooking.Chain
import Netsukuku.Kernel.Addressing
import Netsukuku.Coordinator.Replica

/-!
# A chain of migrations as a shift

The migrations of a chain free a place one after the other.  The farthest g-node moves to the
position that was found, the one before it to the place the farthest has left, and so on; the guest
gets the place the nearest has left.  `getMigs` collects them on the way up from the leaf and
`executeShortestMig` sends them from the far end, each with what the step before it left.

* `preparesFrom`, `finishesFrom` — the requests, by recursion over the chain.
* `executeShortestMig_eq` — the requests that are sent are these.
* `ConsistentShift` — what a chain of migrations has to be; `consistentShift_iff` — it is that,
  exactly if the positions it hands over fit into an `i32`.
* `fits_iff_connsFit` — a topology a node can run with has no real position that does not fit, so
  what is left are the virtual ones, which no topology bounds.
-/

namespace Netsukuku.Hooking

/-! ## Positions as `i32` -/

lemma asI32_nonneg_iff (p : UInt32) : 0 ≤ (asI32 p).toInt ↔ p.toNat < 2 ^ 31 := by
  have h : (asI32 p).toInt = p.toBitVec.toInt := rfl
  rw [h, BitVec.toInt_eq_toNat_cond]
  have hlt := p.toBitVec.isLt
  have hnat : p.toBitVec.toNat = p.toNat := rfl
  split_ifs <;> omega

lemma tryFromU32_asI32 (p : UInt32) :
    tryFromU32 (asI32 p) = if p.toNat < 2 ^ 31 then some p else none := by
  unfold tryFromU32
  simp only [asI32_nonneg_iff]
  rfl

lemma tryFromU32_tryFromI32 (p : UInt32) :
    tryFromU32 (tryFromI32 p) = if p.toNat < 2 ^ 31 then some p else none := by
  unfold tryFromI32
  split_ifs with h
  · exact (tryFromU32_asI32 p).trans (if_pos h)
  · rfl

/-- A position arrives exactly if it fits. -/
lemma map_cons_eq_some_iff {p : UInt32} {l : List UInt32} :
    (if p.toNat < 2 ^ 31 then some p else none).map (· :: l) = some (p :: l) ↔
      p.toNat < 2 ^ 31 := by
  split_ifs with h
  · exact ⟨fun _ => h, fun _ => rfl⟩
  · rw [Option.map_none]
    exact iff_of_false (Option.some_ne_none _).symm h

/-! ## Sending -/

section Sending

variable {router : SearchRouter} {ps qs : List RequestPacket}

lemma sendInOrder_of_not_ok : sendInOrder router ps ⟨qs, false⟩ = ⟨qs, false⟩ := by
  cases ps <;> rfl

lemma sendInOrder_cons (p : RequestPacket) : sendInOrder router (p :: ps) ⟨qs, true⟩ =
    sendInOrder router ps ⟨qs ++ [p], router.sendMigRequest qs.length p⟩ := rfl

lemma sendInOrder_append (sent : Sent) : sendInOrder router (ps ++ qs) sent =
    sendInOrder router qs (sendInOrder router ps sent) := by
  induction ps generalizing sent with
  | nil => rfl
  | cons p ps ih =>
      obtain ⟨packets, ok⟩ := sent
      cases ok with
      | false => rw [sendInOrder_of_not_ok, sendInOrder_of_not_ok, sendInOrder_of_not_ok]
      | true =>
          rw [List.cons_append, sendInOrder_cons, sendInOrder_cons]
          exact ih _

/-- What is sent is a first part of what is to be sent, and all of it if nothing fails. -/
lemma sendInOrder_packets (router : SearchRouter) (ps qs : List RequestPacket) (ok : Bool) :
    (sendInOrder router ps ⟨qs, ok⟩).packets <+: qs ++ ps ∧
      ((sendInOrder router ps ⟨qs, ok⟩).ok →
        (sendInOrder router ps ⟨qs, ok⟩).packets = qs ++ ps) := by
  induction ps generalizing qs ok with
  | nil =>
      rw [List.append_nil]
      exact ⟨List.prefix_refl _, fun _ => rfl⟩
  | cons p ps ih =>
      cases ok with
      | false =>
          rw [sendInOrder_of_not_ok]
          exact ⟨List.prefix_append _ _, fun h => by cases h⟩
      | true =>
          rw [sendInOrder_cons, List.append_cons qs p ps]
          exact ih _ _

/-- Nothing fails exactly if every request gets through. -/
lemma sendInOrder_ok_iff : (sendInOrder router ps ⟨qs, true⟩).ok = true ↔
    ∀ k p, ps[k]? = some p → router.sendMigRequest (qs.length + k) p = true := by
  induction ps generalizing qs with
  | nil => simp [sendInOrder]
  | cons p ps ih =>
      rw [sendInOrder_cons]
      cases hp : router.sendMigRequest qs.length p with
      | false =>
          rw [sendInOrder_of_not_ok]
          constructor
          · intro h
            cases h
          · intro h
            have := h 0 p rfl
            rw [Nat.add_zero, hp] at this
            cases this
      | true =>
          rw [ih, List.length_append]
          constructor
          · rintro h (_ | k) q hq
            · cases hq
              exact hp
            · have := h k q hq
              rwa [List.length_singleton, Nat.add_assoc, Nat.add_comm 1 k] at this
          · intro h k q hq
            have := h (k + 1) q hq
            rwa [List.length_singleton, Nat.add_assoc, Nat.add_comm 1 k]

end Sending

lemma MigrationSolution.exists_parent {sol : MigrationSolution} (hd : 0 < sol.distance) :
    ∃ p ps, sol.leaf.parents = p :: ps ∧ sol.leaf.chain = sol.leaf.data :: p :: ps := by
  obtain ⟨p, ps, hparents⟩ := List.exists_cons_of_ne_nil (List.ne_nil_of_length_pos hd)
  exact ⟨p, ps, hparents, by rw [SolutionStep.chain, hparents]⟩

/-- What `sent` may be, if `prepares` and then `finishes` are to be sent: a first part of them, all
of them if every request gets through, and no FINISH after a PREPARE that fails. -/
structure SentFor (accepts : ℕ → RequestPacket → Bool) (prepares finishes : List RequestPacket)
    (sent : Sent) : Prop where
  order : sent.packets <+: prepares ++ finishes
  complete : (∀ k p, (prepares ++ finishes)[k]? = some p → accepts k p) →
    sent = ⟨prepares ++ finishes, true⟩
  whole : sent.ok → sent.packets = prepares ++ finishes
  guarded : ∀ k p, prepares[k]? = some p → accepts k p = false →
    sent.ok = false ∧ sent.packets <+: prepares

lemma sentFor_sendInOrder (router : SearchRouter) (prepares finishes : List RequestPacket) :
    SentFor router.sendMigRequest prepares finishes
      (sendInOrder router (prepares ++ finishes) ⟨[], true⟩) := by
  obtain ⟨horder, hwhole⟩ := sendInOrder_packets router (prepares ++ finishes) [] true
  refine ⟨horder, fun hall => ?_, hwhole, fun k p hp hfail => ?_⟩
  · have hok : (sendInOrder router (prepares ++ finishes) ⟨[], true⟩).ok = true :=
      sendInOrder_ok_iff.mpr fun k p hp => by
        rw [List.length_nil, Nat.zero_add]
        exact hall k p hp
    exact congrArg₂ Sent.mk (hwhole hok) hok
  · have hnot : (sendInOrder router prepares ⟨[], true⟩).ok = false := by
      refine Bool.eq_false_iff.mpr fun hok => ?_
      have := sendInOrder_ok_iff.mp hok k p hp
      rw [List.length_nil, Nat.zero_add, hfail] at this
      cases this
    obtain ⟨hpart, -⟩ := sendInOrder_packets router prepares [] true
    rw [sendInOrder_append]
    rcases hsent : sendInOrder router prepares ⟨[], true⟩ with ⟨packets, ok⟩
    rw [hsent] at hnot hpart
    subst hnot
    rw [sendInOrder_of_not_ok]
    exact ⟨rfl, hpart⟩

/-! ## The requests, along the chain -/

/-- The g-node that moves into the g-node of a step. -/
def mover (s : StepData) : TupleGNode := s.previousMigratingGnode.getD .default

/-- The place that the g-node moving into the step leaves, as a request carries it. -/
def placeLeft (s : StepData) : Int32 :=
  ((s.previousMigratingGnode.bind fun t => t.pos.head?).map asI32).getD (-1)

/-- The eldership reserved for whoever takes that place. -/
def eldershipLeft (s : StepData) : Int32 := s.previousGnodeNewEldership.getD (-1)

/-- The PREPARE request for `g`. -/
def prepareFor (id : Int32) (g : TupleGNode) : RequestPacket :=
  ⟨0, g, .default, .prepareMigration, id, -1, .default, -1, -1⟩

/-- The FINISH request for the g-node that moves into the step `s`. -/
def finishFor (id : Int32) (s : StepData) (host : TupleGNode) (pos eldership : Int32) :
    RequestPacket :=
  ⟨0, mover s, .default, .finishMigration, id, (s.previousGnodeNewConnVirPos.map asI32).getD (-1),
    host, pos, eldership⟩

section Along

variable (ids : ℕ → Int32)

/-- The PREPARE requests of a chain, leaf first. -/
def preparesFrom : ℕ → List StepData → List RequestPacket
  | k, s :: p :: ps => prepareFor (ids k) (mover s) :: preparesFrom (k + 1) (p :: ps)
  | _, _ => []

/-- The FINISH requests of a chain, leaf first.  The first g-node is given a place in `host`; every
other one the place that was left just before. -/
def finishesFrom : ℕ → TupleGNode → Int32 → Int32 → List StepData → List RequestPacket
  | k, host, pos, eldership, s :: p :: ps =>
      finishFor (ids k) s host pos eldership ::
        finishesFrom (k + 1) p.visitingGnode (placeLeft s) (eldershipLeft s) (p :: ps)
  | _, _, _, _, _ => []

variable {view : QspnView} {made : ℕ → SolutionStep → ℕ → SearchStepResult → Prop}
  {root : SolutionStep} {sol : MigrationSolution} {ids}

/-- The migrations above a step `q` of the chain, and their requests.  Two steps are in play at
once on the way up: `q` names the place that the g-node moving into the next step takes. -/
lemma migsFrom_ok (sol : MigrationSolution) (ids : ℕ → Int32) {ps : List StepData} :
    ∀ {s : StepData} (q : StepData) (k : ℕ), ChainOk view made root (s :: ps) →
      ∃ migs, migsFrom sol view.levels ids k (some q) (s :: ps) = .ok migs ∧
        migs.reverse.map buildRequestPacketPrepare = preparesFrom ids k (s :: ps) ∧
        ∀ next : MigData, next.prevMigGnodeNewEldership = eldershipLeft q →
          (migs.reverse.zip (next :: migs.reverse)).mapM
              (fun e => buildRequestPacketFinish e.1 (some e.2)) =
            .ok (finishesFrom ids k s.visitingGnode (placeLeft q) (eldershipLeft q)
              (s :: ps)) := by
  induction ps with
  | nil =>
      intro s q k _
      exact ⟨[], rfl, rfl, fun _ _ => rfl⟩
  | cons p ps ih =>
      intro s q k h
      cases h with
      | @hop _ _ _ step border h hlink =>
          have hmover : s.previousMigratingGnode = some (mover s) := by
            rw [mover, hlink.migrating, Option.getD_some]
          obtain ⟨migs, hmigs, hprepares, hfinishes⟩ := ih s (k + 1) h
          let mig : MigData := ⟨ids k, mover s, (s.previousGnodeNewConnVirPos.map asI32).getD (-1),
            eldershipLeft s, s.visitingGnode,
            (q.previousMigratingGnode).bind fun t => t.pos.head?, none, none⟩
          have hmig : migOf sol view.levels (ids k) (some q) s = .ok mig := by
            unfold migOf
            rw [hmover]
            rfl
          refine ⟨migs ++ [mig], ?_, ?_, fun next hnext => ?_⟩
          · rw [migsFrom, hmig, hmigs]
            rfl
          · rw [List.reverse_append, List.reverse_singleton, List.singleton_append, List.map_cons,
              hprepares]
            rfl
          · rw [List.reverse_append, List.reverse_singleton, List.singleton_append,
              List.zip_cons_cons, List.mapM_cons, hfinishes mig rfl]
            simp only [buildRequestPacketFinish, Outcome.ok_bind, hnext, Outcome.pure_eq_ok]
            rfl

/-- The pairs of neighbours, counted from the end. -/
lemma zip_tail_reverse {α : Type} (l : List α) (a : α) :
    ((l ++ [a]).zip (l ++ [a]).tail).reverse = l.reverse.zip (a :: l.reverse) := by
  have hlen : (l ++ [a]).tail.length = l.length := by simp
  have hleft : (l ++ [a]).zip (l ++ [a]).tail = l.zip (l ++ [a]).tail := by
    rw [List.zip_eq_zip_take_min, hlen, List.length_append, List.length_singleton,
      Nat.min_eq_right (Nat.le_succ _), List.take_left' rfl, List.take_of_length_le hlen.le]
  have hright : l.reverse.zip (a :: l.reverse) = l.reverse.zip (a :: l.reverse).dropLast := by
    rw [List.zip_eq_zip_take_min, List.length_cons, Nat.min_eq_left (Nat.le_succ _),
      List.take_length, List.dropLast_eq_take, List.length_cons, Nat.add_sub_cancel]
  rw [hleft, hright, List.zip, List.reverse_zipWith hlen.symm, ← List.dropLast_reverse,
    List.reverse_append, List.reverse_singleton, List.singleton_append]

variable {s p : StepData} {ps : List StepData}

/-- The host of the farthest migration, cut to the level of the solution. -/
lemma lastHost_ok {g : TupleGNode} (hfinal : sol.finalHostLvl ≤ view.levels)
    (hlen : view.levels - sol.finalHostLvl ≤ g.pos.length) (hwf : g.eldership.length = g.pos.length) :
    ∃ host, g.truncateToLevel sol.finalHostLvl view.levels = some host ∧
      lastHost sol view.levels g = .ok host := by
  refine ⟨_, TupleGNode.truncateToLevel_of_le hfinal hlen hwf, ?_⟩
  unfold lastHost
  rw [Outcome.checkedSub_of_le hfinal, Outcome.ok_bind, Outcome.checkedSub_of_le hlen,
    Outcome.ok_bind, if_neg (by omega)]

/-- **The requests that are sent**, farthest first, and their order. -/
theorem executeShortestMig_eq (hsol : SolutionOk view made root sol) (hd : 0 < sol.distance)
    (router : SearchRouter) (ids : ℕ → Int32) :
    ∃ host, sol.leaf.data.visitingGnode.truncateToLevel sol.finalHostLvl view.levels = some host ∧
      executeShortestMig view router ids sol =
        .ok (sendInOrder router (preparesFrom ids 0 sol.leaf.chain ++
          finishesFrom ids 0 host (tryFromI32 sol.realNewPos) sol.realNewEldership sol.leaf.chain)
          ⟨[], true⟩) := by
  obtain ⟨step, hasked, hfinal, -, -⟩ := hsol.answer
  obtain ⟨hlen, hwf⟩ := hasked.wellFormed
  have hle := hasked.min_le_final
  have hchain := hsol.chain
  rw [hfinal] at hle
  obtain ⟨host, htrunc, hhost⟩ := lastHost_ok (hfinal ▸ hasked.final_le) (by omega) hwf
  refine ⟨host, htrunc, ?_⟩
  obtain ⟨p, ps, hparents, hleaf⟩ := sol.exists_parent hd
  set s := sol.leaf.data with hs
  rw [hleaf] at hchain ⊢
  cases hchain with
  | @hop _ _ _ step' border h hlink =>
      have hmover : s.previousMigratingGnode = some (mover s) := by
        rw [mover, hlink.migrating, Option.getD_some]
      obtain ⟨migs, hmigs, hprepares, hfinishes⟩ :=
        migsFrom_ok sol ids s 1 h
      let mig : MigData := ⟨ids 0, mover s, (s.previousGnodeNewConnVirPos.map asI32).getD (-1),
        eldershipLeft s, host, none, some sol.realNewPos, some sol.realNewEldership⟩
      have hmig : migOf sol view.levels (ids 0) none s = .ok mig := by
        unfold migOf
        simp only [Option.isNone_none, if_true, hhost, hmover]
        rfl
      have hget : getMigs sol view.levels ids = .ok (migs ++ [mig]) := by
        unfold getMigs
        rw [hparents, decide_eq_true (List.cons_ne_nil p ps), Outcome.assert_true, Outcome.ok_bind,
          hleaf, migsFrom, hmig, hmigs]
        rfl
      have hprepare : (migs ++ [mig]).reverse.map buildRequestPacketPrepare =
          preparesFrom ids 0 (s :: p :: ps) := by
        rw [List.reverse_append, List.reverse_singleton, List.singleton_append, List.map_cons,
          hprepares]
        rfl
      unfold executeShortestMig
      rw [hget, Outcome.ok_bind, hprepare, sendInOrder_append]
      rcases hprepared : sendInOrder router (preparesFrom ids 0 (s :: p :: ps)) ⟨[], true⟩ with
        ⟨packets, ok⟩
      cases ok with
      | false =>
          rw [sendInOrder_of_not_ok]
          rfl
      | true =>
          rw [List.getLast?_concat, zip_tail_reverse, hfinishes mig rfl]
          rfl

/-! ## What the requests say -/

/-- The g-nodes that migrate for a chain, farthest first. -/
def moversOf (chain : List StepData) : List TupleGNode :=
  chain.filterMap StepData.previousMigratingGnode

lemma Link.mover {step : SearchStepResult} {border : UInt32}
    (h : Link view made root p ps s step border) :
    Hooking.mover s = ⟨border :: p.visitingGnode.pos, -1 :: p.visitingGnode.eldership⟩ := by
  rw [Hooking.mover, h.migrating, Option.getD_some]

lemma Link.placeLeft {step : SearchStepResult} {border : UInt32}
    (h : Link view made root p ps s step border) : Hooking.placeLeft s = asI32 border := by
  rw [Hooking.placeLeft, h.migrating]
  rfl

lemma moversOf_root (h : ChainOk view made root [s]) : moversOf [s] = [] := by
  cases h with
  | root hmig => rw [moversOf, List.filterMap_cons_none hmig, List.filterMap_nil]

lemma moversOf_hop (h : ChainOk view made root (s :: p :: ps)) :
    moversOf (s :: p :: ps) = mover s :: moversOf (p :: ps) := by
  cases h with
  | hop h hlink =>
      refine List.filterMap_cons_some ?_
      rw [mover, hlink.migrating, Option.getD_some]

lemma length_moversOf (h : ChainOk view made root (s :: ps)) :
    (moversOf (s :: ps)).length = ps.length := by
  induction ps generalizing s with
  | nil => rw [moversOf_root h, List.length_nil, List.length_nil]
  | cons p ps ih =>
      cases h with
      | hop h hlink => rw [moversOf_hop (.hop h hlink), List.length_cons, ih h, List.length_cons]

/-- A g-node that migrates is named after the g-node it leaves. -/
lemma moversOf_tail (h : ChainOk view made root (s :: ps)) :
    (moversOf (s :: ps)).map (fun g => g.pos.tail) = ps.map fun q => q.visitingGnode.pos := by
  induction ps generalizing s with
  | nil => rw [moversOf_root h, List.map_nil, List.map_nil]
  | cons p ps ih =>
      cases h with
      | hop h hlink =>
          rw [moversOf_hop (.hop h hlink), List.map_cons, ih h, hlink.mover, List.map_cons,
            List.tail_cons]

/-- **The g-nodes that migrate are pairwise different.** -/
theorem moversOf_nodup (h : ChainOk view made root (s :: ps)) :
    ((moversOf (s :: ps)).map TupleGNode.pos).Nodup := by
  refine List.Nodup.of_map List.tail ?_
  rw [List.map_map, Function.comp_def, moversOf_tail h]
  have hnodup := h.nodup
  rw [List.map_cons, List.nodup_cons] at hnodup
  exact hnodup.2

lemma preparesFrom_dest (ids : ℕ → Int32) (k : ℕ) (h : ChainOk view made root (s :: ps)) :
    (preparesFrom ids k (s :: ps)).map RequestPacket.dest = moversOf (s :: ps) ∧
      ∀ q ∈ preparesFrom ids k (s :: ps), q.operation = .prepareMigration := by
  induction ps generalizing s k with
  | nil => exact ⟨(moversOf_root h).symm, List.forall_mem_nil _⟩
  | cons p ps ih =>
      rw [moversOf_hop h]
      cases h with
      | hop h hlink =>
          obtain ⟨hdest, hop⟩ := ih (k + 1) h
          exact ⟨congrArg (_ :: ·) hdest, List.forall_mem_cons.mpr ⟨rfl, hop⟩⟩

lemma finishesFrom_dest (ids : ℕ → Int32) (k : ℕ) (host : TupleGNode) (pos eldership : Int32)
    (h : ChainOk view made root (s :: ps)) :
    (finishesFrom ids k host pos eldership (s :: ps)).map RequestPacket.dest = moversOf (s :: ps) ∧
      ∀ q ∈ finishesFrom ids k host pos eldership (s :: ps), q.operation = .finishMigration := by
  induction ps generalizing s k host pos eldership with
  | nil => exact ⟨(moversOf_root h).symm, List.forall_mem_nil _⟩
  | cons p ps ih =>
      rw [moversOf_hop h]
      cases h with
      | hop h hlink =>
          obtain ⟨hdest, hop⟩ := ih (k + 1) p.visitingGnode (placeLeft s) (eldershipLeft s) h
          exact ⟨congrArg (_ :: ·) hdest, List.forall_mem_cons.mpr ⟨rfl, hop⟩⟩

/-- What the request for the `i`-th step from the leaf carries. -/
lemma getElem?_finishesFrom (ids : ℕ → Int32) {chain : List StepData} {i : ℕ} (k : ℕ)
    (host : TupleGNode) (pos eldership : Int32) (hi : chain.drop i = s :: p :: ps) :
    ∃ host' pos' eldership',
      (finishesFrom ids k host pos eldership chain)[i]? =
        some (finishFor (ids (k + i)) s host' pos' eldership') ∧
      (i = 0 → host' = host ∧ pos' = pos ∧ eldership' = eldership) ∧
      ∀ j, i = j + 1 → ∃ q, chain.drop j = q :: s :: p :: ps ∧ host' = s.visitingGnode ∧
        pos' = placeLeft q ∧ eldership' = eldershipLeft q := by
  induction i generalizing chain k host pos eldership with
  | zero =>
      rw [List.drop_zero] at hi
      subst hi
      exact ⟨host, pos, eldership, rfl, fun _ => ⟨rfl, rfl, rfl⟩, fun j hj => by cases hj⟩
  | succ i ih =>
      match chain, hi with
      | t :: t' :: rest, hi =>
          obtain ⟨host', pos', eldership', hget, hzero, hsucc⟩ :=
            ih (k + 1) t'.visitingGnode (placeLeft t) (eldershipLeft t) hi
          refine ⟨host', pos', eldership', ?_, fun h => absurd h (Nat.succ_ne_zero i), ?_⟩
          · rw [show k + (i + 1) = k + 1 + i by omega]
            exact hget
          · rintro j hj
            cases Nat.succ.inj hj
            cases i with
            | zero =>
                obtain ⟨rfl, rfl, rfl⟩ := hzero rfl
                cases hi
                exact ⟨t, rfl, rfl, rfl, rfl⟩
            | succ i => exact hsucc i rfl
      | [t], hi =>
          rw [List.drop_succ_cons, List.drop_nil] at hi
          cases hi

/-- The address that a FINISH request gives its g-node; `none` if its position is negative, and
`executeMig` drops it. -/
def RequestPacket.address (f : RequestPacket) : Option (List UInt32) :=
  (tryFromU32 f.realNewPos).map (· :: f.hostGnode.pos)

/-- The places that a chain of migrations hands on fit into an `i32`. -/
def PlacesFit (chain : List StepData) : Prop :=
  ∀ g ∈ (moversOf chain).dropLast, ∀ b ∈ g.pos.head?, b.toNat < 2 ^ 31

/-- **Every place is taken after it is left**, if the places fit. -/
lemma isChain_finishesFrom (ids : ℕ → Int32) (k : ℕ) (host : TupleGNode) (pos eldership : Int32)
    (h : ChainOk view made root (s :: ps)) :
    (finishesFrom ids k host pos eldership (s :: ps)).IsChain
      (fun f g => g.address = some f.dest.pos) ↔ PlacesFit (s :: ps) := by
  induction ps generalizing s k host pos eldership with
  | nil =>
      rw [PlacesFit, moversOf_root h]
      exact ⟨fun _ => List.forall_mem_nil _, fun _ => List.isChain_nil⟩
  | cons p ps ih =>
      cases ps with
      | nil =>
          cases h with
          | hop h hlink =>
              rw [PlacesFit, moversOf_hop (.hop h hlink), moversOf_root h]
              exact ⟨fun _ => List.forall_mem_nil _, fun _ => List.isChain_singleton _⟩
      | cons p' ps =>
          cases h with
          | @hop _ _ _ step border h hlink =>
              have hmovers : (moversOf (s :: p :: p' :: ps)).dropLast =
                  mover s :: (moversOf (p :: p' :: ps)).dropLast := by
                rw [moversOf_hop (.hop h hlink), moversOf_hop h, List.dropLast_cons_cons]
              have hplace : ((tryFromU32 (placeLeft s)).map (· :: p.visitingGnode.pos) =
                  some (mover s).pos) ↔ ∀ b ∈ (mover s).pos.head?, b.toNat < 2 ^ 31 := by
                rw [hlink.placeLeft, hlink.mover, tryFromU32_asI32, map_cons_eq_some_iff]
                rw [List.head?_cons]
                simp
              have hih := ih (k + 1) p.visitingGnode (placeLeft s) (eldershipLeft s) h
              rw [PlacesFit, hmovers, List.forall_mem_cons, ← hplace, ← PlacesFit, ← hih]
              exact List.isChain_cons_cons

end Along

/-! ## The shift -/

/-- **A chain of migrations is a consistent shift.**  `made` are the requests of the search, with
their answers. -/
structure ConsistentShift (view : QspnView)
    (made : ℕ → SolutionStep → ℕ → SearchStepResult → Prop) (root : SolutionStep)
    (sol : MigrationSolution) (prepares finishes : List RequestPacket) (entry : EntryData) :
    Prop where
  /-- One PREPARE and one FINISH for each g-node that migrates, farthest first. -/
  prepares_dest : prepares.map RequestPacket.dest = moversOf sol.leaf.chain
  finishes_dest : finishes.map RequestPacket.dest = moversOf sol.leaf.chain
  prepares_op : ∀ f ∈ prepares, f.operation = .prepareMigration
  finishes_op : ∀ f ∈ finishes, f.operation = .finishMigration
  count : (moversOf sol.leaf.chain).length = sol.distance
  distinct : ((moversOf sol.leaf.chain).map TupleGNode.pos).Nodup
  /-- The farthest g-node takes the reserved position in its host, cut to the level of the
  solution. -/
  first : ∃ host,
    sol.leaf.data.visitingGnode.truncateToLevel sol.finalHostLvl view.levels = some host ∧
      ∀ f ∈ finishes.head?, f.hostGnode = host ∧ f.address = some (sol.realNewPos :: host.pos)
  /-- Every other g-node takes the address of the one told to leave just before. -/
  shift : finishes.IsChain fun f g => g.address = some f.dest.pos
  /-- The guest takes the address of the g-node nearest the root. -/
  entry : ∀ f ∈ finishes.getLast?, entry.pos = f.dest.pos
  /-- The connectivity position was reserved in the g-node that is left. -/
  outOf : ∀ i f s p ps, finishes[i]? = some f → sol.leaf.chain.drop i = s :: p :: ps →
    f.dest.pos.tail = p.visitingGnode.pos ∧
      ∃ answer c, Asked view made root p.visitingGnode ps answer ∧
        answer.newConnVirPos = some c ∧ tryFromU32 f.connGnodePos = some c
  /-- The eldership was reserved in the g-node that is entered. -/
  into : ∀ i f s p ps, finishes[i]? = some f → sol.leaf.chain.drop i = s :: p :: ps →
    (i ≠ 0 → f.hostGnode = s.visitingGnode) ∧
      ∃ answer, Asked view made root s.visitingGnode (p :: ps) answer ∧
        (if i = 0 then answer.realNewEldership else answer.newEldership) = some f.realNewEldership

/-- The virtual positions that the migrating g-nodes leave behind fit into an `i32`. -/
def ConnsFit (sol : MigrationSolution) : Prop :=
  ∀ s ∈ sol.leaf.chain, ∀ c ∈ s.previousGnodeNewConnVirPos, c.toNat < 2 ^ 31

/-- What the requests carry fits into an `i32`. -/
structure Fits (sol : MigrationSolution) : Prop where
  final : sol.realNewPos.toNat < 2 ^ 31
  places : PlacesFit sol.leaf.chain
  conns : ConnsFit sol

section Shift

variable {view : QspnView} {made : ℕ → SolutionStep → ℕ → SearchStepResult → Prop}
  {root : SolutionStep} {sol : MigrationSolution} {s p : StepData} {ps : List StepData}

/-- The end of a chain: the root, and the step after it, whose g-node is the last to move. -/
lemma ChainOk.exists_last (h : ChainOk view made root (s :: p :: ps)) :
    ∃ init second last step border, s :: p :: ps = init ++ [second, last] ∧
      Link view made root last [] second step border ∧ ChainOk view made root [last] ∧
      (moversOf (s :: p :: ps)).getLast? = some (mover second) := by
  induction ps generalizing s p with
  | nil =>
      cases h with
      | @hop _ _ _ step border h hlink =>
          refine ⟨[], s, p, step, border, rfl, hlink, h, ?_⟩
          rw [moversOf_hop (.hop h hlink), moversOf_root h, List.getLast?_singleton]
  | cons p' ps ih =>
      cases h with
      | hop h hlink =>
          obtain ⟨init, second, last, step, border, heq, hlast, hroot, hmover⟩ := ih h
          refine ⟨s :: init, second, last, step, border, congrArg (s :: ·) heq, hlast, hroot, ?_⟩
          rw [moversOf_hop (.hop h hlink), List.getLast?_cons, hmover, Option.getD_some]

/-- **The entry** is the address of the g-node nearest the root. -/
theorem resolveEntryData_eq (h : ChainOk view made root sol.leaf.chain) (hd : 0 < sol.distance) :
    ∃ entry last second step border, sol.resolveEntryData view = .ok entry ∧
      (moversOf sol.leaf.chain).getLast? = some (mover second) ∧
      Link view made root last [] second step border ∧ ChainOk view made root [last] ∧
      entry.pos = border :: last.visitingGnode.pos := by
  obtain ⟨p, ps, -, hleaf⟩ := sol.exists_parent hd
  rw [hleaf] at h
  obtain ⟨init, second, last, step, border, heq, hlink, hroot, hmover⟩ := h.exists_last
  rw [← hleaf] at heq hmover
  have hreverse : sol.leaf.chain.reverse = last :: second :: init.reverse := by
    rw [heq, List.reverse_append]
    rfl
  refine ⟨⟨view.networkId, border :: last.visitingGnode.pos,
    second.previousGnodeNewEldership.getD (-1) :: last.visitingGnode.eldership⟩, last, second,
    step, border, ?_, hmover, hlink, hroot, rfl⟩
  unfold MigrationSolution.resolveEntryData
  simp only [hreverse, hlink.migrating]
  rfl

/-- The answer that led to a further step has a virtual position. -/
lemma Link.reserved (hshape : ∀ k c l step, made k c l step → AnswerShape view step)
    {step : SearchStepResult} {border : UInt32} (h : Link view made root p ps s step border) :
    ∃ c eldership, step.newConnVirPos = some c ∧ step.newEldership = some eldership := by
  obtain ⟨k, current, l, hmade, -⟩ := h.asked.request
  have hstep := hshape k current l step hmade
  cases hstep with
  | real hlvl => exact absurd hlvl (h.lower (hshape k current l step hmade)).ne
  | virtual hlvl hpos held => exact ⟨_, _, hpos, held⟩

variable (hshape : ∀ k c l step, made k c l step → AnswerShape view step) {ids : ℕ → Int32}
  (hsol : SolutionOk view made root sol) {host : TupleGNode} {pos eldership : Int32}

include hshape hsol in
/-- The connectivity positions of the requests come from the g-nodes that are left. -/
lemma finishesFrom_outOf {i : ℕ} {f : RequestPacket}
    (hf : (finishesFrom ids 0 host pos eldership sol.leaf.chain)[i]? = some f)
    (hi : sol.leaf.chain.drop i = s :: p :: ps) :
    f.dest.pos.tail = p.visitingGnode.pos ∧
      ∃ answer c, Asked view made root p.visitingGnode ps answer ∧ answer.newConnVirPos = some c ∧
        s.previousGnodeNewConnVirPos = some c ∧ f.connGnodePos = asI32 c := by
  obtain ⟨host', pos', eldership', hget, -, -⟩ := getElem?_finishesFrom ids 0 host pos eldership hi
  rw [hget] at hf
  cases hf
  cases hsol.chain.drop hi with
  | hop h hlink =>
      obtain ⟨c, eldership, hc, -⟩ := hlink.reserved hshape
      have hconn := hlink.conn.trans hc
      refine ⟨congrArg (fun g => g.pos.tail) hlink.mover, _, c, hlink.asked, hc, hconn, ?_⟩
      show (s.previousGnodeNewConnVirPos.map asI32).getD (-1) = asI32 c
      rw [hconn]
      rfl

include hshape hsol in
/-- The elderships of the requests come from the g-nodes that are entered. -/
lemma finishesFrom_into {i : ℕ} {f : RequestPacket}
    (hf : (finishesFrom ids 0 host pos sol.realNewEldership sol.leaf.chain)[i]? = some f)
    (hi : sol.leaf.chain.drop i = s :: p :: ps) :
    (i ≠ 0 → f.hostGnode = s.visitingGnode) ∧
      ∃ answer, Asked view made root s.visitingGnode (p :: ps) answer ∧
        (if i = 0 then answer.realNewEldership else answer.newEldership) =
          some f.realNewEldership := by
  obtain ⟨host', pos', eldership', hget, hzero, hsucc⟩ :=
    getElem?_finishesFrom ids 0 host pos sol.realNewEldership hi
  rw [hget] at hf
  cases hf
  cases i with
  | zero =>
      obtain ⟨rfl, rfl, rfl⟩ := hzero rfl
      obtain ⟨step, hasked, -, -, held⟩ := hsol.answer
      obtain ⟨hleaf, hparents⟩ := List.cons.inj (List.drop_zero ▸ hi)
      rw [hleaf, hparents] at hasked
      exact ⟨fun h => absurd rfl h, step, hasked, held⟩
  | succ j =>
      obtain ⟨q, hq, rfl, rfl, rfl⟩ := hsucc j rfl
      cases hsol.chain.drop hq with
      | @hop _ _ _ step border h hlink =>
          obtain ⟨c, eldership, -, held⟩ := hlink.reserved hshape
          refine ⟨fun _ => rfl, step, hlink.asked, ?_⟩
          show step.newEldership = some (q.previousGnodeNewEldership.getD (-1))
          rw [hlink.eldership, held, Option.getD_some]

include hshape hsol in
/-- **The requests of a solution are a consistent shift exactly if they fit.** -/
theorem consistentShift_iff (ids : ℕ → Int32) (hd : 0 < sol.distance) {entry : EntryData}
    (hentry : sol.resolveEntryData view = .ok entry)
    (hhost : sol.leaf.data.visitingGnode.truncateToLevel sol.finalHostLvl view.levels = some host) :
    ConsistentShift view made root sol (preparesFrom ids 0 sol.leaf.chain)
      (finishesFrom ids 0 host (tryFromI32 sol.realNewPos) sol.realNewEldership sol.leaf.chain)
      entry ↔ Fits sol := by
  have hchain : ChainOk view made root (sol.leaf.data :: sol.leaf.parents) := hsol.chain
  obtain ⟨hprepares, hprepareOp⟩ := preparesFrom_dest ids 0 hchain
  obtain ⟨hfinishes, hfinishOp⟩ := finishesFrom_dest ids 0 host (tryFromI32 sol.realNewPos)
    sol.realNewEldership hchain
  have hplaces := isChain_finishesFrom ids 0 host (tryFromI32 sol.realNewPos)
    sol.realNewEldership hchain
  obtain ⟨p, ps, -, hleaf⟩ := sol.exists_parent hd
  -- the first request takes the position of the solution, if it arrives
  have hfirst : ∀ f ∈ (finishesFrom ids 0 host (tryFromI32 sol.realNewPos) sol.realNewEldership
      sol.leaf.chain).head?, f.hostGnode = host ∧
        (f.address = some (sol.realNewPos :: host.pos) ↔ sol.realNewPos.toNat < 2 ^ 31) := by
    intro f hf
    rw [hleaf] at hf
    cases hf
    refine ⟨rfl, ?_⟩
    show (tryFromU32 (tryFromI32 sol.realNewPos)).map (· :: host.pos) = _ ↔ _
    rw [tryFromU32_tryFromI32, map_cons_eq_some_iff]
  constructor
  · intro h
    refine ⟨?_, hplaces.mp h.shift, fun s hs c hc => ?_⟩
    · obtain ⟨host', hhost', hhead⟩ := h.first
      cases hhost.symm.trans hhost'
      have hsome : ∃ f, f ∈ (finishesFrom ids 0 host (tryFromI32 sol.realNewPos)
          sol.realNewEldership sol.leaf.chain).head? := by
        rw [hleaf]
        exact ⟨_, rfl⟩
      obtain ⟨f, hf⟩ := hsome
      exact (hfirst f hf).2.mp (hhead f hf).2
    · obtain ⟨before, rest, hsplit⟩ := List.append_of_mem hs
      have hi : sol.leaf.chain.drop before.length = s :: rest := by rw [hsplit, List.drop_left]
      have hdrop := hsol.chain.drop hi
      cases rest with
      | nil =>
          cases hdrop with
          | root _ hconn =>
              rw [hconn] at hc
              cases hc
      | cons q rest =>
          obtain ⟨host', pos', eldership', hget, -, -⟩ := getElem?_finishesFrom ids 0 host
            (tryFromI32 sol.realNewPos) sol.realNewEldership hi
          obtain ⟨-, answer, c', -, -, hc'⟩ := h.outOf _ _ s q rest hget hi
          have hcarried : tryFromU32 ((s.previousGnodeNewConnVirPos.map asI32).getD (-1)) =
            some c' := hc'
          rw [Option.mem_def.mp hc, Option.map_some, Option.getD_some, tryFromU32_asI32] at hcarried
          by_contra hbig
          rw [if_neg hbig] at hcarried
          cases hcarried
  · intro h
    refine ⟨hprepares, hfinishes, hprepareOp, hfinishOp, length_moversOf hchain,
      moversOf_nodup hchain, ⟨host, hhost, fun f hf => ?_⟩, hplaces.mpr h.places, fun f hf => ?_,
      fun i f s q qs hf hi => ?_, fun i f s q qs hf hi => finishesFrom_into hshape hsol hf hi⟩
    · exact ⟨(hfirst f hf).1, (hfirst f hf).2.mpr h.final⟩
    · obtain ⟨entry', last, second, step, border, hentry', hlast, hlink, -, hpos⟩ :=
        resolveEntryData_eq hsol.chain hd
      cases hentry.symm.trans hentry'
      have hdest := congrArg List.getLast? hfinishes
      rw [List.getLast?_map] at hdest
      have hdest' := congrArg (Option.map RequestPacket.dest) (Option.mem_def.mp hf)
      rw [Option.some.inj (hdest'.symm.trans (hdest.trans hlast)), hlink.mover]
      exact hpos
    · obtain ⟨htail, answer, c, hasked, hc, hs, hcarried⟩ := finishesFrom_outOf hshape hsol hf hi
      have hmem : s ∈ sol.leaf.chain := List.mem_of_mem_drop (hi ▸ List.mem_cons_self)
      rw [hcarried, tryFromU32_asI32, if_pos (h.conns s hmem c hs)]
      exact ⟨htail, answer, c, hasked, hc, rfl⟩

/-- What is asked of the migrations of a solution: there is an entry and there are requests that
are a consistent shift, and whatever the router makes of them, they are sent in order. -/
def ExecutesShift (view : QspnView) (made : ℕ → SolutionStep → ℕ → SearchStepResult → Prop)
    (root : SolutionStep) (router : SearchRouter) (ids : ℕ → Int32) (sol : MigrationSolution) :
    Prop :=
  ∃ prepares finishes entry, sol.resolveEntryData view = .ok entry ∧
    ConsistentShift view made root sol prepares finishes entry ∧
    ∀ accepts, ∃ sent,
      executeShortestMig view { router with sendMigRequest := accepts } ids sol = .ok sent ∧
        SentFor accepts prepares finishes sent

include hshape hsol in
theorem executesShift_iff (hd : 0 < sol.distance) (router : SearchRouter) (ids : ℕ → Int32) :
    ExecutesShift view made root router ids sol ↔ Fits sol := by
  have hchain : ChainOk view made root (sol.leaf.data :: sol.leaf.parents) := hsol.chain
  obtain ⟨entry, -, -, -, -, hentry, -⟩ := resolveEntryData_eq hsol.chain hd
  have hexec := fun accepts : ℕ → RequestPacket → Bool =>
    executeShortestMig_eq hsol hd { router with sendMigRequest := accepts } ids
  obtain ⟨host, hhost, -⟩ := hexec router.sendMigRequest
  rw [← consistentShift_iff hshape hsol ids hd hentry hhost]
  have hsent : ∀ accepts : ℕ → RequestPacket → Bool,
      executeShortestMig view { router with sendMigRequest := accepts } ids sol =
        .ok (sendInOrder { router with sendMigRequest := accepts }
          (preparesFrom ids 0 sol.leaf.chain ++ finishesFrom ids 0 host
            (tryFromI32 sol.realNewPos) sol.realNewEldership sol.leaf.chain) ⟨[], true⟩) := by
    intro accepts
    obtain ⟨host', hhost', heq⟩ := hexec accepts
    cases hhost.symm.trans hhost'
    exact heq
  constructor
  · -- a router that takes every request receives all of them, so there is no choice
    rintro ⟨prepares, finishes, entry', hentry', hshift, hall⟩
    cases hentry.symm.trans hentry'
    obtain ⟨sent, hrun, hfor⟩ := hall fun _ _ => true
    have hfor' := sentFor_sendInOrder { router with sendMigRequest := fun _ _ => true }
      (preparesFrom ids 0 sol.leaf.chain) (finishesFrom ids 0 host (tryFromI32 sol.realNewPos)
        sol.realNewEldership sol.leaf.chain)
    cases (hsent _).symm.trans hrun
    have hpackets := congrArg Sent.packets
      ((hfor.complete fun _ _ _ => rfl).symm.trans (hfor'.complete fun _ _ _ => rfl))
    have hlen : prepares.length = (preparesFrom ids 0 sol.leaf.chain).length := by
      calc prepares.length = (prepares.map RequestPacket.dest).length := (List.length_map _).symm
        _ = (moversOf sol.leaf.chain).length := congrArg _ hshift.prepares_dest
        _ = ((preparesFrom ids 0 sol.leaf.chain).map RequestPacket.dest).length :=
          congrArg List.length (preparesFrom_dest ids 0 hchain).1.symm
        _ = _ := List.length_map _
    obtain ⟨rfl, rfl⟩ := List.append_inj hpackets hlen
    exact hshift
  · intro hshift
    exact ⟨_, _, entry, hentry, hshift, fun accepts => ⟨_, hsent accepts,
      sentFor_sendInOrder { router with sendMigRequest := accepts } _ _⟩⟩

/-- Where a topology fits, a real position fits into an `i32` with room to spare. -/
lemma lt_of_real (hadmitted : checkTopologyFits view.topology = .ok ()) {pos : UInt32} {lvl : ℕ}
    (hreal : pos.toNat < view.gsize lvl) : pos.toNat < 2 ^ 31 := by
  unfold QspnView.gsize at hreal
  cases hg : view.topology.gsize lvl with
  | none => simp [hg] at hreal
  | some g =>
      have hle := gsize_le_of_fits hadmitted hg
      rw [hg, Option.map_some, Option.getD_some] at hreal
      omega

/-- The places a chain hands on are border positions it was answered. -/
lemma ChainOk.movers_border
    (hborder : ∀ k c l step, made k c l step → BorderReal view step)
    (h : ChainOk view made root (s :: ps)) :
    ∀ g ∈ moversOf (s :: ps), ∀ b ∈ g.pos.head?, ∃ lvl, b.toNat < view.gsize lvl := by
  induction ps generalizing s with
  | nil =>
      rw [moversOf_root h]
      exact List.forall_mem_nil _
  | cons p ps ih =>
      rw [moversOf_hop h]
      cases h with
      | @hop _ _ _ step border h hlink =>
          refine List.forall_mem_cons.mpr ⟨fun b hb => ?_, ih h⟩
          rw [hlink.mover] at hb
          cases hb
          obtain ⟨k, current, l, hmade, -⟩ := hlink.asked.request
          obtain ⟨adj, hadj, rfl⟩ := hlink.adjacent
          exact hborder k current l step hmade adj hadj

include hshape hsol in
/-- **On a topology that fits only virtual positions can be too large.** -/
theorem fits_iff_connsFit (hadmitted : checkTopologyFits view.topology = .ok ())
    (hborder : ∀ k c l step, made k c l step → BorderReal view step) :
    Fits sol ↔ ConnsFit sol := by
  refine ⟨fun h => h.conns, fun hconns => ⟨?_, fun g hg b hb => ?_, hconns⟩⟩
  · obtain ⟨step, hasked, hfinal, hpos, -⟩ := hsol.answer
    obtain ⟨k, current, l, hmade, -⟩ := hasked.request
    rcases hshape k current l step hmade with ⟨-, hreal, -, hlt⟩ | ⟨-, -, -, hlt⟩
    · cases hpos.symm.trans hreal
      exact lt_of_real hadmitted hlt
    · exact lt_of_real hadmitted (hlt _ hpos)
  · have hchain : ChainOk view made root (sol.leaf.data :: sol.leaf.parents) := hsol.chain
    obtain ⟨lvl, hlt⟩ := hchain.movers_border hborder g (List.mem_of_mem_dropLast hg) b hb
    exact lt_of_real hadmitted hlt

end Shift

/-- **A migration chain is a consistent shift**, for every solution that takes migrations, exactly
if the positions it hands over fit into an `i32`.  Where the topology is one that a node can run
with, this is a condition on the virtual positions alone. -/
theorem migration_shift_iff {F : Type} [Float64 F] {fuel : ℕ} {view : QspnView}
    {router : SearchRouter} {id : Int32} {firstHostLvl okHostLvl first ok : ℕ}
    {solutions : List MigrationSolution} (hshape : Shaped view router)
    (h : findShortestMig F fuel view router id firstHostLvl okHostLvl = some solutions)
    (hfirst : first = max firstHostLvl (view.subnetlevel + 1)) (hok : ok = max okHostLvl first)
    {sol : MigrationSolution} (hsol : sol ∈ solutions) (hd : 0 < sol.distance)
    (ids : ℕ → Int32) :
    (ExecutesShift view (Made F view router id first ok) (rootStep view first) router ids sol ↔
        Fits sol) ∧
      (checkTopologyFits view.topology = .ok () →
        (∀ k hops maxHostLvl id step,
          router.sendSearchRequest k hops maxHostLvl id = some step → BorderReal view step) →
        (Fits sol ↔ ConnsFit sol)) := by
  have hok := findShortestMig_ok h hfirst hok sol hsol
  refine ⟨executesShift_iff (fun _ _ _ _ hmade => hmade.shape hshape) hok hd router ids,
    fun hadmitted hborder => fits_iff_connsFit (fun _ _ _ _ hmade => hmade.shape hshape) hok
      hadmitted fun k current l step hmade => ?_⟩
  obtain ⟨b, -, -, -, -, -, hans⟩ := hmade
  exact hborder _ _ _ _ _ hans

/-! ## Two hosts -/

/-- A node of a network of two levels, in the g-node `pos`; its neighbour is in another one. -/
def hostView (room pos neighbour : UInt32) (h : 0 < room.toNat) : QspnView where
  topology := ⟨[room, 3], by simp, by simpa using h⟩
  networkId := 1
  myPos i := if i = 1 then pos else 0
  myEldership _ := 0
  subnetlevel := 0
  epsilon _ := 1
  eldership _ _ := 1
  adjacentToMyGnode i _ := if i = 1 then [⟨⟨1, neighbour⟩, 0⟩] else []
  isBootstrapped := true

/-- The g-node 0 is full, and 1 has a free position. -/
def hostsRouter (room : UInt32) (h : 0 < room.toNat) : SearchRouter where
  sendSearchRequest _ hops maxHostLvl _ :=
    match hops with
    | [hop] => executeSearch (hostView room 0 1 h)
        (fun lvl => if lvl = 1 then some ⟨room, 4⟩ else some ⟨2, 5⟩) hop.visitingGnode maxHostLvl
    | [_, hop] => executeSearch (hostView room 1 0 h) (fun _ => some ⟨1, 3⟩) hop.visitingGnode
        maxHostLvl
    | _ => none
  sendExploreRequest _ _ _ := none
  sendMigRequest _ _ := true

lemma answers_hostsRouter (room : UInt32) (h : 0 < room.toNat) :
    Answers (hostView room 0 1 h) (hostsRouter room h) := by
  intro k hops maxHostLvl id step hans
  match hops, hans with
  | [hop], hans => exact ⟨hop, rfl, _, _, rfl, hans⟩
  | [_, hop], hans => exact ⟨hop, rfl, hostView room 1 0 h, _, rfl, hans⟩

/-- The border node of g-node 0 is to move to g-node 1, and to keep the reserved position `room` in
the g-node it leaves. -/
def hostsSolution (room : UInt32) : MigrationSolution :=
  ⟨⟨⟨⟨[1], [1]⟩, some ⟨[0, 0], [-1, 0]⟩, some room, some 4⟩,
    [⟨⟨[0], [0]⟩, none, none, none⟩]⟩, 1, 1, 3⟩

/-- The place in a higher host, which was found first. -/
def hostsDirect : MigrationSolution := ⟨⟨⟨⟨[0], [0]⟩, none, none, none⟩, []⟩, 2, 2, 5⟩

lemma findShortestMig_hosts : findShortestMig ℚ 3 (hostView 2 0 1 (by decide))
    (hostsRouter 2 (by decide)) 0 1 1 = some [hostsDirect, hostsSolution 2] := by
  decide +kernel

/-! ## Three hosts in a line -/

/-- A node of a network of two levels, in the g-node `pos`; its neighbours are in others. -/
def lineView (pos : UInt32) (neighbours : List UInt32) : QspnView where
  topology := ⟨[2, 4], by simp, by simp⟩
  networkId := 1
  myPos i := if i = 1 then pos else 0
  myEldership _ := 0
  subnetlevel := 0
  epsilon _ := 1
  eldership _ _ := 1
  adjacentToMyGnode i _ := if i = 1 then neighbours.map fun p => ⟨⟨1, p⟩, 0⟩ else []
  isBootstrapped := true

/-- The g-nodes 0 and 1 are full, and 2 has a free position.  `virtualPos` is the next virtual
position of g-node 0. -/
def lineRouter (virtualPos : UInt32) : SearchRouter where
  sendSearchRequest _ hops maxHostLvl _ :=
    match hops with
    | [hop] => executeSearch (lineView 0 [1])
        (fun lvl => if lvl = 1 then some ⟨virtualPos, 4⟩ else some ⟨3, 5⟩) hop.visitingGnode
        maxHostLvl
    | [_, hop] => executeSearch (lineView 1 [0, 2]) (fun _ => some ⟨2, 6⟩) hop.visitingGnode
        maxHostLvl
    | [_, _, hop] => executeSearch (lineView 2 [1]) (fun _ => some ⟨1, 3⟩) hop.visitingGnode
        maxHostLvl
    | _ => none
  sendExploreRequest _ _ _ := none
  sendMigRequest _ _ := true

/-- Whoever answers is a node of the line. -/
lemma exists_lineView {virtualPos : UInt32} {k maxHostLvl : ℕ} {hops : List PathHop} {id : Int32}
    {step : SearchStepResult}
    (h : (lineRouter virtualPos).sendSearchRequest k hops maxHostLvl id = some step) :
    ∃ hop ∈ hops.getLast?, ∃ pos neighbours reserve,
      executeSearch (lineView pos neighbours) reserve hop.visitingGnode maxHostLvl = some step := by
  match hops, h with
  | [hop], h => exact ⟨hop, rfl, 0, [1], _, h⟩
  | [_, hop], h => exact ⟨hop, rfl, 1, [0, 2], _, h⟩
  | [_, _, hop], h => exact ⟨hop, rfl, 2, [1], _, h⟩

lemma answers_lineRouter (virtualPos : UInt32) :
    Answers (lineView 0 [1]) (lineRouter virtualPos) := by
  intro k hops maxHostLvl id step hans
  obtain ⟨hop, hlast, pos, neighbours, reserve, hstep⟩ := exists_lineView hans
  exact ⟨hop, hlast, lineView pos neighbours, reserve, rfl, hstep⟩

/-- Every node of the line is the one at position 0 of its g-node. -/
lemma borderRealPos_lineView {pos : UInt32} {neighbours : List UInt32} {l : ℕ}
    {pair : PairTupleGNodeInt} (h : pair ∈ adjacencySet (lineView pos neighbours) l) :
    pair.borderRealPos = 0 := by
  simp only [adjacencySet, List.mem_map, List.mem_flatMap] at h
  obtain ⟨adj, ⟨i, -, hadj⟩, rfl⟩ := h
  simp only [lineView] at hadj
  split at hadj
  · obtain ⟨p, -, rfl⟩ := List.mem_map.mp hadj
    rfl
  · cases hadj

lemma borderReal_lineRouter {virtualPos : UInt32} {k maxHostLvl : ℕ} {hops : List PathHop}
    {id : Int32} {step : SearchStepResult}
    (h : (lineRouter virtualPos).sendSearchRequest k hops maxHostLvl id = some step) :
    BorderReal (lineView 0 [1]) step := by
  obtain ⟨hop, -, pos, neighbours, reserve, hstep⟩ := exists_lineView h
  intro pair hpair
  rw [setAdjacent_executeSearch hstep] at hpair
  rw [borderRealPos_lineView hpair]
  exact ⟨0, by decide⟩

/-- The place in a higher host, which was found first. -/
def lineDirect : MigrationSolution := ⟨⟨⟨⟨[0], [0]⟩, none, none, none⟩, []⟩, 2, 3, 5⟩

/-- The border node of g-node 1 is to move to g-node 2, and the one of g-node 0 to the place that
is then free in 1.  Each keeps a virtual position in the g-node it leaves. -/
def lineSolution (virtualPos : UInt32) : MigrationSolution :=
  ⟨⟨⟨⟨[2], [1]⟩, some ⟨[0, 1], [-1, 1]⟩, some 2, some 6⟩,
    [⟨⟨[1], [1]⟩, some ⟨[0, 0], [-1, 0]⟩, some virtualPos, some 4⟩,
      ⟨⟨[0], [0]⟩, none, none, none⟩]⟩, 1, 1, 3⟩

lemma connsFit_lineSolution {virtualPos : UInt32} (h : virtualPos.toNat < 2 ^ 31) :
    ConnsFit (lineSolution virtualPos) := by
  intro s hs c hc
  simp only [lineSolution, SolutionStep.chain, List.mem_cons, List.not_mem_nil, or_false] at hs
  rcases hs with rfl | rfl | rfl
  · cases hc
    decide
  · cases hc
    exact h
  · cases hc

/-- With small virtual positions the chain of two migrations is a shift. -/
theorem migration_shift_line :
    (lineSolution 2).distance = 2 ∧
      ExecutesShift (lineView 0 [1]) (Made ℚ (lineView 0 [1]) (lineRouter 2) 0 1 1)
        (rootStep (lineView 0 [1]) 1) (lineRouter 2) (fun k => Int32.ofNat k) (lineSolution 2) := by
  have hrun : findShortestMig ℚ 5 (lineView 0 [1]) (lineRouter 2) 0 1 1 =
      some [lineDirect, lineSolution 2] := by
    decide +kernel
  have hmem : lineSolution 2 ∈ [lineDirect, lineSolution 2] := by simp
  obtain ⟨hshift, hadmitted⟩ := migration_shift_iff (answers_lineRouter 2).shaped hrun rfl rfl hmem
    (by decide) (fun k => Int32.ofNat k)
  have hfits := (hadmitted (by decide) fun _ _ _ _ _ h => borderReal_lineRouter h).mpr
    (connsFit_lineSolution (by decide))
  exact ⟨rfl, hshift.mpr hfits⟩

/-- No place is free in g-node 0. -/
def fullMap : CoordinatorMap (lineView 0 [1]).topology where
  nNodes := 6
  freePositions _ := []
  canReserve _ := true
  free_real _ _ hp := by cases hp

/-- A record that was replicated to the coordinator of g-node 0. -/
def highReplica : WireGnodeMemory Unit := ⟨[], 2 ^ 32 - 1, 3, none, none, none⟩

/-- A replica may bring the counter of virtual positions up to its ceiling, and the next one
reserved is 2³¹.  The FINISH request carries it as a negative number, and `executeMig` drops it. -/
theorem not_executesShift :
    checkTopologyFits (lineView 0 [1]).topology = .ok () ∧
      (((CoordState.new (60000 * msec) (20 * msec) KeyedMap.empty).applyReplica 1
        (gnodeMemoryFromWire highReplica 0)).reserveEnter fullMap 0 1 0).2 =
          .ok ⟨2147483648, 4⟩ ∧
      Shaped (lineView 0 [1]) (lineRouter 2147483648) ∧
      findShortestMig ℚ 5 (lineView 0 [1]) (lineRouter 2147483648) 0 1 1 =
        some [lineDirect, lineSolution 2147483648] ∧
      0 < (lineSolution 2147483648).distance ∧
      ¬ExecutesShift (lineView 0 [1]) (Made ℚ (lineView 0 [1]) (lineRouter 2147483648) 0 1 1)
        (rootStep (lineView 0 [1]) 1) (lineRouter 2147483648) (fun _ => 7)
        (lineSolution 2147483648) := by
  have hshape := (answers_lineRouter 2147483648).shaped
  have hrun : findShortestMig ℚ 5 (lineView 0 [1]) (lineRouter 2147483648) 0 1 1 =
      some [lineDirect, lineSolution 2147483648] := by
    decide +kernel
  refine ⟨by decide, by decide, hshape, hrun, by decide, fun h => ?_⟩
  have hfits := (executesShift_iff (fun _ _ _ _ hmade => hmade.shape hshape)
    (findShortestMig_ok hrun rfl rfl _ (by simp)) (by decide) _ _).mp h
  exact absurd (hfits.conns ⟨⟨[1], [1]⟩, some ⟨[0, 0], [-1, 0]⟩, some 2147483648, some 4⟩
    (by decide) 2147483648 rfl) (by decide)

end Netsukuku.Hooking
