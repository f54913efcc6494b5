import Mathlib
import Netsukuku.PeerServices.Routing
import Netsukuku.PeerServices.TupleSpec

/-!
# Excluded nodes are not elected

A message carries the g-nodes that must not be asked again.  Each node that elects another g-node
excludes the ones it can see itself, and sends on, cut to the new scope, the ones hidden inside
the g-node it elected.  The node that ends up serving is none of the excluded ones.

* `SameGnode` — where a message towards a g-node of level `l` travels: inside the g-node of level
  `l + 1` around the sender.
* `Serves` — the chain of relays and elections from one node to the one that serves; `Elects` is
  the same chain by the name the servant calls itself.
* `Handed` — what one election hands on about the excluded g-nodes; `Handed.contains_cut` — a node
  still excluded on this side is still excluded on the other.
* `Serves.spec` — the servant is in the g-node the message was sent to and is not excluded.
-/

namespace Netsukuku

variable {V : Type}

/-- The two addresses lie in the same g-node of level `level`. -/
def SameGnode (level : ℕ) (a b : Naddr) : Prop :=
  a.topology = b.topology ∧ a.positions.drop level = b.positions.drop level

lemma SameGnode.length_eq {level : ℕ} {a b : Naddr} (h : SameGnode level a b) :
    a.positions.length = b.positions.length := by
  rw [a.length_positions, b.length_positions, h.1]

/-- From `c`, the message `mf` ends at a servant that calls itself `n`.  Every node on the way runs
`forward_msg` on whatever it knows at the time; gateways keep a message inside the g-node its
target and its sender share. -/
inductive Elects (V : Type) : Naddr → PeerMessageForwarder → TupleNode → Prop where
  | relay {c next : Naddr} {mf : PeerMessageForwarder} {n : TupleNode} {target : HCoord}
      (p : PeerState V) (belowLevel : ℕ) (gnodeExists : HCoord → Bool) (hp : p.myPos = c)
      (hforward : forwardMsg p belowLevel gnodeExists mf = .ok (.relay target))
      (hnext : SameGnode (mf.lvl + 1) c next) (helects : Elects V next mf n) : Elects V c mf n
  | serve {c : Naddr} {mf : PeerMessageForwarder} {n : TupleNode}
      (p : PeerState V) (belowLevel : ℕ) (gnodeExists : HCoord → Bool) (hp : p.myPos = c)
      (hforward : forwardMsg p belowLevel gnodeExists mf = .ok (.serve n)) : Elects V c mf n
  | handOver {c next : Naddr} {mf mf' : PeerMessageForwarder} {n : TupleNode} {x : HCoord}
      {told : TupleGNode} (p : PeerState V) (belowLevel : ℕ) (gnodeExists : HCoord → Bool)
      (hp : p.myPos = c)
      (hforward : forwardMsg p belowLevel gnodeExists mf = .ok (.handOver x mf' told))
      (hnext : SameGnode (x.level + 1) c next) (helects : Elects V next mf' n) : Elects V c mf n

/-- From `c`, the message `mf` ends at the servant `f`. -/
inductive Serves (V : Type) : Naddr → PeerMessageForwarder → Naddr → Prop where
  | relay {c next f : Naddr} {mf : PeerMessageForwarder} {target : HCoord}
      (p : PeerState V) (belowLevel : ℕ) (gnodeExists : HCoord → Bool) (hp : p.myPos = c)
      (hforward : forwardMsg p belowLevel gnodeExists mf = .ok (.relay target))
      (hnext : SameGnode (mf.lvl + 1) c next) (hserves : Serves V next mf f) : Serves V c mf f
  | serve {c : Naddr} {mf : PeerMessageForwarder} {n : TupleNode}
      (p : PeerState V) (belowLevel : ℕ) (gnodeExists : HCoord → Bool) (hp : p.myPos = c)
      (hforward : forwardMsg p belowLevel gnodeExists mf = .ok (.serve n)) : Serves V c mf c
  | handOver {c next f : Naddr} {mf mf' : PeerMessageForwarder} {x : HCoord} {told : TupleGNode}
      (p : PeerState V) (belowLevel : ℕ) (gnodeExists : HCoord → Bool) (hp : p.myPos = c)
      (hforward : forwardMsg p belowLevel gnodeExists mf = .ok (.handOver x mf' told))
      (hnext : SameGnode (x.level + 1) c next) (hserves : Serves V next mf' f) : Serves V c mf f

/-! ## One election -/

/-- What an election of `x` hands on in `mf`, given what was excluded. -/
structure Handed (myPos : List UInt32) (excluded : List TupleGNode) (x : HCoord)
    (mf : PeerMessageForwarder) : Prop where
  parts : ∃ q, myPos[x.level]? = some q ∧ q ≠ x.pos
  notVisible : ∀ gn ∈ excluded, convertTupleGnode myPos gn ≠ .ok (.visible, x)
  hidden : ∀ gn ∈ excluded, convertTupleGnode myPos gn = .ok (.hidden, x) →
    ∃ cut ∈ mf.excludeTupleList, cut.top = x.level ∧
      cut.positions = gn.positions.take (x.level - gn.level)
  lvl : mf.lvl = x.level
  pos : mf.pos = x.pos
  scope : ∀ y, mf.xMacron = some y → y.top = x.level

lemma top_cutXMacron {t : Topology} {xMacron y : Option TupleNode} {level : ℕ}
    (h : cutXMacron t xMacron level = .ok y) : ∀ z, y = some z → z.top = level := by
  intro z hz
  unfold cutXMacron at h
  split_ifs at h
  · obtain ⟨x, -, h⟩ := Outcome.bind_eq_ok.mp h
    obtain ⟨pos, hpos, h⟩ := Outcome.bind_eq_ok.mp h
    obtain ⟨cut, hcut, h⟩ := Outcome.bind_eq_ok.mp h
    cases h
    cases hz
    obtain ⟨-, hcut⟩ := TupleNode.new_eq_ok.mp (Outcome.unwrap_eq_ok.mp hcut)
    obtain ⟨⟨-, hlen⟩, rfl⟩ := Outcome.slice_eq_ok.mp hpos
    rw [TupleNode.top, hcut, List.drop_zero, List.length_take, Nat.min_eq_left hlen]
  · cases h
    cases hz

/-- A g-node hidden inside the elected one is sent on, cut to its scope. -/
lemma exists_cut {t : Topology} {myPos : List UInt32} {x : HCoord} {excluded r : List TupleGNode}
    (h : translateExcluded t myPos x excluded = .ok r) {gn : TupleGNode} (hgn : gn ∈ excluded)
    (hhidden : convertTupleGnode myPos gn = .ok (.hidden, x)) :
    ∃ cut ∈ r, cut.top = x.level ∧ cut.positions = gn.positions.take (x.level - gn.level) := by
  obtain ⟨cuts, hcuts, h⟩ := Outcome.bind_eq_ok.mp h
  cases h
  obtain ⟨o, hmem, ho⟩ := Outcome.exists_of_mapM hcuts gn hgn
  rw [cutExcluded, hhidden, Outcome.ok_bind] at ho
  simp only [and_self, if_true] at ho
  obtain ⟨stop, hstop, ho⟩ := Outcome.bind_eq_ok.mp ho
  obtain ⟨pos, hpos, ho⟩ := Outcome.bind_eq_ok.mp ho
  obtain ⟨cut, hcut, ho⟩ := Outcome.bind_eq_ok.mp ho
  cases ho
  obtain ⟨-, htop, hcut⟩ := TupleGNode.new_eq_ok.mp (Outcome.unwrap_eq_ok.mp hcut)
  obtain ⟨-, rfl⟩ := Outcome.slice_eq_ok.mp hpos
  unfold Outcome.checkedSub at hstop
  split_ifs at hstop
  cases hstop
  exact ⟨cut, List.mem_filterMap.mpr ⟨some cut, hmem, rfl⟩, htop, by rw [hcut, List.drop_zero]⟩

/-- Agreeing from a level on is agreeing from any level above it. -/
lemma drop_eq_of_le {a b : List UInt32} {l m : ℕ} (h : a.drop l = b.drop l) (hlm : l ≤ m) :
    a.drop m = b.drop m := by
  have hdrop := congrArg (List.drop (m - l)) h
  rwa [List.drop_drop, List.drop_drop, Nat.add_sub_cancel' hlm] at hdrop

lemma getElem?_eq_of_drop {a b : List UInt32} {l i : ℕ} (h : a.drop l = b.drop l) (hli : l ≤ i) :
    a[i]? = b[i]? := by
  have hget := congrArg (fun pos => pos[i - l]?) h
  simpa only [List.getElem?_drop, Nat.add_sub_cancel' hli] using hget

/-- **A node excluded before the election is excluded after it.**  If the g-node elected contains
the node at `f` and `f` lies in an excluded g-node not above the one elected, the message handed on
still excludes one around `f`. -/
lemma Handed.contains_cut {myPos : List UInt32} {excluded : List TupleGNode} {x : HCoord}
    {mf : PeerMessageForwarder} (h : Handed myPos excluded x mf) {f : List UInt32}
    (hx : f[x.level]? = some x.pos) (habove : f.drop (x.level + 1) = myPos.drop (x.level + 1)) {gn : TupleGNode}
    (hgn : gn ∈ excluded) (hlevel : gn.level ≤ x.level) (htop : x.level < gn.top)
    (hf : gn.Contains f) : ∃ cut ∈ mf.excludeTupleList, cut.top = mf.lvl ∧ cut.Contains f := by
  obtain ⟨q, hq, hne⟩ := h.parts
  have hadd := gn.level_add_length
  obtain ⟨offset, hoffset⟩ : ∃ offset, x.level = gn.level + offset := ⟨x.level - gn.level, by omega⟩
  have hlt : offset < gn.positions.length := by omega
  have hagree : ∀ i, offset < i → i < gn.positions.length →
      ∃ p, myPos[gn.level + i]? = some p ∧ gn.positions[i]? = some p := by
    intro i hi hi'
    have hget := List.getElem?_eq_getElem hi'
    refine ⟨gn.positions[i], ?_, hget⟩
    rw [← getElem?_eq_of_drop habove (show x.level + 1 ≤ gn.level + i by omega), hf i hi', hget]
  have hconvert : convertTupleGnode myPos gn =
      .ok (if offset = 0 then .visible else .hidden, x) := by
    have htheirs : gn.positions[offset]? = some x.pos := by
      rw [← hf offset hlt, ← hoffset, hx]
    have hscan : convertScan myPos gn.level gn.positions gn.positions.length =
        .ok (if offset = 0 then .visible else .hidden, ⟨gn.level + offset, x.pos⟩) :=
      convertScan_of_parts hlt (by rwa [← hoffset]) htheirs hne hagree
    rw [convertTupleGnode, hscan, ← hoffset]
  by_cases hzero : offset = 0
  · rw [if_pos hzero] at hconvert
    exact absurd hconvert (h.notVisible gn hgn)
  · rw [if_neg hzero] at hconvert
    obtain ⟨cut, hcut, hcuttop, hcutpos⟩ := h.hidden gn hgn hconvert
    have hcutlen : cut.positions.length = offset := by
      rw [hcutpos, List.length_take]
      omega
    have hcutlevel : cut.level = gn.level := by
      rw [TupleGNode.level, hcuttop, hcutlen]
      omega
    refine ⟨cut, hcut, by rw [hcuttop, h.lvl], fun i hi => ?_⟩
    rw [hcutlevel, hf i (by omega), hcutpos, List.getElem?_take_of_lt (by omega)]

/-- Whatever a tuple of the message excludes at a node, the election there leaves out. -/
lemma exists_excludeInside {t : Topology} {myPos : List UInt32} {gns : List TupleGNode}
    {excluded : List (List HCoord)} (h : gns.mapM (excludeInside t myPos) = .ok excluded)
    {x : HCoord} (hx : x ∉ excluded.flatten) {gn : TupleGNode} (hgn : gn ∈ gns) :
    ∃ l, excludeInside t myPos gn = .ok l ∧ x ∉ l := by
  obtain ⟨l, hl, hgn'⟩ := Outcome.exists_of_mapM h gn hgn
  exact ⟨l, hgn', fun hmem => hx (List.mem_flatten_of_mem hl hmem)⟩

/-- The node elected somebody, itself or a g-node. -/
def Forwarding.Elected : Forwarding → Prop
  | .serve _ | .handOver _ _ _ => True
  | _ => False

/-- An election takes place only in the g-node the message was sent to. -/
lemma forwardMsg_elected {p : PeerState V} {belowLevel : ℕ} {gnodeExists : HCoord → Bool}
    {mf : PeerMessageForwarder} {o : Forwarding}
    (h : forwardMsg p belowLevel gnodeExists mf = .ok o) (ho : o.Elected) :
    p.myPos.positions[mf.lvl]? = some mf.pos ∧ forwardInside p gnodeExists mf = .ok o := by
  obtain ⟨q, hq, h⟩ := Outcome.bind_eq_ok.mp h
  split_ifs at h with hne
  · cases h
    exact ho.elim
  · cases h
    exact ho.elim
  · obtain ⟨gn, -, h⟩ := Outcome.bind_eq_ok.mp h
    cases h
    exact ho.elim
  · obtain rfl := not_not.mp hne
    exact ⟨Outcome.index_eq_ok.mp hq, h⟩

/-- What the election inside found out: somebody not excluded, myself or a candidate. -/
lemma forwardInside_elected {p : PeerState V} {gnodeExists : HCoord → Bool}
    {mf : PeerMessageForwarder} {o : Forwarding} (h : forwardInside p gnodeExists mf = .ok o)
    (ho : o.Elected) :
    ∃ x p₀, p.myPos.positions[0]? = some p₀ ∧
      (∀ gn ∈ mf.excludeTupleList, ∃ l,
        excludeInside p.topology p.myPos.positions gn = .ok l ∧ x ∉ l) ∧
      ((x = ⟨0, p₀⟩ ∧ ∃ n, o = .serve n ∧
          makeTupleNode p.topology p.myPos.positions ⟨0, p₀⟩ mf.n.top = .ok n) ∨
        ∃ y mf' told, o = .handOver x mf' told ∧ mf.xMacron = some y ∧ x.level < y.top ∧
          x.InRange p.topology ∧ (∃ q, p.myPos.positions[x.level]? = some q ∧ q ≠ x.pos) ∧
          mf'.lvl = x.level ∧ mf'.pos = x.pos ∧ mf'.n = mf.n ∧
          cutXMacron p.topology mf.xMacron x.level = .ok mf'.xMacron ∧
          translateExcluded p.topology p.myPos.positions x mf.excludeTupleList =
            .ok mf'.excludeTupleList) := by
  obtain ⟨nonParticipants, -, h⟩ := Outcome.bind_eq_ok.mp h
  obtain ⟨excluded, hexcluded, h⟩ := Outcome.bind_eq_ok.mp h
  obtain ⟨elected, helected, h⟩ := Outcome.bind_eq_ok.mp h
  cases elected with
  | none =>
      obtain ⟨gn, -, h⟩ := Outcome.bind_eq_ok.mp h
      cases h
      exact ho.elim
  | some x =>
      obtain ⟨p₀, hp₀, h⟩ := Outcome.bind_eq_ok.mp h
      obtain ⟨hnotMem, hx⟩ := approximate_eq_some helected
      rw [List.mem_append, not_or] at hnotMem
      refine ⟨x, p₀, Outcome.index_eq_ok.mp hp₀, fun gn hgn =>
        exists_excludeInside hexcluded hnotMem.2 hgn, ?_⟩
      split_ifs at h with hme
      · obtain ⟨n, hn, h⟩ := Outcome.bind_eq_ok.mp h
        cases h
        exact .inl ⟨hme, n, rfl, hn⟩
      · obtain ⟨xMacron, hxMacron, h⟩ := Outcome.bind_eq_ok.mp h
        obtain ⟨cuts, hcuts, h⟩ := Outcome.bind_eq_ok.mp h
        obtain ⟨gns, -, h⟩ := Outcome.bind_eq_ok.mp h
        obtain ⟨told, -, h⟩ := Outcome.bind_eq_ok.mp h
        cases h
        have hother : ¬(x.level = 0 ∧ p.myPos.positions[0]? = some x.pos) := by
          rintro ⟨hlevel, hpos⟩
          refine hme ?_
          obtain ⟨level, pos⟩ := x
          cases hlevel
          cases hpos.symm.trans (Outcome.index_eq_ok.mp hp₀)
          rfl
        obtain ⟨y, hy, hcandidate⟩ := hx.resolve_left hother
        exact .inr ⟨y, _, told, rfl, hy, hcandidate.level_lt,
          (approximate_inRange_or_self helected).resolve_right hother, hcandidate.parts, rfl, rfl,
          rfl, hxMacron, hcuts⟩

/-- A tuple that contains me is mine. -/
lemma convertTupleGnode_of_contains {myPos : List UInt32} {gn : TupleGNode}
    (h : gn.Contains myPos) : ∃ q, convertTupleGnode myPos gn = .ok (.mine, ⟨gn.level, q⟩) := by
  obtain ⟨q, hq⟩ : ∃ q, gn.positions[0]? = some q :=
    ⟨_, List.getElem?_eq_getElem (List.length_pos_of_ne_nil gn.nonempty)⟩
  refine ⟨q, convertScan_of_agree hq fun i hi => ?_⟩
  have hget := List.getElem?_eq_getElem hi
  exact ⟨gn.positions[i], (h i hi).trans hget, hget⟩

/-- A g-node of level 0 that shows what an address shows contains it. -/
lemma contains_of_take {pos : List UInt32} {gn : TupleGNode} (hlevel : gn.level = 0)
    (hpos : gn.positions = pos.take gn.top) : gn.Contains pos := by
  have hadd := gn.level_add_length
  intro i hi
  rw [hlevel, Nat.zero_add, hpos, List.getElem?_take_of_lt (by omega)]

/-- Where the g-node elected is below a tuple that contains the node elected, the tuple contains
the elector. -/
lemma contains_of_below {myPos f : List UInt32} {gn : TupleGNode} {level : ℕ}
    (habove : f.drop (level + 1) = myPos.drop (level + 1)) (hlevel : level < gn.level)
    (hf : gn.Contains f) : gn.Contains myPos := by
  intro i hi
  rw [← hf i hi, getElem?_eq_of_drop habove (by omega)]

/-- **The servant is where the message was sent, and is not excluded.**  Its address agrees with
the sender's above the level of the message, and no excluded g-node of the message's scope contains
it. -/
theorem Serves.spec {c f : Naddr} {mf : PeerMessageForwarder} (h : Serves V c mf f)
    (hscope : ∀ y, mf.xMacron = some y → y.top ≤ mf.lvl) :
    SameGnode (mf.lvl + 1) c f ∧ f.positions[mf.lvl]? = some mf.pos ∧
      ∀ gn ∈ mf.excludeTupleList, gn.top = mf.lvl → ¬gn.Contains f.positions := by
  induction h with
  | relay p belowLevel gnodeExists hp hforward hnext hserves ih =>
      obtain ⟨hsame, hpos, havoids⟩ := ih hscope
      exact ⟨⟨hnext.1.trans hsame.1, hnext.2.trans hsame.2⟩, hpos, havoids⟩
  | serve p belowLevel gnodeExists hp hforward =>
      subst hp
      obtain ⟨hhere, hinside⟩ := forwardMsg_elected hforward trivial
      obtain ⟨x, p₀, hp₀, hnotMem, ⟨rfl, -⟩ | ⟨_, _, _, ho, _⟩⟩ :=
        forwardInside_elected hinside trivial
      · refine ⟨⟨rfl, rfl⟩, hhere, fun gn hgn _ hcontains => ?_⟩
        obtain ⟨l, hl, hnot⟩ := hnotMem gn hgn
        obtain ⟨q, hmine⟩ := convertTupleGnode_of_contains hcontains
        rw [excludeInside, hmine, Outcome.ok_bind] at hl
        exact hnot (self_mem_allGnodesUpToLvl hl hp₀)
      · cases ho
  | @handOver c next f mf mf' x told p belowLevel gnodeExists hp hforward hnext hserves ih =>
      subst hp
      obtain ⟨hhere, hinside⟩ := forwardMsg_elected hforward trivial
      obtain ⟨_, p₀, hp₀, hnotMem, ⟨_, _, ho, _⟩ | ⟨y, _, _, ho, hy, hlt, hrange, hparts, hlvl,
        hmfpos, -, hcut, htranslate⟩⟩ := forwardInside_elected hinside trivial
      · cases ho
      cases ho
      have hhanded : Handed p.myPos.positions mf.excludeTupleList x mf' := {
        parts := hparts
        notVisible := fun gn hgn hconvert => by
          obtain ⟨l, hl, hnot⟩ := hnotMem gn hgn
          rw [excludeInside, hconvert] at hl
          cases hl
          exact hnot List.mem_cons_self
        hidden := fun gn hgn hconvert => exists_cut htranslate hgn hconvert
        lvl := hlvl
        pos := hmfpos
        scope := top_cutXMacron hcut }
      obtain ⟨hsame, hpos, havoids⟩ := ih fun z hz => by rw [hhanded.scope z hz, hlvl]
      have hsame' : SameGnode (x.level + 1) p.myPos f :=
        ⟨hnext.1.trans hsame.1, hnext.2.trans (by rw [← hlvl, hsame.2])⟩
      have hfx : f.positions[x.level]? = some x.pos := by rw [← hlvl, hpos, hmfpos]
      -- the g-node elected is below the level of the message, so above it nothing changes
      have hbelow : x.level + 1 ≤ mf.lvl := hlt.trans_le (hscope y hy)
      have hdrop := drop_eq_of_le hsame'.2.symm hbelow
      refine ⟨⟨hsame'.1, drop_eq_of_le hdrop.symm (Nat.le_succ _)⟩, ?_, ?_⟩
      · rw [getElem?_eq_of_drop hdrop le_rfl, hhere]
      · intro gn hgn htop hcontains
        by_cases hlevel : gn.level ≤ x.level
        · obtain ⟨cut, hcut', hcuttop, hcutcontains⟩ := hhanded.contains_cut hfx hsame'.2.symm
            hgn hlevel (by rw [htop]; exact hbelow) hcontains
          exact havoids cut hcut' hcuttop hcutcontains
        · -- then the tuple is mine, and every g-node of my map below it is excluded
          obtain ⟨l, hl, hnot⟩ := hnotMem gn hgn
          obtain ⟨r, hmine⟩ := convertTupleGnode_of_contains
            (contains_of_below hsame'.2.symm (not_le.mp hlevel) hcontains)
          rw [excludeInside, hmine, Outcome.ok_bind] at hl
          obtain ⟨q, hq, hne⟩ := hparts
          exact hnot (mem_allGnodesUpToLvl hl (not_le.mp hlevel) hrange hq hne)

/-- The servant calls itself what its address shows in the scope of the message. -/
lemma Elects.exists_serves {c : Naddr} {mf : PeerMessageForwarder} {n : TupleNode}
    (h : Elects V c mf n) : ∃ f, Serves V c mf f ∧ n.positions = f.positions.take mf.n.top := by
  induction h with
  | relay p belowLevel gnodeExists hp hforward hnext helects ih =>
      obtain ⟨f, hserves, hn⟩ := ih
      exact ⟨f, .relay p belowLevel gnodeExists hp hforward hnext hserves, hn⟩
  | serve p belowLevel gnodeExists hp hforward =>
      subst hp
      obtain ⟨-, hinside⟩ := forwardMsg_elected hforward trivial
      obtain ⟨x, p₀, hp₀, -, ⟨rfl, n', hn', hmake⟩ | ⟨_, _, _, ho, _⟩⟩ :=
        forwardInside_elected hinside trivial
      · cases hn'
        exact ⟨_, .serve p belowLevel gnodeExists rfl hforward,
          positions_makeTupleNode_self hp₀ hmake⟩
      · cases ho
  | handOver p belowLevel gnodeExists hp hforward hnext helects ih =>
      obtain ⟨f, hserves, hn⟩ := ih
      have hp' := hp
      subst hp'
      obtain ⟨-, hinside⟩ := forwardMsg_elected hforward trivial
      obtain ⟨_, _, -, -, ⟨_, _, ho, _⟩ | ⟨_, _, _, ho, -, -, -, -, -, -, hmfn, -⟩⟩ :=
        forwardInside_elected hinside trivial
      · cases ho
      cases ho
      exact ⟨f, .handOver p belowLevel gnodeExists hp hforward hnext hserves, by rw [hn, hmfn]⟩

end Netsukuku
