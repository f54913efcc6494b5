import Mathlib
import Netsukuku.Common.Address

/-!
# Telling every member of a g-node

A migration, an entry or a split concerns all the members of a g-node.  The node that starts it
tells its neighbours; a member that hears of it for the first time tells its own neighbours and
then runs its handler.  What is not for its g-node, and what it has heard before, it drops.

* `checkPropagation` — whether a message is new and meant for me.
* `PropagationWorld.next` — a start, a delivery, a step of a fan-out, a handler, an expiry; messages
  may be delivered in any order, duplicated, or lost.
* `PropagationInv` — what has been accepted, against what is on its way.
* `propagation_exactly_once` — who runs a handler, and how often.
-/

namespace Netsukuku

/-- What is propagated; each kind has a handler of its own. -/
inductive PropagationKind where
  | prepareMigration
  | finishMigration
  | prepareEnter
  | finishEnter
  | weHaveSplitted
  deriving DecidableEq, Repr

/-- The kinds sent to each neighbour in turn; the others go to all neighbours at once. -/
def PropagationKind.inTurn : PropagationKind → Bool
  | .prepareMigration => true
  | .prepareEnter => true
  | _ => false

/-- `PropagationArgs`; `V` is the type of the handler's data. -/
structure PropagationArgs (V : Type) where
  positions : List UInt32
  fpId : Int64
  propagationId : Int32
  level : ℕ
  data : V

/-- The nodes of a network: their positions, the fingerprint ids of their g-nodes, and who is a
neighbour of whom. -/
structure PropagationNet (ν : Type) where
  levels : ℕ
  myPos : ν → ℕ → UInt32
  fpId : ν → ℕ → Int64
  neighbors : ν → List ν

/-- `State::check_propagation`. -/
def checkPropagation {ν V : Type} (net : PropagationNet ν) (node : ν) (recent : Finset Int32)
    (args : PropagationArgs V) : Bool :=
  if args.propagationId ∈ recent then false
  else if net.levels ≤ args.level ∨ args.positions.length ≠ net.levels - args.level then false
  else if !(args.positions.zipIdx.all fun e => decide (e.1 = net.myPos node (args.level + e.2))) then
    false
  else decide (args.fpId = net.fpId node args.level)

/-- `prepare_propagation`, once the id is known. -/
def preparePropagation {ν V : Type} (net : PropagationNet ν) (node : ν) (level : ℕ)
    (propagationId : Int32) (data : V) : PropagationArgs V :=
  ⟨(List.range (net.levels - level)).map fun i => net.myPos node (level + i), net.fpId node level,
    propagationId, level, data⟩

/-- Something propagated, at a node. -/
structure Notice (ν V : Type) where
  node : ν
  kind : PropagationKind
  args : PropagationArgs V

/-- A node at work on a notice: the neighbours it has still to tell before its handler runs. -/
structure Fanout (ν V : Type) where
  notice : Notice ν V
  left : List ν

/-- The next messages of a fan-out, and what is left of it. -/
def Fanout.step {ν V : Type} (t : Fanout ν V) : List (Notice ν V) × Fanout ν V :=
  let now := if t.notice.kind.inTurn then t.left.take 1 else t.left
  let later := if t.notice.kind.inTurn then t.left.drop 1 else []
  (now.map fun v => { t.notice with node := v }, { t with left := later })

/-- The state of all nodes: what each has heard of lately, the messages in flight with their
destinations, and the work under way.  The rest is history: what was started, which handlers ran,
which expiries are due and which are done, and whether a message was lost. -/
structure PropagationWorld (ν V : Type) where
  recent : ν → Finset Int32
  wire : List (Notice ν V)
  tasks : List (Fanout ν V)
  started : List (Notice ν V)
  ran : List (Notice ν V)
  cleanups : List (ν × Int32)
  expired : List (ν × Int32)
  lost : Bool

/-- A step of one node or of the wire. -/
inductive PropagationAction (ν V : Type) (levels : ℕ) where
  | start (node : ν) (kind : PropagationKind) (level : Fin levels) (propagationId : Int32) (data : V)
  | deliver (i : ℕ)
  | duplicate (i : ℕ)
  | lose (i : ℕ)
  | send (i : ℕ)
  | run (i : ℕ)
  | expire (i : ℕ)

namespace PropagationWorld

variable {ν V : Type} [DecidableEq ν]

/-- A notice is remembered, and its neighbours are to be told. -/
def accept (net : PropagationNet ν) (w : PropagationWorld ν V) (n : Notice ν V) :
    PropagationWorld ν V :=
  { w with
    recent := Function.update w.recent n.node (insert n.args.propagationId (w.recent n.node))
    tasks := w.tasks ++ [⟨n, net.neighbors n.node⟩] }

/-- One step; `none` if it cannot be taken.  A node waits for the answer to a message, or for the
failure of one, before it goes on: when it does is left open.  The ids of propagations are
different. -/
def next (net : PropagationNet ν) (w : PropagationWorld ν V) :
    PropagationAction ν V net.levels → Option (PropagationWorld ν V)
  | .start node kind level propagationId data =>
      if w.started.any fun n => decide (n.args.propagationId = propagationId) then none
      else
        let n : Notice ν V := ⟨node, kind, preparePropagation net node level propagationId data⟩
        some (accept net { w with started := n :: w.started } n)
  | .deliver i => (w.wire[i]?).map fun n =>
      let w := { w with wire := w.wire.eraseIdx i }
      if checkPropagation net n.node (w.recent n.node) n.args then accept net w n else w
  | .duplicate i => (w.wire[i]?).map fun n => { w with wire := n :: w.wire }
  | .lose i => (w.wire[i]?).map fun _ => { w with wire := w.wire.eraseIdx i, lost := true }
  | .send i => (w.tasks[i]?).bind fun t =>
      if t.left = [] then none
      else some { w with
        wire := w.wire ++ t.step.1, tasks := w.tasks.set i t.step.2 }
  | .run i => (w.tasks[i]?).bind fun t =>
      if t.left = [] then
        some { w with
          tasks := w.tasks.eraseIdx i
          ran := t.notice :: w.ran
          cleanups := (t.notice.node, t.notice.args.propagationId) :: w.cleanups }
      else none
  | .expire i => (w.cleanups[i]?).map fun e =>
      { w with
        recent := Function.update w.recent e.1 ((w.recent e.1).erase e.2)
        cleanups := w.cleanups.eraseIdx i
        expired := e :: w.expired }

/-- Nothing is propagated yet. -/
def initial : PropagationWorld ν V := ⟨fun _ => ∅, [], [], [], [], [], [], false⟩

/-- The states that are reached from there. -/
def Reachable (net : PropagationNet ν) (w : PropagationWorld ν V) : Prop :=
  Relation.ReflTransGen (fun w w' => ∃ a, next net w a = some w') initial w

/-- The notices a node has taken on: those under way and those done. -/
def accepted (w : PropagationWorld ν V) : List (Notice ν V) := w.tasks.map Fanout.notice ++ w.ran

end PropagationWorld

/-! ## Who a notice is for -/

/-- The node is in the g-node of `origin` at `level`: the same positions from there up, and the same
fingerprint id. -/
def PropagationNet.SameGnode {ν : Type} (net : PropagationNet ν) (origin node : ν) (level : ℕ) :
    Prop :=
  (∀ l, level ≤ l → l < net.levels → net.myPos node l = net.myPos origin l) ∧
    net.fpId node level = net.fpId origin level

section Check

variable {ν V : Type} {net : PropagationNet ν} {origin node : ν} {level : ℕ} {id : Int32} {data : V}
  {recent : Finset Int32}

/-- A notice that is new is taken on by the members of the origin's g-node and by nobody else. -/
lemma checkPropagation_prepared (hlevel : level < net.levels) :
    checkPropagation net node recent (preparePropagation net origin level id data) = true ↔
      id ∉ recent ∧ net.SameGnode origin node level := by
  have hlen : ¬ (net.levels ≤ level ∨
      ((List.range (net.levels - level)).map fun i => net.myPos origin (level + i)).length ≠
        net.levels - level) := by
    simp [hlevel]
  have hpos : ((((List.range (net.levels - level)).map fun i =>
      net.myPos origin (level + i)).zipIdx.all fun e =>
        decide (e.1 = net.myPos node (level + e.2))) = true) ↔
      ∀ l, level ≤ l → l < net.levels → net.myPos node l = net.myPos origin l := by
    simp only [List.all_eq_true, decide_eq_true_eq, Prod.forall, List.mem_zipIdx_iff_getElem?,
      List.getElem?_map, Option.map_eq_some_iff]
    constructor
    · intro h l hle hlt
      have heq := h (net.myPos origin l) (l - level)
        ⟨l - level, by rw [List.getElem?_range (by omega)], by rw [Nat.add_sub_cancel' hle]⟩
      rw [Nat.add_sub_cancel' hle] at heq
      exact heq.symm
    · rintro h p i ⟨j, hj, rfl⟩
      obtain ⟨hlt, rfl⟩ := List.getElem?_eq_some_iff.mp hj
      simp only [List.length_range] at hlt
      simp only [List.getElem_range]
      exact (h (level + i) (by omega) (by omega)).symm
  unfold checkPropagation preparePropagation PropagationNet.SameGnode
  simp only [if_neg hlen]
  by_cases hid : id ∈ recent
  · simp [hid]
  · simp only [hid, if_false, not_false_eq_true, true_and]
    by_cases hall : ∀ l, level ≤ l → l < net.levels → net.myPos node l = net.myPos origin l
    · rw [hpos.mpr hall]
      simp only [Bool.not_true, Bool.false_eq_true, if_false, decide_eq_true_eq]
      exact ⟨fun h => ⟨hall, h.symm⟩, fun h => h.2.symm⟩
    · rw [Bool.eq_false_iff.mpr fun h => hall (hpos.mp h)]
      simp [hall]

end Check

/-! ## The invariant -/

/-- The notices of `id` that `node` has taken on, or run. -/
def Notice.isAt {ν V : Type} [DecidableEq ν] (node : ν) (id : Int32) (n : Notice ν V) : Bool :=
  decide (n.node = node ∧ n.args.propagationId = id)

/-- `m` is the notice `n`, at another node. -/
def Notice.SameAs {ν V : Type} (n m : Notice ν V) : Prop := m = { n with node := m.node }

/-- What has been started, taken on and sent so far. -/
structure PropagationInv {ν V : Type} [DecidableEq ν] (net : PropagationNet ν)
    (w : PropagationWorld ν V) : Prop where
  prepared : ∀ n ∈ w.started, n.args.level < net.levels ∧
    n.args = preparePropagation net n.node n.args.level n.args.propagationId n.args.data
  unique : ∀ n ∈ w.started, ∀ m ∈ w.started, n.args.propagationId = m.args.propagationId → n = m
  wire : ∀ m ∈ w.wire, ∃ n ∈ w.started, n.SameAs m
  accepted : ∀ m ∈ w.accepted, ∃ n ∈ w.started, n.SameAs m ∧ net.SameGnode n.node m.node n.args.level
  once : ∀ node id, (node, id) ∉ w.expired → w.accepted.countP (Notice.isAt node id) ≤ 1 ∧
    ∀ m ∈ w.accepted, m.node = node → m.args.propagationId = id → id ∈ w.recent node
  seen : ∀ node id, id ∈ w.recent node →
    ∃ m ∈ w.accepted, m.node = node ∧ m.args.propagationId = id
  -- A neighbour of a node that took the notice on is told, or still to be told, or has heard of it.
  spread : w.lost = false → ∀ n ∈ w.started, ∀ m ∈ w.accepted, n.SameAs m →
    ∀ v ∈ net.neighbors m.node, net.SameGnode n.node v n.args.level →
      { n with node := v } ∈ w.wire ∨ (∃ t ∈ w.tasks, t.notice = m ∧ v ∈ t.left) ∨
        { n with node := v } ∈ w.accepted

section Steps

variable {ν V : Type} {net : PropagationNet ν} {w w' : PropagationWorld ν V} {n m : Notice ν V}
  {i : ℕ}

/-- A task that is done: its notice stays among those taken on. -/
lemma accepted_run {t : Fanout ν V} (hget : w.tasks[i]? = some t) :
    w.accepted.Perm ((w.tasks.eraseIdx i).map Fanout.notice ++ t.notice :: w.ran) := by
  obtain ⟨hlt, rfl⟩ := List.getElem?_eq_some_iff.mp hget
  have hperm : w.tasks.Perm (w.tasks[i] :: w.tasks.eraseIdx i) :=
    (List.getElem_cons_eraseIdx_perm hlt).symm
  have hmap := (hperm.map Fanout.notice).append_right w.ran
  rw [List.map_cons, List.cons_append] at hmap
  exact hmap.trans List.perm_middle.symm

/-- What a fan-out sends and what it keeps, of what is left of it. -/
lemma step_left (t : Fanout ν V) : t.step.2.notice = t.notice ∧
    (∀ m ∈ t.step.1, t.notice.SameAs m) ∧
    ∀ v ∈ t.left, { t.notice with node := v } ∈ t.step.1 ∨ v ∈ t.step.2.left := by
  refine ⟨rfl, ?_, ?_⟩
  · intro m hm
    obtain ⟨v, -, rfl⟩ := List.mem_map.mp hm
    rfl
  · intro v hv
    unfold Fanout.step
    cases t.notice.kind.inTurn with
    | true =>
        rw [← List.take_append_drop 1 t.left] at hv
        rcases List.mem_append.mp hv with hv | hv
        · exact Or.inl (List.mem_map.mpr ⟨v, hv, rfl⟩)
        · exact Or.inr hv
    | false => exact Or.inl (List.mem_map.mpr ⟨v, hv, rfl⟩)

/-- A task that sends keeps its notice. -/
lemma map_set_notice {t : Fanout ν V} (hget : w.tasks[i]? = some t) :
    (w.tasks.set i t.step.2).map Fanout.notice = w.tasks.map Fanout.notice := by
  have hlt : i < w.tasks.length := (List.getElem?_eq_some_iff.mp hget).1
  refine List.ext_getElem? fun j => ?_
  rw [List.map_set, List.getElem?_set, (step_left t).1]
  split_ifs with hij hj
  · subst hij
    rw [List.getElem?_map, hget, Option.map_some]
  · rw [List.length_map] at hj
    exact absurd hlt hj
  · rfl

variable [DecidableEq ν]

lemma accepted_accept : (PropagationWorld.accept net w n).accepted.Perm (n :: w.accepted) := by
  simp only [PropagationWorld.accepted, PropagationWorld.accept, List.map_append, List.map_cons,
    List.map_nil, List.append_assoc, List.singleton_append]
  exact List.perm_middle

lemma mem_accepted_accept :
    m ∈ (PropagationWorld.accept net w n).accepted ↔ m = n ∨ m ∈ w.accepted := by
  rw [accepted_accept.mem_iff, List.mem_cons]

lemma initial_inv : PropagationInv net (PropagationWorld.initial : PropagationWorld ν V) := by
  constructor <;> simp [PropagationWorld.initial, PropagationWorld.accepted]

/-- A notice that started is determined by its id. -/
lemma PropagationInv.eq_of_id (h : PropagationInv net w) {n' : Notice ν V} (hn : n ∈ w.started)
    (hn' : n' ∈ w.started) (hm : n'.SameAs m) (hid : m.args.propagationId = n.args.propagationId) :
    n.SameAs m := by
  have hargs : m.args = n'.args := by rw [hm]
  rw [hargs] at hid
  rw [h.unique n hn n' hn' hid.symm]
  exact hm

/-- A member that hears of a notice for the first time takes it on. -/
lemma accept_inv (h : PropagationInv net w) (hn : n ∈ w.started) (hm : n.SameAs m)
    (hnew : n.args.propagationId ∉ w.recent m.node)
    (hsame : net.SameGnode n.node m.node n.args.level) :
    PropagationInv net (PropagationWorld.accept net w m) where
  prepared := h.prepared
  unique := h.unique
  wire := h.wire
  accepted := by
    intro m' hm'
    rcases mem_accepted_accept.mp hm' with rfl | hm'
    · exact ⟨n, hn, hm, hsame⟩
    · exact h.accepted m' hm'
  once := by
    have hid : m.args.propagationId = n.args.propagationId := by rw [hm]
    intro node id hexp
    obtain ⟨hcount, hrecent⟩ := h.once node id hexp
    have hstay : ∀ m' ∈ w.accepted, m'.node = node → m'.args.propagationId = id →
        id ∈ (PropagationWorld.accept net w m).recent node := by
      intro m' hm' hnode hid'
      have := hrecent m' hm' hnode hid'
      simp only [PropagationWorld.accept]
      by_cases heq : node = m.node
      · subst heq
        rw [Function.update_self]
        exact Finset.mem_insert_of_mem this
      · rwa [Function.update_of_ne heq]
    refine ⟨?_, ?_⟩
    · rw [accepted_accept.countP_eq, List.countP_cons]
      split_ifs with hat
      · -- Nothing of this id was taken on here before: it would be remembered.
        obtain ⟨hnode, hid'⟩ := of_decide_eq_true hat
        have hzero : w.accepted.countP (Notice.isAt node id) = 0 := by
          rw [List.countP_eq_zero]
          intro m' hm' hat'
          obtain ⟨hnode', hid''⟩ := of_decide_eq_true hat'
          have := hrecent m' hm' hnode' hid''
          rw [← hnode, ← hid', hid] at this
          exact hnew this
        omega
      · exact hcount
    · intro m' hm' hnode hid'
      rcases mem_accepted_accept.mp hm' with rfl | hm'
      · subst hnode hid'
        simp [PropagationWorld.accept]
      · exact hstay m' hm' hnode hid'
  seen := by
    intro node id hid
    simp only [PropagationWorld.accept] at hid
    by_cases heq : node = m.node
    · subst heq
      rw [Function.update_self, Finset.mem_insert] at hid
      rcases hid with rfl | hid
      · exact ⟨m, mem_accepted_accept.mpr (Or.inl rfl), rfl, rfl⟩
      · obtain ⟨m', hm', hrest⟩ := h.seen _ id hid
        exact ⟨m', mem_accepted_accept.mpr (Or.inr hm'), hrest⟩
    · rw [Function.update_of_ne heq] at hid
      obtain ⟨m', hm', hrest⟩ := h.seen node id hid
      exact ⟨m', mem_accepted_accept.mpr (Or.inr hm'), hrest⟩
  spread := by
    intro hlost n' hn' m' hm' hsameAs v hv hmember
    rcases mem_accepted_accept.mp hm' with rfl | hm'
    · right; left
      exact ⟨⟨m', net.neighbors m'.node⟩, by simp [PropagationWorld.accept], rfl, hv⟩
    · rcases h.spread hlost n' hn' m' hm' hsameAs v hv hmember with hwire | ⟨t, ht, hrest⟩ | hacc
      · exact Or.inl hwire
      · exact Or.inr (Or.inl ⟨t, List.mem_append_left _ ht, hrest⟩)
      · exact Or.inr (Or.inr (mem_accepted_accept.mpr (Or.inr hacc)))

/-- A propagation starts with an id of its own. -/
lemma started_inv (h : PropagationInv net w) (hlevel : n.args.level < net.levels)
    (hargs : n.args = preparePropagation net n.node n.args.level n.args.propagationId n.args.data)
    (hid : ∀ n' ∈ w.started, n'.args.propagationId ≠ n.args.propagationId) :
    PropagationInv net { w with started := n :: w.started } where
  prepared := by
    intro n' hn'
    rcases List.mem_cons.mp hn' with rfl | hn'
    · exact ⟨hlevel, hargs⟩
    · exact h.prepared n' hn'
  unique := by
    intro n₁ hn₁ n₂ hn₂ heq
    rcases List.mem_cons.mp hn₁ with rfl | hold₁
    · rcases List.mem_cons.mp hn₂ with rfl | hold₂
      · rfl
      · exact absurd heq.symm (hid n₂ hold₂)
    · rcases List.mem_cons.mp hn₂ with rfl | hold₂
      · exact absurd heq (hid n₁ hold₁)
      · exact h.unique n₁ hold₁ n₂ hold₂ heq
  wire := by
    intro m hm
    obtain ⟨n', hn', hrest⟩ := h.wire m hm
    exact ⟨n', List.mem_cons_of_mem _ hn', hrest⟩
  accepted := by
    intro m hm
    obtain ⟨n', hn', hrest⟩ := h.accepted m hm
    exact ⟨n', List.mem_cons_of_mem _ hn', hrest⟩
  once := h.once
  seen := h.seen
  spread := by
    intro hlost n' hn' m hm hsameAs
    rcases List.mem_cons.mp hn' with rfl | hn'
    · -- Nobody can have taken on what has only just started.
      obtain ⟨n'', hn'', hsameAs', -⟩ := h.accepted m hm
      have heq : n''.args = n'.args := by rw [← show m.args = n''.args by rw [hsameAs'], hsameAs]
      exact absurd (congrArg PropagationArgs.propagationId heq) (hid n'' hn'')
    · exact h.spread hlost n' hn' m hm hsameAs

/-- A message is off the wire that its destination need not get, or has got. -/
lemma eraseIdx_inv (h : PropagationInv net w) (hget : w.wire[i]? = some m)
    (hgone : w.lost = true ∨ ∀ n ∈ w.started, n.SameAs m →
      net.SameGnode n.node m.node n.args.level → m ∈ w.accepted) :
    PropagationInv net { w with wire := w.wire.eraseIdx i } where
  prepared := h.prepared
  unique := h.unique
  wire := fun m' hm' => h.wire m' (List.mem_of_mem_eraseIdx hm')
  accepted := h.accepted
  once := h.once
  seen := h.seen
  spread := by
    intro hlost n hn m' hm' hsameAs v hv hmember
    rcases h.spread hlost n hn m' hm' hsameAs v hv hmember with hwire | hrest
    · by_cases heq : { n with node := v } = m
      · subst heq
        rcases hgone with hgone | hgone
        · rw [hlost] at hgone
          cases hgone
        · exact Or.inr (Or.inr (hgone n hn rfl hmember))
      · left
        obtain ⟨j, hj⟩ := List.mem_iff_getElem?.mp hwire
        have hne : j ≠ i := by
          rintro rfl
          rw [hget] at hj
          exact heq (Option.some.inj hj).symm
        exact List.mem_eraseIdx_iff_getElem?.mpr ⟨j, hne, hj⟩
    · exact Or.inr hrest

/-- A message more of a kind that is allowed. -/
lemma wire_inv (h : PropagationInv net w) {wire' : List (Notice ν V)} (hsub : w.wire ⊆ wire')
    (hnew : ∀ m ∈ wire', ∃ n ∈ w.started, n.SameAs m) :
    PropagationInv net { w with wire := wire' } where
  prepared := h.prepared
  unique := h.unique
  wire := hnew
  accepted := h.accepted
  once := h.once
  seen := h.seen
  spread := by
    intro hlost n hn m hm hsameAs v hv hmember
    rcases h.spread hlost n hn m hm hsameAs v hv hmember with hwire | hrest
    · exact Or.inl (hsub hwire)
    · exact Or.inr hrest

/-- The work under way changes, with the same notices taken on. -/
lemma tasks_inv (h : PropagationInv net w) {tasks' : List (Fanout ν V)} {ran' : List (Notice ν V)}
    {cleanups' : List (ν × Int32)} (hperm : (tasks'.map Fanout.notice ++ ran').Perm w.accepted)
    (hleft : ∀ t ∈ w.tasks, ∀ v ∈ t.left, { t.notice with node := v } ∈ w.wire ∨
      ∃ t' ∈ tasks', t'.notice = t.notice ∧ v ∈ t'.left) :
    PropagationInv net { w with tasks := tasks', ran := ran', cleanups := cleanups' } where
  prepared := h.prepared
  unique := h.unique
  wire := h.wire
  accepted := fun m hm => h.accepted m (hperm.mem_iff.mp hm)
  once := by
    intro node id hexp
    obtain ⟨hcount, hrecent⟩ := h.once node id hexp
    refine ⟨?_, fun m hm => hrecent m (hperm.mem_iff.mp hm)⟩
    exact (hperm.countP_eq _).trans_le hcount
  seen := by
    intro node id hid
    obtain ⟨m, hm, hrest⟩ := h.seen node id hid
    exact ⟨m, hperm.mem_iff.mpr hm, hrest⟩
  spread := by
    intro hlost n hn m hm hsameAs v hv hmember
    rcases h.spread hlost n hn m (hperm.mem_iff.mp hm) hsameAs v hv hmember with
      hwire | ⟨t, ht, rfl, hvt⟩ | hacc
    · exact Or.inl hwire
    · rcases hleft t ht v hvt with hwire | ⟨t', ht', hnotice, hvt'⟩
      · left
        rw [hsameAs] at hwire
        exact hwire
      · exact Or.inr (Or.inl ⟨t', ht', hnotice, hvt'⟩)
    · exact Or.inr (Or.inr (hperm.mem_iff.mpr hacc))

/-- An id is forgotten. -/
lemma expire_inv (h : PropagationInv net w) {e : ν × Int32} {cleanups' : List (ν × Int32)} :
    PropagationInv net { w with
      recent := Function.update w.recent e.1 ((w.recent e.1).erase e.2)
      cleanups := cleanups'
      expired := e :: w.expired } where
  prepared := h.prepared
  unique := h.unique
  wire := h.wire
  accepted := h.accepted
  once := by
    intro node id hexp
    rw [List.mem_cons, not_or] at hexp
    obtain ⟨hcount, hrecent⟩ := h.once node id hexp.2
    refine ⟨hcount, ?_⟩
    intro m hm hnode hid
    have hin := hrecent m hm hnode hid
    show id ∈ Function.update w.recent e.1 ((w.recent e.1).erase e.2) node
    by_cases heq : node = e.1
    · subst heq
      rw [Function.update_self]
      exact Finset.mem_erase.mpr ⟨fun hide => hexp.1 (by rw [hide]), hin⟩
    · rwa [Function.update_of_ne heq]
  seen := by
    intro node id hid
    refine h.seen node id ?_
    simp only at hid
    by_cases heq : node = e.1
    · subst heq
      rw [Function.update_self] at hid
      exact Finset.mem_of_mem_erase hid
    · rwa [Function.update_of_ne heq] at hid
  spread := h.spread

lemma send_inv {t : Fanout ν V} (h : PropagationInv net w) (hget : w.tasks[i]? = some t) :
    PropagationInv net { w with wire := w.wire ++ t.step.1, tasks := w.tasks.set i t.step.2 } := by
  obtain ⟨hnotice, hsent, hleft⟩ := step_left t
  have ht : t ∈ w.tasks := List.mem_of_getElem? hget
  have hlt : i < w.tasks.length := (List.getElem?_eq_some_iff.mp hget).1
  have hwire : PropagationInv net { w with wire := w.wire ++ t.step.1 } := by
    refine wire_inv h (List.subset_append_left _ _) ?_
    intro m hm
    rcases List.mem_append.mp hm with hm | hm
    · exact h.wire m hm
    · obtain ⟨n, hn, hsameAs, -⟩ := h.accepted t.notice
        (List.mem_append_left _ (List.mem_map_of_mem ht))
      refine ⟨n, hn, ?_⟩
      have := hsent m hm
      rw [Notice.SameAs, hsameAs] at this
      exact this
  refine tasks_inv hwire ?_ ?_
  · rw [map_set_notice hget]
    exact List.Perm.refl _
  · intro t' ht' v hv
    obtain ⟨j, hj⟩ := List.mem_iff_getElem?.mp ht'
    by_cases hji : j = i
    · subst hji
      obtain rfl := Option.some.inj (hget.symm.trans hj)
      rcases hleft v hv with hv | hv
      · exact Or.inl (List.mem_append_right _ hv)
      · exact Or.inr ⟨t.step.2, List.mem_set hlt _, hnotice, hv⟩
    · refine Or.inr ⟨t', ?_, rfl, hv⟩
      exact List.mem_of_getElem? ((List.getElem?_set_ne (Ne.symm hji)).trans hj)

/-- The handler runs: the notice goes from the work under way to the work done. -/
lemma run_inv {t : Fanout ν V} (h : PropagationInv net w) (hget : w.tasks[i]? = some t)
    (hleft : t.left = []) : PropagationInv net { w with
      tasks := w.tasks.eraseIdx i
      ran := t.notice :: w.ran
      cleanups := (t.notice.node, t.notice.args.propagationId) :: w.cleanups } := by
  refine tasks_inv h ?_ ?_
  · exact (accepted_run hget).symm
  · intro t' ht' v hv
    obtain ⟨j, hj⟩ := List.mem_iff_getElem?.mp ht'
    have hne : j ≠ i := by
      rintro rfl
      obtain rfl := Option.some.inj (hget.symm.trans hj)
      rw [hleft] at hv
      cases hv
    exact Or.inr ⟨t', List.mem_eraseIdx_iff_getElem?.mpr ⟨j, hne, hj⟩, rfl, hv⟩

/-- A message is delivered: it is dropped, or taken on. -/
lemma deliver_inv (h : PropagationInv net w) (hget : w.wire[i]? = some m) :
    PropagationInv net
      (if checkPropagation net m.node (w.recent m.node) m.args then
        PropagationWorld.accept net { w with wire := w.wire.eraseIdx i } m
      else { w with wire := w.wire.eraseIdx i }) := by
  obtain ⟨n, hn, hsameAs⟩ := h.wire m (List.mem_of_getElem? hget)
  obtain ⟨hlevel, hargs⟩ := h.prepared n hn
  have hm : m.args = n.args := by rw [hsameAs]
  have hcheck : checkPropagation net m.node (w.recent m.node) m.args = true ↔
      n.args.propagationId ∉ w.recent m.node ∧ net.SameGnode n.node m.node n.args.level := by
    rw [hm, hargs]
    exact checkPropagation_prepared hlevel
  split_ifs with hok
  · obtain ⟨hnew, hsame⟩ := hcheck.mp hok
    have hacc := accept_inv h hn hsameAs hnew hsame
    exact eraseIdx_inv hacc hget (Or.inr fun _ _ _ _ => mem_accepted_accept.mpr (Or.inl rfl))
  · refine eraseIdx_inv h hget (Or.inr ?_)
    intro n' hn' hsameAs' hsame'
    -- A member drops it only if it has it already.
    have hargs' : n'.args = n.args := by rw [← hm, hsameAs']
    have heq : n' = n := h.unique n' hn' n hn (by rw [hargs'])
    subst heq
    have hin : n'.args.propagationId ∈ w.recent m.node := by
      by_contra hnew
      exact hok (hcheck.mpr ⟨hnew, hsame'⟩)
    obtain ⟨m', hm', hnode, hid⟩ := h.seen _ _ hin
    obtain ⟨n'', hn'', hsameAs'', -⟩ := h.accepted m' hm'
    have hsame : n'.SameAs m' := h.eq_of_id hn' hn'' hsameAs'' hid
    have hmm : m' = m := by rw [hsame, hsameAs', hnode]
    exact hmm ▸ hm'

/-- Every step keeps the invariant. -/
lemma next_inv {a : PropagationAction ν V net.levels} (h : PropagationInv net w)
    (hnext : PropagationWorld.next net w a = some w') : PropagationInv net w' := by
  cases a with
  | start node kind level id data =>
      simp only [PropagationWorld.next] at hnext
      split_ifs at hnext with hused
      obtain rfl := Option.some.inj hnext
      have hnew : ∀ n' ∈ w.started, n'.args.propagationId ≠ id := by
        intro n' hn' hid
        exact hused (List.any_eq_true.mpr ⟨n', hn', by simpa using hid⟩)
      let n : Notice ν V := ⟨node, kind, preparePropagation net node level id data⟩
      have hstarted : PropagationInv net { w with started := n :: w.started } :=
        started_inv h level.isLt rfl hnew
      refine accept_inv hstarted List.mem_cons_self (rfl : n.SameAs n) ?_
        ⟨fun _ _ _ => rfl, rfl⟩
      intro hin
      obtain ⟨m, hm, -, hid⟩ := h.seen node id hin
      obtain ⟨n', hn', hsameAs, -⟩ := h.accepted m hm
      exact hnew n' hn' (by rw [← hid, hsameAs])
  | deliver i =>
      obtain ⟨m, hget, rfl⟩ := Option.map_eq_some_iff.mp hnext
      exact deliver_inv h hget
  | duplicate i =>
      obtain ⟨m, hget, rfl⟩ := Option.map_eq_some_iff.mp hnext
      refine wire_inv h (List.subset_cons_self _ _) ?_
      intro m' hm'
      rcases List.mem_cons.mp hm' with rfl | hm'
      · exact h.wire m' (List.mem_of_getElem? hget)
      · exact h.wire m' hm'
  | lose i =>
      obtain ⟨m, hget, rfl⟩ := Option.map_eq_some_iff.mp hnext
      have hlost : PropagationInv net { w with lost := true } :=
        { h with spread := fun hlost => by cases hlost }
      exact eraseIdx_inv hlost hget (Or.inl rfl)
  | send i =>
      obtain ⟨t, hget, hsend⟩ := Option.bind_eq_some_iff.mp hnext
      split_ifs at hsend
      obtain rfl := Option.some.inj hsend
      exact send_inv h hget
  | run i =>
      obtain ⟨t, hget, hrun⟩ := Option.bind_eq_some_iff.mp hnext
      split_ifs at hrun with hleft
      obtain rfl := Option.some.inj hrun
      exact run_inv h hget hleft
  | expire i =>
      obtain ⟨e, hget, rfl⟩ := Option.map_eq_some_iff.mp hnext
      exact expire_inv h

/-- What has been taken on stays so, and what is started is taken on at once. -/
lemma next_accepted {a : PropagationAction ν V net.levels}
    (hnext : PropagationWorld.next net w a = some w') :
    w.accepted ⊆ w'.accepted ∧ ∀ n ∈ w'.started, n ∈ w.started ∨ n ∈ w'.accepted := by
  have hsame : w'.accepted = w.accepted → w'.started = w.started →
      w.accepted ⊆ w'.accepted ∧ ∀ n ∈ w'.started, n ∈ w.started ∨ n ∈ w'.accepted := by
    intro hacc hstarted
    exact ⟨hacc ▸ List.Subset.refl _, fun n hn => Or.inl (hstarted ▸ hn)⟩
  cases a with
  | start node kind level id data =>
      simp only [PropagationWorld.next] at hnext
      split_ifs at hnext with hused
      obtain rfl := Option.some.inj hnext
      refine ⟨fun m hm => mem_accepted_accept.mpr (Or.inr hm), ?_⟩
      intro n hn
      rcases List.mem_cons.mp hn with rfl | hn
      · exact Or.inr (mem_accepted_accept.mpr (Or.inl rfl))
      · exact Or.inl hn
  | deliver i =>
      obtain ⟨m, hget, rfl⟩ := Option.map_eq_some_iff.mp hnext
      simp only
      split_ifs
      · exact ⟨fun m' hm' => mem_accepted_accept.mpr (Or.inr hm'), fun n hn => Or.inl hn⟩
      · exact ⟨List.Subset.refl _, fun n hn => Or.inl hn⟩
  | duplicate i =>
      obtain ⟨m, hget, rfl⟩ := Option.map_eq_some_iff.mp hnext
      exact hsame rfl rfl
  | lose i =>
      obtain ⟨m, hget, rfl⟩ := Option.map_eq_some_iff.mp hnext
      exact hsame rfl rfl
  | send i =>
      obtain ⟨t, hget, hsend⟩ := Option.bind_eq_some_iff.mp hnext
      split_ifs at hsend
      obtain rfl := Option.some.inj hsend
      refine hsame ?_ rfl
      simp only [PropagationWorld.accepted, map_set_notice hget]
  | run i =>
      obtain ⟨t, hget, hrun⟩ := Option.bind_eq_some_iff.mp hnext
      split_ifs at hrun with hleft
      obtain rfl := Option.some.inj hrun
      exact ⟨(accepted_run hget).subset, fun n hn => Or.inl hn⟩
  | expire i =>
      obtain ⟨e, hget, rfl⟩ := Option.map_eq_some_iff.mp hnext
      exact hsame rfl rfl

lemma Reachable.inv (h : PropagationWorld.Reachable net w) :
    PropagationInv net w ∧ ∀ n ∈ w.started, n ∈ w.accepted := by
  induction h with
  | refl => exact ⟨initial_inv, by simp [PropagationWorld.initial]⟩
  | tail _ hstep ih =>
      obtain ⟨a, hnext⟩ := hstep
      obtain ⟨hsub, hstarted⟩ := next_accepted hnext
      refine ⟨next_inv ih.1 hnext, ?_⟩
      intro n hn
      rcases hstarted n hn with hold | hnew
      · exact hsub (ih.2 n hold)
      · exact hnew

/-- At rest, the members reached from the origin through members have run their handlers. -/
lemma reached_ran (h : PropagationInv net w) (horigin : ∀ n ∈ w.started, n ∈ w.accepted)
    (hlost : w.lost = false) (hwire : w.wire = []) (htasks : w.tasks = []) (hn : n ∈ w.started)
    {v : ν} (hpath : Relation.ReflTransGen (fun u v => v ∈ net.neighbors u ∧
      net.SameGnode n.node v n.args.level) n.node v) : { n with node := v } ∈ w.ran := by
  have hran : w.accepted = w.ran := by rw [PropagationWorld.accepted, htasks]; rfl
  induction hpath with
  | refl => exact hran ▸ horigin n hn
  | @tail u v _ hstep ih =>
      obtain ⟨hv, hmember⟩ := hstep
      rcases h.spread hlost n hn { n with node := u } (hran ▸ ih) rfl v hv hmember with
        hin | ⟨t, ht, -⟩ | hacc
      · rw [hwire] at hin
        cases hin
      · rw [htasks] at ht
        cases ht
      · exact hran ▸ hacc

/-- **A propagation reaches each member exactly once.**  In every state reached by any steps, with
messages in any order, duplicated or lost: before its expiry a node has run its handler at most once
for an id; the handlers that ran are those of what was started, at members of the origin's g-node;
and if no message was lost, then when nothing is in flight and no fan-out is under way the handler
has run at every member connected to the origin through members. -/
theorem propagation_exactly_once (net : PropagationNet ν) (w : PropagationWorld ν V)
    (h : PropagationWorld.Reachable net w) :
    (∀ node id, (node, id) ∉ w.expired → w.ran.countP (Notice.isAt node id) ≤ 1) ∧
    (∀ m ∈ w.ran, ∃ n ∈ w.started, m = { n with node := m.node } ∧
      net.SameGnode n.node m.node n.args.level) ∧
    (w.lost = false → w.wire = [] → w.tasks = [] → ∀ n ∈ w.started, ∀ v,
      Relation.ReflTransGen (fun u v => v ∈ net.neighbors u ∧
        net.SameGnode n.node v n.args.level) n.node v → { n with node := v } ∈ w.ran) := by
  obtain ⟨hinv, horigin⟩ := Reachable.inv h
  refine ⟨?_, ?_, ?_⟩
  · intro node id hexp
    have hcount := (hinv.once node id hexp).1
    rw [PropagationWorld.accepted, List.countP_append] at hcount
    omega
  · intro m hm
    exact hinv.accepted m (List.mem_append_right _ hm)
  · intro hlost hwire htasks n hn v hpath
    exact reached_ran hinv horigin hlost hwire htasks hn hpath

end Steps

/-- Two neighbours in one g-node of level 1. -/
def twoMembers : PropagationNet Bool where
  levels := 2
  myPos node l := if l = 0 ∧ node then 1 else 0
  fpId _ _ := 0
  neighbors node := [!node]

/-- One starts, the other hears of it and echoes it back. -/
theorem propagation_exactly_once_two : ∃ w : PropagationWorld Bool Unit,
    PropagationWorld.Reachable twoMembers w ∧
    (∀ node id, (node, id) ∉ w.expired → w.ran.countP (Notice.isAt node id) ≤ 1) ∧
    ⟨true, .prepareEnter, preparePropagation twoMembers false 1 7 ()⟩ ∈ w.ran := by
  have hrun : PropagationWorld.Reachable twoMembers (_ : PropagationWorld Bool Unit) :=
    ((((((Relation.ReflTransGen.refl.tail ⟨.start false .prepareEnter ⟨1, by decide⟩ 7 (), rfl⟩).tail
      ⟨.send 0, rfl⟩).tail ⟨.deliver 0, rfl⟩).tail ⟨.run 0, rfl⟩).tail ⟨.send 0, rfl⟩).tail
      ⟨.deliver 0, rfl⟩).tail ⟨.run 0, rfl⟩
  obtain ⟨honce, -, hreach⟩ := propagation_exactly_once twoMembers _ hrun
  refine ⟨_, hrun, honce, hreach rfl rfl rfl _ List.mem_cons_self true ?_⟩
  refine Relation.ReflTransGen.single ⟨List.mem_cons_self, ?_, rfl⟩
  intro l hl hlt
  obtain rfl : l = 1 := le_antisymm (Nat.lt_succ_iff.mp hlt) hl
  rfl

end Netsukuku
